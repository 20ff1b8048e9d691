import SlidingTally.Config.Environment
import SlidingTally.Proofs.Config.Boot
import SlidingTally.Proofs.Number.Exact
import SlidingTally.Proofs.Number.Spelling

/-!
# Time limits from environment variables

A time limit is taken from the digits that lead the text of its variable, whatever stands behind them,
and the validation asks only whether it is above zero. So a time limit that passes is what the text
says as a whole exactly if the text is not `Misread`: if what stands behind the digits leaves the
number as it is. Main statements: `Numeral.Leads.readInteger`, `Config.taken_of_valid` and
`Config.timeout_honoured_iff`.
-/

namespace SlidingTally

-- ---------------------------------------------------------------------------
-- Leading digits
-- ---------------------------------------------------------------------------

namespace Numeral

/-- Blanks aside, the text is digits and a tail that begins with none, perhaps behind a plus sign. -/
structure Leads (text : String) (digits tail : List Char) : Prop where
  allDigits : AllDigits digits
  tail_head : ∀ c ∈ tail.head?, c.isDigit = false
  trimmed : Text.trim text.toList = digits ++ tail ∨ Text.trim text.toList = '+' :: (digits ++ tail)

section
variable {text : String} {digits tail cs : List Char}

theorem Leads.splitSign (h : Leads text digits tail) :
    splitSign (Text.trim text.toList) = (false, digits ++ tail) := by
  rcases h.trimmed with htrim | htrim
  · obtain ⟨c, rest, rfl, hc⟩ := h.allDigits.isDigit_head
    rw [htrim]
    exact splitSign_of_isDigit hc (rest ++ tail)
  · rw [htrim]
    rfl

theorem Leads.trim_ne_nil (h : Leads text digits tail) : Text.trim text.toList ≠ [] := by
  intro hnil
  have hsplit := h.splitSign
  rw [hnil] at hsplit
  exact h.allDigits.1 (List.append_eq_nil_iff.mp (Prod.mk.inj hsplit).2.symm).1

theorem Leads.unique {digits' tail' : List Char} (h : Leads text digits tail)
    (h' : Leads text digits' tail') : digits = digits' ∧ tail = tail' := by
  have hsplit := h.splitSign.symm.trans h'.splitSign
  have hspan := spanDigits_append h.allDigits.2 h.tail_head
  rw [(Prod.mk.inj hsplit).2, spanDigits_append h'.allDigits.2 h'.tail_head] at hspan
  cases hspan
  exact ⟨rfl, rfl⟩

theorem Leads.readInteger (h : Leads text digits tail) :
    readInteger text = Binary64.ofNat (denoted digits) := by
  obtain ⟨blanks, hblanks, hstart⟩ := Text.trimStart_eq_append text.toList
  have hrest : ∀ c ∈ (tail ++ blanks).head?, c.isDigit = false := by
    intro c hhead
    cases htail : tail with
    | nil =>
      rw [htail] at hhead
      exact Text.isDigit_of_isBlank (hblanks c (List.mem_of_mem_head? hhead))
    | cons first rest =>
      rw [htail] at hhead
      exact h.tail_head c (by rwa [htail])
  rw [readInteger_eq, hstart, splitSign_append h.trim_ne_nil, h.splitSign, List.append_assoc,
    leading_append h.allDigits.1 h.allDigits.2 hrest, toBinary64_natural, value_eq h.allDigits.2]
  rfl

theorem leading_nil {negative : Bool} (h : cs.takeWhile Char.isDigit = []) :
    readInteger.leading negative cs = .nan := by
  unfold readInteger.leading
  rw [h]

theorem leading_negative : Binary64.zero.lt (readInteger.leading true cs) = false := by
  unfold readInteger.leading
  split
  · rfl
  · rw [Decimal.toBinary64_whole]
    exact (Binary64.nonpositive_ofRatio Nat.one_pos (.inl rfl)).lt_eq_false

theorem takeWhile_append_blank (h : Text.Blank blanks) :
    (cs ++ blanks).takeWhile Char.isDigit = cs.takeWhile Char.isDigit := by
  have hnone : blanks.takeWhile Char.isDigit = [] := by
    cases blanks with
    | nil => rfl
    | cons c rest =>
      exact List.takeWhile_cons_of_neg (by simp [Text.isDigit_of_isBlank (h c List.mem_cons_self)])
  rw [List.takeWhile_append, hnone, List.append_nil]
  split
  · exact ((List.takeWhile_prefix _).eq_of_length ‹_›).symm
  · rfl

theorem exists_leads (h : Binary64.zero.lt (readInteger text) = true) :
    ∃ digits tail, Leads text digits tail := by
  obtain ⟨blanks, hblanks, hstart⟩ := Text.trimStart_eq_append text.toList
  have hnan : Binary64.zero.lt .nan = false := rfl
  by_cases hnil : Text.trim text.toList = []
  · have hempty : Text.trimStart text.toList = [] :=
      List.dropWhile_eq_nil_iff.mpr (Text.blank_iff.mpr hnil)
    rw [readInteger_eq, hempty, leading_nil rfl, hnan] at h
    cases h
  rw [readInteger_eq, hstart, splitSign_append hnil] at h
  cases hsign : (splitSign (Text.trim text.toList)).1 with
  | true =>
    rw [hsign, leading_negative] at h
    cases h
  | false =>
    refine ⟨(splitSign (Text.trim text.toList)).2.takeWhile Char.isDigit,
      (splitSign (Text.trim text.toList)).2.dropWhile Char.isDigit, ⟨fun hnone => ?_, fun c hmem => ?_⟩,
      fun c hhead => ?_, ?_⟩
    · rw [leading_nil ((takeWhile_append_blank hblanks).trans hnone), hnan] at h
      cases h
    · exact List.mem_takeWhile_imp hmem
    · have hfirst := List.head?_dropWhile_not Char.isDigit (splitSign (Text.trim text.toList)).2
      rw [hhead] at hfirst
      exact hfirst
    · rw [List.takeWhile_append_dropWhile]
      rcases splitSign_cases (Text.trim text.toList) with ⟨hplus, -⟩ | ⟨-, hminus⟩ | hplain
      · exact .inr hplus
      · rw [hsign] at hminus
        cases hminus
      · rw [hplain]
        exact .inl rfl

theorem Leads.denoted_pos (h : Leads text digits tail)
    (hpos : Binary64.zero.lt (Numeral.readInteger text) = true) : 0 < denoted digits := by
  rw [Nat.pos_iff_ne_zero]
  intro hzero
  rw [h.readInteger, hzero, Binary64.ofNat_zero] at hpos
  exact absurd hpos (by decide)

/-- Only a zero can start a numeral of another base. -/
theorem based?_append (h : AllDigits digits) (hpos : 0 < denoted digits) (tail : List Char) :
    based? (digits ++ tail) = none := by
  have hletter {letter : Char} {rest : List Char} (heq : digits ++ tail = '0' :: letter :: rest) :
      letter.isDigit = true := by
    obtain ⟨c, others, rfl⟩ := List.exists_cons_of_ne_nil h.1
    obtain ⟨rfl, hothers⟩ := List.cons_eq_cons.mp heq
    cases others with
    | nil => exact absurd hpos (by decide)
    | cons d others =>
      obtain ⟨rfl, -⟩ := List.cons_eq_cons.mp hothers
      exact h.2 d (List.mem_cons_of_mem _ List.mem_cons_self)
  unfold based?
  split
  all_goals first
    | rfl
    | exact absurd (hletter ‹_›) (by decide)

theorem Leads.read (h : Leads text digits tail) (hpos : 0 < denoted digits) :
    read text = unsigned false (digits ++ tail) := by
  have hbased : based? (Text.trim text.toList) = none := by
    rcases h.trimmed with htrim | htrim
    · rw [htrim, based?_append h.allDigits hpos]
    · rw [htrim]
      rfl
  rw [Numeral.read, readTrimmed_of_not_based h.trim_ne_nil hbased, h.splitSign]

theorem read_eq_iff (h : Leads text digits tail) (hpos : 0 < denoted digits) :
    (read text).eq x = true ↔
      ∃ d, decimal? (digits ++ tail) = some d ∧ (d.toBinary64 false).eq x = true := by
  have hword : digits ++ tail ≠ "Infinity".toList := by
    obtain ⟨c, rest, rfl, hc⟩ := h.allDigits.isDigit_head
    intro heq
    obtain ⟨rfl, -⟩ := List.cons_eq_cons.mp heq
    exact absurd hc (by decide)
  rw [h.read hpos, unsigned, if_neg hword]
  cases decimal? (digits ++ tail) with
  | none => simp [Binary64.eq]
  | some d => simp

end

end Numeral

-- ---------------------------------------------------------------------------
-- The variable
-- ---------------------------------------------------------------------------

namespace Config

open Numeral (Leads denoted decimal?)

def timeoutSetting (environment : Environment) : Value :=
  environment.get "VELOCITY_COUNTER_TIMEOUT_MS"

def IsSetting (setting : Value) : Prop := setting = .undefined ∨ ∃ text, setting = .text text

/-- Nothing is set and there is no time limit, or the text that is set, blanks around it aside, is a
numeral for the time limit. -/
inductive Honoured (setting timeout : Value) : Prop
  | unset (h : setting = .undefined ∨ setting = .text "") (hnone : timeout = .undefined)
  | number (h : setting = .text text) (hlimit : timeout = .number x)
      (hread : (Numeral.read text).eq x = true)

/-- Nothing is set and there is no time limit, or the limit is what the digits that lead the text
denote, which is above zero. -/
inductive Taken (setting timeout : Value) : Prop
  | unset (h : setting = .undefined ∨ setting = .text "") (hnone : timeout = .undefined)
  | leading (h : setting = .text text) (hleads : Leads text digits tail) (hpos : 0 < denoted digits)
      (hlimit : timeout = .number (Binary64.ofNat (denoted digits)))

/-- Digits lead the text that is set, and together with what stands behind them they are no decimal
numeral for the same number. -/
def Misread (setting : Value) : Prop :=
  ∃ text digits tail, setting = .text text ∧ Leads text digits tail ∧
    ∀ d, decimal? (digits ++ tail) = some d →
      (d.toBinary64 false).eq (Binary64.ofNat (denoted digits)) = false

section
variable {σ : Type} {s : σ} {environment : Environment} {config : Config} {requireMongoUri : Bool}
  {setting timeout : Value} {text : String}

theorem timeout_ofEnvironment (h : ofEnvironment environment = .ok config) :
    timeoutOfVariable (timeoutSetting environment) = .ok config.operationTimeout := by
  unfold ofEnvironment at h
  simp only [bind, Except.bind, pure, Except.pure, throw, throwThe, MonadExceptOf.throw] at h
  split at h
  · split at h
    · cases h
    · cases h
  · split at h
    · cases h
    · split at h
      · cases h
      · rename_i timeout htimeout
        cases h
        exact htimeout

theorem timeoutOfVariable_text (h : text ≠ "") :
    timeoutOfVariable (.text text) = .ok (.number (Numeral.readInteger text)) := by
  have htruthy : (Value.text text).truthy = true := by simpa [Value.truthy] using h
  rw [timeoutOfVariable, if_pos htruthy, Value.asText_text]
  rfl

theorem taken_of_valid (hsetting : IsSetting setting) (hread : timeoutOfVariable setting = .ok timeout)
    (hvalid : timeoutIsValid timeout = .ok true) : Taken setting timeout := by
  rcases hsetting with rfl | ⟨text, rfl⟩
  · cases hread
    exact .unset (.inl rfl) rfl
  · by_cases hempty : text = ""
    · subst hempty
      cases hread
      exact .unset (.inr rfl) rfl
    · rw [timeoutOfVariable_text hempty] at hread
      cases hread
      have hpos : Binary64.zero.lt (Numeral.readInteger text) = true := Except.ok.inj hvalid
      obtain ⟨digits, tail, hleads⟩ := Numeral.exists_leads hpos
      exact .leading rfl hleads (hleads.denoted_pos hpos) (by rw [hleads.readInteger])

theorem Taken.honoured_iff (h : Taken setting timeout) : Honoured setting timeout ↔ ¬Misread setting := by
  cases h with
  | unset h hnone =>
    refine iff_of_true (.unset h hnone) ?_
    rintro ⟨text, digits, tail, rfl, hleads, -⟩
    rcases h with hundefined | hempty
    · cases hundefined
    · cases hempty
      exact hleads.trim_ne_nil rfl
  | @leading text digits tail h hleads hpos hlimit =>
    rw [h, hlimit]
    constructor
    · rintro hhonoured ⟨_, _, _, htext, hleads', hother⟩
      cases htext
      obtain ⟨rfl, rfl⟩ := hleads.unique hleads'
      cases hhonoured with
      | unset _ hnone => cases hnone
      | number heq hnumber hwhole =>
        cases heq
        cases hnumber
        obtain ⟨d, hd, heq⟩ := (Numeral.read_eq_iff hleads hpos).mp hwhole
        rw [hother d hd] at heq
        cases heq
    · intro hread
      by_contra hhonoured
      refine hread ⟨text, digits, tail, rfl, hleads, fun d hd => ?_⟩
      rw [← Bool.not_eq_true]
      exact fun heq => hhonoured (.number rfl rfl ((Numeral.read_eq_iff hleads hpos).mpr ⟨d, hd, heq⟩))

/-- A time limit that is taken from the environment and passes the validation is what its variable
says, exactly if the text of the variable is not misread. -/
theorem timeout_honoured_iff (hsetting : IsSetting (timeoutSetting environment))
    (hread : ofEnvironment environment = .ok config)
    (hvalid : (config.validate requireMongoUri s).reply = .ok ()) :
    Taken (timeoutSetting environment) config.operationTimeout ∧
      (Honoured (timeoutSetting environment) config.operationTimeout ↔
        ¬Misread (timeoutSetting environment)) := by
  have htaken := taken_of_valid hsetting (timeout_ofEnvironment hread) (validate_ok_iff.mp hvalid).timeout
  exact ⟨htaken, htaken.honoured_iff⟩

def timed (limit : String) : Environment :=
  ⟨[("VELOCITY_COUNTER_STORE", .text "memory"), ("VELOCITY_COUNTER_TIMEOUT_MS", .text limit)]⟩

theorem validate_timed (text : String) (hne : text ≠ "")
    (hpos : Binary64.zero.lt (Numeral.readInteger text) = true) :
    ∃ config, ofEnvironment (timed text) = .ok config ∧ (config.validate true ()).reply = .ok () ∧
      config.operationTimeout = .number (Numeral.readInteger text) := by
  refine ⟨{ store := .text "memory", servers := .list []
            storeOptions := .record [("mongoUri", .undefined), ("redis", .undefined)]
            operationTimeout := .number (Numeral.readInteger text) }, ?_, ?_, rfl⟩
  · have htimeout : timeoutOfVariable ((timed text).get "VELOCITY_COUNTER_TIMEOUT_MS") =
        .ok (.number (Numeral.readInteger text)) := timeoutOfVariable_text hne
    rw [ofEnvironment, htimeout]
    rfl
  · exact validate_ok_iff.mpr ⟨rfl, fun hredis => absurd hredis nofun, fun _ => nofun, nofun,
      congrArg Except.ok hpos, nofun⟩

/-- A thousand is honoured with a point behind its digits, and with an exponent it passes for one. -/
theorem timeout_honoured_iff_thousand :
    (∃ config, ofEnvironment (timed " 1000.0") = .ok config ∧
      (config.validate true ()).reply = .ok () ∧ config.operationTimeout = .number 1000 ∧
        Honoured (timeoutSetting (timed " 1000.0")) config.operationTimeout) ∧
    ∃ config, ofEnvironment (timed "1e3") = .ok config ∧
      (config.validate true ()).reply = .ok () ∧ config.operationTimeout = .number 1 ∧
        ¬Honoured (timeoutSetting (timed "1e3")) config.operationTimeout := by
  constructor
  · have hleads : Leads " 1000.0" ['1', '0', '0', '0'] ['.', '0'] :=
      ⟨⟨by decide, by simp⟩, by simp, .inl (by decide)⟩
    have hwhole : (decimal? (['1', '0', '0', '0'] ++ ['.', '0'])).any (fun d =>
        (d.toBinary64 false).eq (Binary64.ofNat (denoted ['1', '0', '0', '0']))) = true := by
      decide +kernel
    obtain ⟨d, hd, heq⟩ := (Option.any_eq_true _ _).mp hwhole
    have hnot : ¬Misread (timeoutSetting (timed " 1000.0")) := by
      rintro ⟨text, digits, tail, htext, hleads', hother⟩
      cases htext
      obtain ⟨rfl, rfl⟩ := hleads.unique hleads'
      rw [hother d hd] at heq
      cases heq
    have hthousand : Numeral.readInteger " 1000.0" = 1000 := hleads.readInteger
    obtain ⟨config, hread, hvalid, hlimit⟩ := validate_timed " 1000.0" (by decide) (by decide +kernel)
    rw [hthousand] at hlimit
    exact ⟨config, hread, hvalid, hlimit,
      (timeout_honoured_iff (.inr ⟨" 1000.0", rfl⟩) hread hvalid).2.mpr hnot⟩
  · have hleads : Leads "1e3" ['1'] ['e', '3'] :=
      ⟨⟨by decide, by simp⟩, by simp, .inl (by decide)⟩
    have hmisread : Misread (timeoutSetting (timed "1e3")) :=
      ⟨"1e3", ['1'], ['e', '3'], rfl, hleads, by decide +kernel⟩
    have hone : Numeral.readInteger "1e3" = 1 := hleads.readInteger
    obtain ⟨config, hread, hvalid, hlimit⟩ := validate_timed "1e3" (by decide) (by decide +kernel)
    rw [hone] at hlimit
    exact ⟨config, hread, hvalid, hlimit, fun h =>
      (timeout_honoured_iff (.inr ⟨"1e3", rfl⟩) hread hvalid).2.mp h hmisread⟩

/-- What stands behind the digits need not be part of any numeral. -/
theorem not_honoured_unit : ∃ config, ofEnvironment (timed "250ms") = .ok config ∧
    (config.validate true ()).reply = .ok () ∧ config.operationTimeout = .number 250 ∧
      ¬Honoured (timeoutSetting (timed "250ms")) config.operationTimeout := by
  have hlimit : Numeral.readInteger "250ms" = 250 := by decide +kernel
  have hnan : Numeral.read "250ms" = .nan := by decide +kernel
  obtain ⟨config, hread, hvalid, htimeout⟩ :=
    validate_timed "250ms" (by decide) (by decide +kernel)
  refine ⟨config, hread, hvalid, htimeout.trans (by rw [hlimit]), fun h => ?_⟩
  cases h with
  | unset _ hnone =>
    rw [htimeout] at hnone
    cases hnone
  | number h _ hwhole =>
    cases h
    rw [hnan] at hwhole
    cases hwhole

end

end Config

end SlidingTally
