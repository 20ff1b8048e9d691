import SlidingTally.Proofs.Number.RoundTrip

/-!
# Texts that are integers

An integer text is an optional sign and a run of digits between blanks. It is read alike as an
integer and as a number, and is finite as long as the integer is below `wholeLimit`. The reader of
numbers takes more for an integer than that: `LooselyWhole` lists what. Main statements:
`readInteger_of_signedDigits?`, `looselyWhole_iff` and `integer_agrees`.
-/

namespace SlidingTally

namespace Numeral

section
variable {cs digits : List Char} {n : Int}

-- ---------------------------------------------------------------------------
-- Signed digits
-- ---------------------------------------------------------------------------

theorem decimal?_digits (hne : digits ≠ []) (hdigits : ∀ c ∈ digits, c.isDigit = true) :
    decimal? digits = some ⟨value 10 digits, 0⟩ := by
  have hparts : Parts digits [] [] [] 0 :=
    ⟨hne, by rwa [List.append_nil], .inl ⟨rfl, rfl⟩, .inl ⟨rfl, rfl⟩⟩
  simpa using hparts.decimal?

theorem readTrimmed_of_signedDigits? (h : signedDigits? cs = some n) :
    readTrimmed cs = .ofRatio (splitSign cs).1 (n.natAbs * unitsPerOne) 1 := by
  obtain ⟨⟨hne, hdigits⟩, hn⟩ := signedDigits?_eq_some_iff.mp h
  have habs : n.natAbs = value 10 (splitSign cs).2 := by
    rw [hn]
    split <;> simp
  rw [readTrimmed_of_decimal? (decimal?_digits hne hdigits), Decimal.toBinary64_whole, habs]

/-- Behind the integer there are only blanks, so the longest run of digits is all of it. -/
theorem readInteger_of_signedDigits? {text : String}
    (h : signedDigits? (Text.trim text.toList) = some n) : readInteger text = read text := by
  obtain ⟨⟨hne, hdigits⟩, -⟩ := signedDigits?_eq_some_iff.mp h
  obtain ⟨blanks, hblanks, hstart⟩ := Text.trimStart_eq_append text.toList
  have htrim : Text.trim text.toList ≠ [] := by
    intro hnil
    rw [hnil] at hne
    exact hne rfl
  rw [readInteger_eq, hstart, splitSign_append htrim, read,
    readTrimmed_of_decimal? (decimal?_digits hne hdigits)]
  exact leading_append hne hdigits fun c hhead =>
    Text.isDigit_of_isBlank (hblanks c (List.mem_of_mem_head? hhead))

-- ---------------------------------------------------------------------------
-- What else denotes a whole number
-- ---------------------------------------------------------------------------

/-- The texts that denote a whole number without being an integer written out: no text at all, digits
of another base, and decimals with a point or an exponent, which count by the double nearest to them. -/
inductive LooselyWhole (cs : List Char) : Prop
  | blank (h : cs = [])
  | based {base : Nat} {digits : List Char} (h : based? cs = some (base, digits))
      (hdigits : digits ≠ [] ∧ ∀ c ∈ digits, digitValue c < base)
      (hlt : value base digits < Binary64.wholeLimit)
  | decimal {d : Decimal} (h : decimal? (splitSign cs).2 = some d)
      (hmark : ∃ mark ∈ ['.', 'e', 'E'], mark ∈ (splitSign cs).2)
      (hwhole : (d.toBinary64 (splitSign cs).1).isInteger = true)

theorem isInteger_inBase {base : Nat} : (inBase base digits).isInteger = true ↔
    (digits ≠ [] ∧ ∀ c ∈ digits, digitValue c < base) ∧ value base digits < Binary64.wholeLimit := by
  have hall : (digits.all fun c => digitValue c < base) = true ↔ ∀ c ∈ digits, digitValue c < base := by
    simp
  unfold inBase
  rw [← hall]
  split
  · rename_i hdigits
    rw [Binary64.isInteger_whole, and_iff_right hdigits]
  · rename_i hdigits
    exact iff_of_false (by decide) fun h => hdigits h.1

theorem isDigit_of_decimal? (h : decimal? cs = some d)
    (hmark : ¬∃ mark ∈ ['.', 'e', 'E'], mark ∈ cs) : ∀ c ∈ cs, c.isDigit = true := by
  have hsplit : cs.takeWhile Char.isDigit ++ cs.dropWhile Char.isDigit = cs :=
    List.takeWhile_append_dropWhile
  cases hbehind : cs.dropWhile Char.isDigit with
  | nil =>
    rw [hbehind, List.append_nil] at hsplit
    exact List.takeWhile_eq_self_iff.mp hsplit
  | cons c rest =>
    have hmem : c ∈ cs := by
      rw [← hsplit, hbehind]
      exact List.mem_append_right _ List.mem_cons_self
    simp only [List.mem_cons, List.not_mem_nil, or_false, not_exists, not_and] at hmark
    have hpoint : c ≠ '.' := fun heq => hmark c (.inl heq) hmem
    have hletter : ¬(c = 'e' ∨ c = 'E') := fun heq => hmark c (.inr heq) hmem
    simp [decimal?, spanDigits, hbehind, hpoint, exponent?, hletter] at h

theorem isSome_signedDigits? (h : decimal? (splitSign cs).2 = some d)
    (hmark : ¬∃ mark ∈ ['.', 'e', 'E'], mark ∈ (splitSign cs).2) : (signedDigits? cs).isSome = true := by
  have hne : (splitSign cs).2 ≠ [] := by
    intro hempty
    rw [hempty] at h
    cases h
  have hwritten := signedDigits?_eq_some_iff.mpr ⟨⟨hne, isDigit_of_decimal? h hmark⟩, rfl⟩
  rw [hwritten, Option.isSome_some]

theorem LooselyWhole.unwritten (h : LooselyWhole cs) : signedDigits? cs = none := by
  rw [Option.eq_none_iff_forall_ne_some]
  intro n hwritten
  obtain ⟨⟨hne, hdigits⟩, -⟩ := signedDigits?_eq_some_iff.mp hwritten
  cases h with
  | blank h =>
    rw [h] at hne
    exact hne rfl
  | based h =>
    have hdecimal := decimal?_digits hne hdigits
    rw [decimal?_of_based? h] at hdecimal
    cases hdecimal
  | decimal h hmark hwhole =>
    obtain ⟨mark, hmark, hmem⟩ := hmark
    have hdigit := hdigits mark hmem
    simp only [List.mem_cons, List.not_mem_nil, or_false] at hmark
    rcases hmark with rfl | rfl | rfl <;> exact absurd hdigit (by decide)

theorem LooselyWhole.isInteger (h : LooselyWhole cs) : (readTrimmed cs).isInteger = true := by
  cases h with
  | blank h =>
    rw [h]
    decide +kernel
  | based h hdigits hlt =>
    rw [readTrimmed_of_based? h]
    exact isInteger_inBase.mpr ⟨hdigits, hlt⟩
  | decimal h hmark hwhole => rwa [readTrimmed_of_decimal? h]

theorem looselyWhole_iff : LooselyWhole cs ↔
    signedDigits? cs = none ∧ (readTrimmed cs).isInteger = true := by
  refine ⟨fun h => ⟨h.unwritten, h.isInteger⟩, ?_⟩
  rintro ⟨hnone, hinteger⟩
  by_cases hnil : cs = []
  · exact .blank hnil
  cases hbased : based? cs with
  | some found =>
    rw [readTrimmed_of_based? hbased, isInteger_inBase] at hinteger
    exact .based hbased hinteger.1 hinteger.2
  | none =>
    rw [readTrimmed_of_not_based hnil hbased, unsigned] at hinteger
    split at hinteger
    · cases hinteger
    · split at hinteger
      · rename_i d hdecimal
        refine .decimal hdecimal ?_ hinteger
        by_contra hmark
        have hsome := isSome_signedDigits? hdecimal hmark
        rw [hnone] at hsome
        cases hsome
      · cases hinteger

example : LooselyWhole "1.5e1".toList := looselyWhole_iff.mpr (by decide +kernel)

end

end Numeral

-- ---------------------------------------------------------------------------
-- Values
-- ---------------------------------------------------------------------------

namespace Codec

/-- The integer that a value is the text of, none for numbers and other texts. -/
def written? (value : Value) : Option Int :=
  match value with
  | .number _ => none
  | value => value.toText?.bind fun text => Numeral.signedDigits? (Text.trim text.toList)

section
variable {key value : Value} {text : String} {n : Int}

theorem written?_of_asText (hnumber : ∀ y, value ≠ .number y) (htext : value.asText = .ok text) :
    written? value = Numeral.signedDigits? (Text.trim text.toList) := by
  unfold written?
  split
  · exact absurd rfl (hnumber _)
  · rw [Value.asText_eq_ok_iff.mp htext, Option.bind_some]

theorem isIntegerText_eq (text : String) :
    isIntegerText text = (Numeral.signedDigits? (Text.trim text.toList)).isSome :=
  Numeral.isSignedDigits_eq _

theorem integer_of_written (h : Numeral.signedDigits? (Text.trim text.toList) = some n) :
    integer key (.text text) = .ok (Numeral.read text) := by
  rw [integer_of_asText (Value.asText_text text) nofun, isIntegerText_eq, h, Option.isSome_some,
    if_pos rfl, Numeral.readInteger_of_signedDigits? h]

theorem integer_of_unwritten (key : Value)
    (h : Numeral.signedDigits? (Text.trim text.toList) = none) :
    integer key (.text text) = refuse key text "integer" := by
  rw [integer_of_asText (Value.asText_text text) nofun, isIntegerText_eq, h, Option.isSome_none,
    if_neg Bool.false_ne_true]

theorem isFinite_read (h : Numeral.signedDigits? (Text.trim text.toList) = some n) :
    (Numeral.read text).isFinite = true ↔ n.natAbs < Binary64.wholeLimit := by
  rw [Numeral.read, Numeral.readTrimmed_of_signedDigits? h, Binary64.isFinite_whole]

theorem isInteger_read (h : Numeral.signedDigits? (Text.trim text.toList) = some n) :
    (Numeral.read text).isInteger = true ↔ n.natAbs < Binary64.wholeLimit := by
  rw [Numeral.read, Numeral.readTrimmed_of_signedDigits? h, Binary64.isInteger_whole]

theorem float_of_written (hnumber : ∀ y, value ≠ .number y) (htext : value.asText = .ok text)
    (h : Numeral.signedDigits? (Text.trim text.toList) = some n) : float key value =
      if (Numeral.read text).isFinite then .ok (Numeral.read text)
      else refuse key (String.ofList (Text.trim text.toList)) "float" := by
  have hempty : (Text.trim text.toList).isEmpty = false := by
    rw [List.isEmpty_eq_false_iff]
    intro hnil
    rw [hnil] at h
    cases h
  rw [float_of_asText htext hnumber, hempty, Bool.false_or]
  cases (Numeral.read text).isFinite <;> rfl

end

/-- What reads as an integer is one, and the same number for both readers, exactly if it is no text
of an integer that is too large for a double; such a text reads as an infinity, which the reader of
numbers refuses. -/
theorem integer_agrees {name : String} {value : Value} {x : Binary64}
    (h : integer (.text name) value = .ok x) :
    (x.isFinite = true ↔ ∀ n ∈ written? value, n.natAbs < Binary64.wholeLimit) ∧
      (x.isFinite = true → x.isInteger = true ∧ float (.text name) value = .ok x) ∧
      (x.isFinite = false → ∃ raw, float (.text name) value = .error (.decode name raw "float")) := by
  rcases integer_eq_ok_iff.mp h with ⟨rfl, hinteger⟩ | ⟨hnumber, text, htext, hdigits, rfl⟩
  · obtain ⟨-, hfinite, -⟩ := Binary64.exists_is hinteger
    refine ⟨iff_of_true hfinite nofun, fun _ => ⟨hinteger, rfl⟩, fun hinfinite => ?_⟩
    rw [hfinite] at hinfinite
    cases hinfinite
  · rw [isIntegerText_eq, Option.isSome_iff_exists] at hdigits
    obtain ⟨n, hn⟩ := hdigits
    have hfloat : float (.text name) value = _ := float_of_written hnumber htext hn
    refine ⟨?_, fun hfinite => ⟨Numeral.isInteger_readInteger hfinite, ?_⟩, fun hinfinite => ?_⟩
    · rw [Numeral.readInteger_of_signedDigits? hn, isFinite_read hn, written?_of_asText hnumber htext,
        hn]
      simp
    · rw [Numeral.readInteger_of_signedDigits? hn] at hfinite ⊢
      rw [hfloat, if_pos hfinite]
    · rw [Numeral.readInteger_of_signedDigits? hn] at hinfinite
      refine ⟨String.ofList (Text.trim text.toList), ?_⟩
      rw [hfloat, hinfinite]
      rfl

theorem integer_agrees_blanks :
    integer (.text "k") (.text " -3 ") = .ok (Binary64.ofInt (-3)) ∧
      (Binary64.ofInt (-3)).isInteger = true ∧
      float (.text "k") (.text " -3 ") = .ok (Binary64.ofInt (-3)) := by
  have h : integer (.text "k") (.text " -3 ") = .ok (Binary64.ofInt (-3)) :=
    integer_eq_ok_iff.mpr (.inr ⟨nofun, " -3 ", rfl, by decide +kernel, by decide +kernel⟩)
  exact ⟨h, (integer_agrees h).2.1 (by decide +kernel)⟩

def powerOfTen (zeros : Nat) : String := String.ofList (['1'] ++ List.replicate zeros '0')

theorem signedDigits?_powerOfTen (zeros : Nat) :
    Numeral.signedDigits? (Text.trim (powerOfTen zeros).toList) = some (Nat.pow 10 zeros : Int) := by
  have hone : ∀ c ∈ ['1'], c.isDigit = true := by simp
  have hdigits : ∀ c ∈ ['1'] ++ List.replicate zeros '0', c.isDigit = true := by
    intro c hmem
    rcases List.mem_append.mp hmem with hmem | hmem
    · exact hone c hmem
    · exact Numeral.isDigit_of_mem_zeros hmem
  have hvalue : Numeral.value 10 (['1'] ++ List.replicate zeros '0') = Nat.pow 10 zeros := by
    rw [Numeral.value_append_zeros hone]
    exact Nat.one_mul _
  rw [powerOfTen, String.toList_ofList,
    Text.trim_eq_self fun c hmem => Text.not_isBlank_of_isDigit (hdigits c hmem),
    Numeral.signedDigits?_eq_some_iff]
  exact ⟨⟨nofun, hdigits⟩, by rw [← hvalue]; rfl⟩

/-- A one and 309 zeros pass for an integer and read as an infinity. -/
theorem integer_overlong : ∃ x, integer (.text "k") (.text (powerOfTen 309)) = .ok x ∧
    x.isFinite = false ∧ x.isInteger = false ∧
      ∃ raw, float (.text "k") (.text (powerOfTen 309)) = .error (.decode "k" raw "float") := by
  have hwritten := signedDigits?_powerOfTen 309
  have hread : (Numeral.read (powerOfTen 309)).isFinite = false := by
    rw [← Bool.not_eq_true, isFinite_read hwritten]
    decide +kernel
  have hinteger : (Numeral.read (powerOfTen 309)).isInteger = false := by
    rw [← Bool.not_eq_true, isInteger_read hwritten]
    decide +kernel
  have hfloat : float (.text "k") (.text (powerOfTen 309)) = _ :=
    float_of_written (fun _ => nofun) (Value.asText_text (powerOfTen 309)) hwritten
  rw [hread] at hfloat
  exact ⟨_, integer_of_written hwritten, hread, hinteger, _, hfloat⟩

end Codec

end SlidingTally
