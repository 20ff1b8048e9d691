import SlidingTally.Proofs.Number.RoundTrip
import SlidingTally.Window.Bucket

/-!
# The keys of buckets

A key is taken apart from its end: the last two separators in it are those of the window and of the
id, whatever the name holds, since no number has a separator in its text. Main statements: `key_inj`
and `wholeKey_inj`.
-/

namespace SlidingTally.Bucket

open Binary64

-- ---------------------------------------------------------------------------
-- Separators
-- ---------------------------------------------------------------------------

theorem append_sep_le {sep : Char} {x y c : List Char} (hx : sep ∉ x)
    (h : sep :: x = c ++ sep :: y) : c = [] ∧ x = y := by
  cases c with
  | nil => exact ⟨rfl, (List.cons.inj h).2⟩
  | cons d rest =>
    have htail : x = rest ++ sep :: y := (List.cons.inj h).2
    rw [htail] at hx
    exact absurd (List.mem_append_right _ List.mem_cons_self) hx

theorem append_sep_inj {sep : Char} {a b x y : List Char} (hx : sep ∉ x) (hy : sep ∉ y)
    (h : a ++ sep :: x = b ++ sep :: y) : a = b ∧ x = y := by
  rcases List.append_eq_append_iff.mp h with ⟨c, rfl, htail⟩ | ⟨c, rfl, htail⟩
  · obtain ⟨rfl, rfl⟩ := append_sep_le hx htail
    exact ⟨(List.append_nil a).symm, rfl⟩
  · obtain ⟨rfl, rfl⟩ := append_sep_le hy htail
    exact ⟨List.append_nil b, rfl⟩

theorem toList_keyText (name window id : String) :
    (keyText name window id).toList =
      (name.toList ++ ':' :: 'w' :: window.toList) ++ ':' :: 'b' :: id.toList := by
  simp [keyText, String.toList_append]

/-- Whatever the name holds, the last two separators are those of the window and the id. -/
theorem keyText_inj {name name' window window' id id' : String} (hw : ':' ∉ window.toList)
    (hw' : ':' ∉ window'.toList) (hi : ':' ∉ id.toList) (hi' : ':' ∉ id'.toList)
    (h : keyText name window id = keyText name' window' id') :
    name = name' ∧ window = window' ∧ id = id' := by
  have hl := congrArg String.toList h
  rw [toList_keyText, toList_keyText] at hl
  obtain ⟨hfront, hid⟩ := append_sep_inj (by simpa using hi) (by simpa using hi') hl
  obtain ⟨hname, hwindow⟩ := append_sep_inj (by simpa using hw) (by simpa using hw') hfront
  simp only [List.cons.injEq, true_and] at hid hwindow
  exact ⟨String.toList_inj.mp hname, String.toList_inj.mp hwindow, String.toList_inj.mp hid⟩

/-- No two buckets have the same key, whatever their names hold. -/
theorem key_inj {name name' : String} {window window' id id' : Binary64}
    (hwindow : window.isFinite = true) (hpos : Binary64.zero.lt window = true)
    (hwindow' : window'.isFinite = true) (hid : id.isFinite = true) (hid' : id'.isFinite = true)
    (h : key name window id = key name' window' id') :
    name = name' ∧ window = window' ∧ id.eq id' = true := by
  obtain ⟨hname, htext, hidText⟩ := keyText_inj (colon_not_mem_text hwindow)
    (colon_not_mem_text hwindow') (colon_not_mem_text hid) (colon_not_mem_text hid') h
  have hunits := (eq_iff_units hwindow hwindow').mp (text_inj hwindow hwindow' htext)
  have hne : window.units ≠ 0 := by
    have := (lt_iff_units rfl hwindow).mp hpos
    exact Int.ne_of_gt this
  exact ⟨hname, eq_of_units_ne_zero hwindow hwindow' hne hunits, text_inj hid hid' hidText⟩

/-- A name may look like a key itself, and of the two zeros either is the id of the bucket. -/
theorem key_inj_zero :
    key "a:w1:b0" (ofNat 60) (finite true .zero) = key "a:w1:b0" (ofNat 60) zero ∧
      (finite true .zero).eq zero = true := by
  have hsame : key "a:w1:b0" (ofNat 60) (finite true .zero) = key "a:w1:b0" (ofNat 60) zero := by
    decide +kernel
  have hwindow : (ofNat 60).isFinite = true := (is_ofNat (by decide)).1
  exact ⟨hsame, (key_inj hwindow (by decide +kernel) hwindow rfl rfl hsame).2.2⟩

-- ---------------------------------------------------------------------------
-- Whole windows
-- ---------------------------------------------------------------------------

theorem isDigit_or_minus_of_mem {k : Int} (h : c ∈ intNumeral k) : c.isDigit = true ∨ c = '-' := by
  unfold intNumeral at h
  split at h
  · rcases List.mem_cons.mp h with rfl | h
    · exact .inr rfl
    · exact .inl (Nat.isDigit_of_mem_toDigits (by decide) (by decide) h)
  · exact .inl (Nat.isDigit_of_mem_toDigits (by decide) (by decide) h)

theorem colon_not_mem_intNumeral (k : Int) : ':' ∉ intNumeral k := by
  intro h
  rcases isDigit_or_minus_of_mem h with h | h
  · revert h
    decide
  · revert h
    decide

theorem toDigits_inj {m n : Nat} (h : Nat.toDigits 10 m = Nat.toDigits 10 n) : m = n := by
  have := congrArg (Nat.ofDigitChars 10 · 0) h
  simpa [Nat.ofDigitChars_ten_toDigits] using this

theorem intNumeral_inj {k l : Int} (h : intNumeral k = intNumeral l) : k = l := by
  have hminus (n : Nat) (rest : List Char) : Nat.toDigits 10 n ≠ '-' :: rest := by
    intro hd
    have := Nat.isDigit_of_mem_toDigits (b := 10) (n := n) (c := '-') (by decide) (by decide)
      (by rw [hd]; exact List.mem_cons_self)
    revert this
    decide
  unfold intNumeral at h
  split at h
  · split at h
    · have := toDigits_inj (List.cons.inj h).2
      omega
    · exact absurd h.symm (hminus _ _)
  · split at h
    · exact absurd h (hminus _ _)
    · have := toDigits_inj h
      omega

def wholeKey (name : String) (window : Nat) (id : Int) : String :=
  keyText name (String.ofList (intNumeral window)) (String.ofList (intNumeral id))

theorem wholeKey_inj {name name' : String} {window window' : Nat} {id id' : Int}
    (h : wholeKey name window id = wholeKey name' window' id') :
    name = name' ∧ window = window' ∧ id = id' := by
  obtain ⟨hname, hwindow, hid⟩ := keyText_inj (by simpa using colon_not_mem_intNumeral _)
    (by simpa using colon_not_mem_intNumeral _) (by simpa using colon_not_mem_intNumeral _)
    (by simpa using colon_not_mem_intNumeral _) h
  have hwindow := intNumeral_inj (String.ofList_inj.mp hwindow)
  exact ⟨hname, by omega, intNumeral_inj (String.ofList_inj.mp hid)⟩

theorem key_of_is {id : Binary64} {k : Int} {window : Nat} (h : id.Is k) (hk : k.natAbs < 2 ^ 53)
    (hw : window < 2 ^ 53) (name : String) :
    key name (ofNat window) id = wholeKey name window k := by
  have hsafe : safeLimit.natAbs = 2 ^ 53 - 1 := by decide
  have hwindow : (ofNat window).Is window := is_ofNat (by omega)
  rw [key, text_of_is h (by omega), text_of_is hwindow (by omega)]
  rfl

def IsKey (text : String) : Prop :=
  ∃ (name : String) (window id : Binary64), text = key name window id

theorem colon_mem_of_isKey {text : String} (h : IsKey text) : ':' ∈ text.toList := by
  obtain ⟨name, window, id, rfl⟩ := h
  rw [key, toList_keyText]
  simp

theorem isKey_wholeKey {window : Nat} {k : Int} (hk : k.natAbs < 2 ^ 53) (hw : window < 2 ^ 53)
    (name : String) : IsKey (wholeKey name window k) :=
  ⟨name, ofNat window, ofInt k, (key_of_is (is_ofInt (by omega)) hk hw name).symm⟩

end SlidingTally.Bucket
