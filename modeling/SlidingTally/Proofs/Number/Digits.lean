import SlidingTally.Codec
import SlidingTally.Proofs.Number.Overflow
import SlidingTally.Proofs.Number.Sums
import SlidingTally.Proofs.Text.Padding

/-!
# Naturals as values and numerals

A value that is a natural number is told from the smaller ones. Every reader of integers goes by
`splitSign`, so the digits of a natural number read back as the number, whichever way they are read,
or as the double nearest to it. Whatever reads as an integer is one. Main statements:
`isNumber_ofNat`, `signedDigits?_eq_some_iff`, `integer_numeral` and `isInteger_of_integer`.
-/

namespace SlidingTally

-- ---------------------------------------------------------------------------
-- Values that are naturals
-- ---------------------------------------------------------------------------

theorem isNumber_number (x y : Binary64) : (Value.number x).isNumber y = y.eq x := rfl

theorem isNumber_one {n : Nat} (h : n ≤ 2 ^ 53) :
    (Value.number (Binary64.ofNat n)).isNumber 1 = true ↔ n = 1 := by
  rw [isNumber_number, Binary64.one_is.eq_iff (Binary64.is_ofNat h)]
  omega

theorem Binary64.ofNat_zero : Binary64.ofNat 0 = Binary64.zero := by decide +kernel

theorem isNumber_ofNat {k n : Nat} (hk : k < 2 ^ 53) (h : k < n) :
    (Value.number (Binary64.ofNat n)).isNumber (Binary64.ofNat k) = false := by
  obtain ⟨-, -, hrank⟩ := Binary64.lt_iff.mp (Binary64.ofNat_lt_ofNat hk h)
  rw [isNumber_number, ← Bool.not_eq_true, Binary64.eq_iff]
  rintro ⟨-, -, heq⟩
  omega

theorem isNumber_length (items : List α) :
    (Value.number (Binary64.ofNat items.length)).isNumber .zero = items.isEmpty := by
  cases items with
  | nil =>
    show (Value.number (Binary64.ofNat 0)).isNumber .zero = true
    rw [Binary64.ofNat_zero]
    rfl
  | cons item rest =>
    rw [← Binary64.ofNat_zero]
    exact isNumber_ofNat (k := 0) (by decide) (Nat.succ_pos _)

-- ---------------------------------------------------------------------------
-- Signs
-- ---------------------------------------------------------------------------

namespace Numeral

def splitSign : List Char → Bool × List Char
  | '+' :: cs => (false, cs)
  | '-' :: cs => (true, cs)
  | cs => (false, cs)

section
variable {cs digits : List Char} {n : Int}

theorem splitSign_of_isDigit {c : Char} (h : c.isDigit = true) (rest : List Char) :
    splitSign (c :: rest) = (false, c :: rest) := by
  unfold splitSign
  split
  · rename_i heq
    cases heq
    exact absurd h (by decide)
  · rename_i heq
    cases heq
    exact absurd h (by decide)
  · rfl

theorem splitSign_append (h : cs ≠ []) (rest : List Char) :
    splitSign (cs ++ rest) = ((splitSign cs).1, (splitSign cs).2 ++ rest) := by
  obtain ⟨c, tail, rfl⟩ := List.exists_cons_of_ne_nil h
  by_cases hplus : c = '+'
  · subst hplus
    rfl
  · by_cases hminus : c = '-'
    · subst hminus
      rfl
    · simp [splitSign, hplus, hminus]

theorem signedDigits?_eq (cs : List Char) : signedDigits? cs =
    (signedDigits?.natural? (splitSign cs).2).map fun n => if (splitSign cs).1 then -n else n := by
  unfold signedDigits? splitSign
  split <;> simp

theorem natural?_eq_some_iff : signedDigits?.natural? digits = some n ↔
    (digits ≠ [] ∧ ∀ c ∈ digits, c.isDigit = true) ∧ n = value 10 digits := by
  unfold signedDigits?.natural?
  rw [← List.all_eq_true]
  split
  · rename_i hdigits
    rw [and_iff_right hdigits, Option.some_inj, eq_comm]
  · rename_i hdigits
    exact iff_of_false nofun fun h => hdigits h.1

theorem signedDigits?_eq_some_iff : signedDigits? cs = some n ↔
    ((splitSign cs).2 ≠ [] ∧ ∀ c ∈ (splitSign cs).2, c.isDigit = true) ∧
      n = if (splitSign cs).1 then -(value 10 (splitSign cs).2 : Int) else value 10 (splitSign cs).2 := by
  simp only [signedDigits?_eq, Option.map_eq_some_iff, natural?_eq_some_iff]
  constructor
  · rintro ⟨_, ⟨hdigits, rfl⟩, rfl⟩
    exact ⟨hdigits, rfl⟩
  · rintro ⟨hdigits, rfl⟩
    exact ⟨_, ⟨hdigits, rfl⟩, rfl⟩

theorem isSignedDigits_eq (cs : List Char) :
    Codec.isSignedDigits cs = (signedDigits? cs).isSome := by
  have hnatural (digits : List Char) : (signedDigits?.natural? digits).isSome =
      (!digits.isEmpty && digits.all Char.isDigit) := by
    unfold signedDigits?.natural?
    cases digits with
    | nil => rfl
    | cons c rest => cases hall : (c :: rest).all Char.isDigit <;> simp
  unfold Codec.isSignedDigits signedDigits?
  split <;> simp [hnatural]

theorem spanDigits_append {digits rest : List Char} (hdigits : ∀ c ∈ digits, c.isDigit = true)
    (hrest : ∀ c ∈ rest.head?, c.isDigit = false) : spanDigits (digits ++ rest) = (digits, rest) := by
  have htake : rest.takeWhile Char.isDigit = [] ∧ rest.dropWhile Char.isDigit = rest := by
    cases rest with
    | nil => exact ⟨rfl, rfl⟩
    | cons c tail => simp [hrest c rfl]
  unfold spanDigits
  rw [List.takeWhile_append_of_pos hdigits, List.dropWhile_append_of_pos hdigits, htake.1, htake.2,
    List.append_nil]

theorem readInteger_eq (text : String) : readInteger text =
    readInteger.leading (splitSign (Text.trimStart text.toList)).1
      (splitSign (Text.trimStart text.toList)).2 := by
  unfold readInteger splitSign
  split <;> simp [*]

theorem leading_append {negative : Bool} {rest : List Char}
    (hne : digits ≠ []) (hdigits : ∀ c ∈ digits, c.isDigit = true)
    (hrest : ∀ c ∈ rest.head?, c.isDigit = false) :
    readInteger.leading negative (digits ++ rest) =
      (Decimal.mk (value 10 digits) 0).toBinary64 negative := by
  have hspan := spanDigits_append hdigits hrest
  have htake : (digits ++ rest).takeWhile Char.isDigit = digits := (Prod.mk.inj hspan).1
  unfold readInteger.leading
  rw [htake]
  cases digits with
  | nil => exact absurd rfl hne
  | cons c rest => rfl

end

end Numeral

-- ---------------------------------------------------------------------------
-- Values that read as integers
-- ---------------------------------------------------------------------------

namespace Codec

theorem refuse_ne_ok {key : Value} {raw expected : String} {x : α} :
    (refuse key raw expected : Except Fault α) ≠ .ok x := by
  unfold refuse
  cases key.asText <;> exact nofun

theorem integer_of_asText {value : Value} {text : String} (h : value.asText = .ok text)
    (hnumber : ∀ x, value ≠ .number x) (key : Value) : integer key value =
      if isIntegerText text then .ok (Numeral.readInteger text) else refuse key text "integer" := by
  unfold integer
  split
  · exact absurd rfl (hnumber _)
  · rw [h]
    rfl

theorem float_of_asText {value : Value} {text : String} (h : value.asText = .ok text)
    (hnumber : ∀ x, value ≠ .number x) (key : Value) : float key value =
      if (Text.trim text.toList).isEmpty || !(Numeral.read text).isFinite then
        refuse key (String.ofList (Text.trim text.toList)) "float"
      else .ok (Numeral.read text) := by
  unfold float
  split
  · exact absurd rfl (hnumber _)
  · rw [h]
    rfl

/-- What reads as an integer: numbers that are one, and all else with the text of one. -/
theorem integer_eq_ok_iff {key value : Value} : integer key value = .ok x ↔
    value = .number x ∧ x.isInteger = true ∨
      (∀ y, value ≠ .number y) ∧ ∃ text, value.asText = .ok text ∧ isIntegerText text = true ∧
        Numeral.readInteger text = x := by
  unfold integer
  split
  · rename_i y
    split
    · rename_i hinteger
      constructor
      · rintro ⟨⟩
        exact .inl ⟨rfl, hinteger⟩
      · rintro (⟨⟨⟩, -⟩ | ⟨hnumber, -⟩)
        · rfl
        · exact absurd rfl (hnumber y)
    · rename_i hinteger
      refine iff_of_false refuse_ne_ok ?_
      rintro (⟨⟨⟩, h⟩ | ⟨hnumber, -⟩)
      · exact hinteger h
      · exact absurd rfl (hnumber y)
  · rename_i hnumber
    have hleft : ¬(value = .number x ∧ x.isInteger = true) := fun h => hnumber x h.1
    rw [or_iff_right hleft, and_iff_right hnumber]
    cases htext : value.asText with
    | error fault => exact iff_of_false nofun nofun
    | ok text =>
      show (if isIntegerText text = true then Except.ok (Numeral.readInteger text)
        else refuse key text "integer") = .ok x ↔ _
      split
      · rename_i hinteger
        simp [hinteger]
      · rename_i hinteger
        refine iff_of_false refuse_ne_ok ?_
        rintro ⟨_, ⟨⟩, h, -⟩
        exact hinteger h

end Codec

-- ---------------------------------------------------------------------------
-- Digits
-- ---------------------------------------------------------------------------

namespace Numeral

def ofNat (n : Nat) : String := String.ofList (Nat.toDigits 10 n)

theorem isDigit_of_mem (h : c ∈ Nat.toDigits 10 n) : c.isDigit = true :=
  Nat.isDigit_of_mem_toDigits (by decide) (by decide) h

theorem foldl_digitValue {digits : List Char} (h : ∀ c ∈ digits, c.isDigit = true) (start : Nat) :
    digits.foldl (fun total c => total * 10 + digitValue c) start =
      Nat.ofDigitChars 10 digits start := by
  induction digits generalizing start with
  | nil => rfl
  | cons c rest ih =>
    have hc : digitValue c = c.toNat - '0'.toNat := if_pos (h c List.mem_cons_self)
    rw [List.foldl_cons, hc, ih fun other hmem => h other (List.mem_cons_of_mem _ hmem),
      Nat.mul_comm]
    rfl

theorem value_toDigits (n : Nat) : value 10 (Nat.toDigits 10 n) = n := by
  unfold value
  rw [foldl_digitValue fun _ => isDigit_of_mem]
  exact Nat.ofDigitChars_ten_toDigits

theorem toBinary64_natural (n : Nat) : (Decimal.mk n 0).toBinary64 false = Binary64.ofNat n := by
  have hsign : decide ((n : Int) < 0) = false := by simp
  rw [Decimal.toBinary64_whole, Binary64.ofNat, Binary64.ofInt, hsign, Int.natAbs_natCast]

theorem intNumeral_natCast (n : Nat) : String.ofList (intNumeral n) = ofNat n := by
  unfold intNumeral
  rw [if_neg (by omega)]
  rfl

theorem natural?_toDigits (n : Nat) : signedDigits?.natural? (Nat.toDigits 10 n) = some (n : Int) := by
  have hall : (Nat.toDigits 10 n).all Char.isDigit = true :=
    List.all_eq_true.mpr fun _ => isDigit_of_mem
  rw [signedDigits?.natural?, if_pos ⟨Nat.toDigits_ne_nil, hall⟩, value_toDigits]

theorem splitSign_toDigits (n : Nat) :
    splitSign (Nat.toDigits 10 n) = (false, Nat.toDigits 10 n) := by
  obtain ⟨c, rest, hcons⟩ := List.exists_cons_of_ne_nil (Nat.toDigits_ne_nil (b := 10) (n := n))
  have hdigit : c.isDigit = true := isDigit_of_mem (n := n) (by rw [hcons]; exact List.mem_cons_self)
  rw [hcons, splitSign_of_isDigit hdigit]

theorem signedDigits?_ofNat (n : Nat) : signedDigits? (ofNat n).toList = some (n : Int) := by
  rw [ofNat, String.toList_ofList, signedDigits?_eq, splitSign_toDigits, natural?_toDigits]
  rfl

theorem not_isBlank_of_mem (h : c ∈ Nat.toDigits 10 n) : Text.isBlank c = false :=
  Text.not_isBlank_of_isDigit (isDigit_of_mem h)

theorem readInteger_ofNat (n : Nat) : readInteger (ofNat n) = Binary64.ofNat n := by
  have hleading : readInteger.leading false (Nat.toDigits 10 n ++ []) = _ :=
    leading_append Nat.toDigits_ne_nil (fun _ => isDigit_of_mem) nofun
  rw [List.append_nil, value_toDigits, toBinary64_natural] at hleading
  rw [readInteger_eq, ofNat, String.toList_ofList, Text.trimStart_eq_self fun _ => not_isBlank_of_mem,
    splitSign_toDigits, hleading]

theorem isIntegerText_ofNat (n : Nat) : Codec.isIntegerText (ofNat n) = true := by
  have hwritten := signedDigits?_ofNat n
  rw [ofNat, String.toList_ofList] at hwritten
  rw [Codec.isIntegerText, ofNat, String.toList_ofList, Text.trim_eq_self fun _ => not_isBlank_of_mem,
    isSignedDigits_eq, hwritten]
  rfl

theorem integer_numeral (key : Value) (n : Nat) :
    Codec.integer key (.text (ofNat n)) = .ok (Binary64.ofNat n) := by
  rw [Codec.integer_of_asText (Value.asText_text (ofNat n)) nofun, if_pos (isIntegerText_ofNat n),
    readInteger_ofNat]

/-- Digits without an exponent are an integer, however many there are, unless they are too many. -/
theorem isInteger_toBinary64 {negative : Bool} {n : Nat}
    (h : ((Decimal.mk n 0).toBinary64 negative).isFinite = true) :
    ((Decimal.mk n 0).toBinary64 negative).isInteger = true := by
  rw [Decimal.toBinary64_whole] at h ⊢
  exact Binary64.isInteger_whole.mpr (Binary64.isFinite_whole.mp h)

theorem isInteger_readInteger {text : String} (h : (readInteger text).isFinite = true) :
    (readInteger text).isInteger = true := by
  rw [readInteger_eq] at h ⊢
  unfold readInteger.leading at h ⊢
  split at h
  · cases h
  · exact isInteger_toBinary64 h

end Numeral

namespace Codec

theorem isInteger_of_integer {key value : Value} (h : integer key value = .ok x)
    (hfinite : x.isFinite = true) : x.isInteger = true := by
  rcases integer_eq_ok_iff.mp h with ⟨-, hinteger⟩ | ⟨-, text, -, -, rfl⟩
  · exact hinteger
  · exact Numeral.isInteger_readInteger hfinite

theorem integer_other {key value : Value} (h : integer key value = .ok x) (key' : Value) :
    integer key' value = .ok x :=
  integer_eq_ok_iff.mpr (integer_eq_ok_iff.mp h)

end Codec

end SlidingTally
