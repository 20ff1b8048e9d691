import SlidingTally.Proofs.Number.IntegerTexts
import SlidingTally.Proofs.Text.Encoding

/-!
# How integers are spelled

A text spells an integer if it is at most one sign and decimal digits, with blanks around them. The
reader of integers takes just these texts, for the integer that they spell as long as doubles count
without gaps, so that it reads back what was written of a number, in any representation. Main
statements: `spells_iff` and `integer_iff_spelled`.
-/

namespace SlidingTally

-- ---------------------------------------------------------------------------
-- The grammar
-- ---------------------------------------------------------------------------

namespace Numeral

def AllDigits (digits : List Char) : Prop := digits ≠ [] ∧ ∀ c ∈ digits, c.isDigit = true

def denoted (digits : List Char) : Nat := Nat.ofDigitChars 10 digits 0

/-- At most one sign and digits, with the integer that they denote. -/
inductive Spells : List Char → Int → Prop where
  | unsigned (h : AllDigits digits) : Spells digits (denoted digits)
  | plus (h : AllDigits digits) : Spells ('+' :: digits) (denoted digits)
  | minus (h : AllDigits digits) : Spells ('-' :: digits) (-denoted digits)

def SpelledIn (text : String) (n : Int) : Prop :=
  ∃ core, Text.Padded core text.toList ∧ Spells core n

section
variable {cs digits : List Char} {text : String} {n k : Int}

theorem allDigits_toDigits (n : Nat) : AllDigits (Nat.toDigits 10 n) :=
  ⟨Nat.toDigits_ne_nil, fun _ => isDigit_of_mem⟩

theorem denoted_toDigits (n : Nat) : denoted (Nat.toDigits 10 n) = n := Nat.ofDigitChars_ten_toDigits

theorem AllDigits.isDigit_head (h : AllDigits digits) :
    ∃ c rest, digits = c :: rest ∧ c.isDigit = true := by
  obtain ⟨c, rest, rfl⟩ := List.exists_cons_of_ne_nil h.1
  exact ⟨c, rest, rfl, h.2 c List.mem_cons_self⟩

theorem AllDigits.splitSign (h : AllDigits digits) : splitSign digits = (false, digits) := by
  obtain ⟨c, rest, rfl, hc⟩ := h.isDigit_head
  exact splitSign_of_isDigit hc rest

theorem splitSign_cases (cs : List Char) :
    cs = '+' :: (splitSign cs).2 ∧ (splitSign cs).1 = false ∨
      cs = '-' :: (splitSign cs).2 ∧ (splitSign cs).1 = true ∨ splitSign cs = (false, cs) := by
  unfold splitSign
  split <;> simp

theorem spells_iff : Spells cs n ↔ signedDigits? cs = some n := by
  rw [signedDigits?_eq_some_iff]
  constructor
  · intro h
    cases h with
    | unsigned h => exact ⟨by rwa [h.splitSign], by rw [h.splitSign, value_eq h.2]; rfl⟩
    | plus h => exact ⟨h, by rw [denoted, ← value_eq h.2]; rfl⟩
    | minus h => exact ⟨h, by rw [denoted, ← value_eq h.2]; rfl⟩
  · rintro ⟨hdigits, rfl⟩
    rw [value_eq hdigits.2]
    rcases splitSign_cases cs with ⟨hcs, hsign⟩ | ⟨hcs, hsign⟩ | hsplit
    · rw [hsign]
      exact hcs ▸ .plus hdigits
    · rw [hsign]
      exact hcs ▸ .minus hdigits
    · rw [hsplit] at hdigits ⊢
      exact .unsigned hdigits

theorem Spells.not_isBlank (h : Spells cs n) : ∀ c ∈ cs, Text.isBlank c = false := by
  have hdigit {digits : List Char} (h : AllDigits digits) : ∀ c ∈ digits, Text.isBlank c = false :=
    fun c hmem => Text.not_isBlank_of_isDigit (h.2 c hmem)
  cases h with
  | unsigned h => exact hdigit h
  | plus h => exact List.forall_mem_cons.mpr ⟨by decide, hdigit h⟩
  | minus h => exact List.forall_mem_cons.mpr ⟨by decide, hdigit h⟩

theorem spelledIn_iff : SpelledIn text n ↔ signedDigits? (Text.trim text.toList) = some n := by
  rw [← spells_iff]
  constructor
  · rintro ⟨core, hpadded, hspells⟩
    rwa [hpadded.trim_eq hspells.not_isBlank]
  · exact fun h => ⟨_, Text.padded_trim _, h⟩

theorem AllDigits.spelledIn (h : AllDigits digits) :
    SpelledIn (String.ofList digits) (denoted digits) := by
  refine ⟨digits, ?_, .unsigned h⟩
  rw [String.toList_ofList]
  exact .refl digits

theorem spelledIn_unique (h : SpelledIn text n) (h' : SpelledIn text k) : n = k :=
  Option.some.inj ((spelledIn_iff.mp h).symm.trans (spelledIn_iff.mp h'))

theorem spells_intNumeral (n : Int) : Spells (intNumeral n) n := by
  unfold intNumeral
  split
  · have hminus := Spells.minus (allDigits_toDigits n.natAbs)
    rwa [denoted_toDigits, ← Int.eq_neg_natAbs_of_nonpos (by omega)] at hminus
  · have hplain := Spells.unsigned (allDigits_toDigits n.natAbs)
    rwa [denoted_toDigits, Int.natAbs_of_nonneg (by omega)] at hplain

-- ---------------------------------------------------------------------------
-- The number that is read
-- ---------------------------------------------------------------------------

/-- Below 2^53 the double nearest to what is spelled is the integer itself. -/
theorem read_is (h : SpelledIn text n) (hn : n.natAbs < 2 ^ 53) : (read text).Is n := by
  have hwritten := spelledIn_iff.mp h
  obtain ⟨-, hsigned⟩ := signedDigits?_eq_some_iff.mp hwritten
  rw [read, readTrimmed_of_signedDigits? hwritten, ← Decimal.toBinary64_whole]
  have his := Binary64.toBinary64_natural_is hn (splitSign (Text.trim text.toList)).1
  generalize (splitSign (Text.trim text.toList)).1 = negative at *
  cases negative with
  | false =>
    have hnonneg : (n.natAbs : Int) = n := by
      rw [hsigned]
      rfl
    rwa [if_neg Bool.false_ne_true, hnonneg] at his
  | true =>
    have hnonpos : -(n.natAbs : Int) = n := by
      rw [hsigned]
      simp
    rwa [if_pos rfl, hnonpos] at his

theorem le_natAbs_of_is (h : SpelledIn text n) (hk : (read text).Is k) (hn : 2 ^ 53 ≤ n.natAbs) :
    2 ^ 53 ≤ k.natAbs := by
  obtain ⟨hfinite, hunits⟩ := hk
  rw [read, readTrimmed_of_signedDigits? (spelledIn_iff.mp h)] at hfinite hunits
  rw [Binary64.units_ofRatio (Binary64.roundedUnits_lt hfinite)] at hunits
  have habs := congrArg Int.natAbs hunits
  rw [Binary64.natAbs_signed, Int.natAbs_mul, Int.natAbs_natCast] at habs
  obtain ⟨exponent, -, hone⟩ := Binary64.unitsPerOne_eq
  rw [hone] at habs
  -- 2^53 itself needs no rounding, so what is not below it is not rounded below it.
  have hle : 2 ^ 53 * 2 ^ exponent ≤ Magnitude.roundedUnits (n.natAbs * 2 ^ exponent) 1 := by
    refine Magnitude.le_roundedUnits Nat.one_pos (significant_mul_pow (Nat.le_refl _)) ?_
    rw [Nat.mul_one]
    exact Nat.mul_le_mul_right _ hn
  rw [habs] at hle
  exact Nat.le_of_mul_le_mul_right hle (Nat.two_pow_pos _)

theorem eq_of_is (h : SpelledIn text n) (hk : (read text).Is k) (hsmall : k.natAbs < 2 ^ 53) :
    n = k := by
  refine (read_is h (Nat.lt_of_not_le fun hn => ?_)).eq hk
  exact absurd (le_natAbs_of_is h hk hn) (Nat.not_le_of_lt hsmall)

theorem read_padded (h : Text.Padded (intNumeral n) text.toList) : read text = .ofInt n := by
  have hspells := spells_intNumeral n
  have hwritten := spelledIn_iff.mp ⟨_, h, hspells⟩
  have hsign : (splitSign (intNumeral n)).1 = decide (n < 0) := by
    unfold intNumeral
    split
    · rename_i hneg
      exact (decide_eq_true hneg).symm
    · rename_i hnonneg
      rw [splitSign_toDigits]
      exact (decide_eq_false hnonneg).symm
  rw [read, readTrimmed_of_signedDigits? hwritten, h.trim_eq hspells.not_isBlank, hsign]
  rfl

end

end Numeral

-- ---------------------------------------------------------------------------
-- The reader of integers
-- ---------------------------------------------------------------------------

namespace Codec

open Numeral (SpelledIn)

section
variable {text : String} {n : Int}

theorem integer_spelled (key : Value) (h : SpelledIn text n) :
    integer key (.text text) = .ok (Numeral.read text) :=
  integer_of_written (Numeral.spelledIn_iff.mp h)

theorem integer_unspelled (name : String) (h : ∀ n, ¬SpelledIn text n) :
    integer (.text name) (.text text) = .error (.decode name text "integer") := by
  have hnone : Numeral.signedDigits? (Text.trim text.toList) = none :=
    Option.eq_none_iff_forall_ne_some.mpr fun n hn => h n (Numeral.spelledIn_iff.mpr hn)
  rw [integer_of_unwritten _ hnone, refuse_text]

theorem integer_octets (key : Value) (text : String) :
    integer key (.bytes (Utf8.octets text)) = integer key (.text text) := by
  have htext : (Value.bytes (Utf8.octets text)).asText = .ok (Utf8.decode (Utf8.octets text)) := rfl
  rw [Utf8.decode_octets] at htext
  rw [integer_of_asText htext nofun, integer_of_asText (Value.asText_text text) nofun]

end

/-- The reader of integers takes a text exactly if it spells an integer, which it returns as long as
doubles count without gaps; any other text it refuses under its key. So whatever blanks are put
around the text of such a number, the number is read back from the text and from its octets, as it is
from the number itself. -/
theorem integer_iff_spelled (name : String) :
    (∀ text, ((∃ x, integer (.text name) (.text text) = .ok x) ↔ ∃ n, SpelledIn text n) ∧
      (∀ n, SpelledIn text n → n.natAbs < 2 ^ 53 →
        ∃ x, integer (.text name) (.text text) = .ok x ∧ x.Is n) ∧
      ((∀ n, ¬SpelledIn text n) →
        integer (.text name) (.text text) = .error (.decode name text "integer"))) ∧
    ∀ (x : Binary64) (n : Int), x.Is n → n.natAbs < 2 ^ 53 →
      integer (.text name) (.number x) = .ok x ∧
      ∀ text : String, Text.Padded x.text.toList text.toList →
        integer (.text name) (.text text) = .ok (.ofInt n) ∧
        integer (.text name) (.bytes (Utf8.octets text)) = .ok (.ofInt n) := by
  refine ⟨fun text => ⟨⟨?_, ?_⟩, ?_, integer_unspelled name⟩, ?_⟩
  · rintro ⟨x, hx⟩
    by_contra hnone
    rw [integer_unspelled name (not_exists.mp hnone)] at hx
    cases hx
  · rintro ⟨n, hn⟩
    exact ⟨_, integer_spelled _ hn⟩
  · exact fun n hn hsmall => ⟨_, integer_spelled _ hn, Numeral.read_is hn hsmall⟩
  · intro x n hx hn
    refine ⟨integer_eq_ok_iff.mpr (.inl ⟨rfl, hx.isInteger⟩), fun text hpadded => ?_⟩
    rw [Binary64.text_of_is hx (Nat.le_of_lt_succ hn), String.toList_ofList] at hpadded
    have htext : integer (.text name) (.text text) = .ok (.ofInt n) := by
      rw [integer_spelled _ ⟨_, hpadded, Numeral.spells_intNumeral n⟩,
        Numeral.read_padded hpadded]
    exact ⟨htext, (integer_octets _ text).trans htext⟩

theorem integer_iff_spelled_spaces :
    (Binary64.ofInt (-12)).Is (-12) ∧ Text.Padded "-12".toList "\u2003-12\ufeff".toList ∧
      integer (.text "k") (.text "\u2003-12\ufeff") = .ok (.ofInt (-12)) ∧
      integer (.text "k") (.bytes (Utf8.octets "\u2003-12\ufeff")) = .ok (.ofInt (-12)) := by
  have his : (Binary64.ofInt (-12)).Is (-12) := Binary64.is_ofInt (by decide)
  have htext : (Binary64.ofInt (-12)).text = "-12" := by decide +kernel
  have hpadded : Text.Padded "-12".toList "\u2003-12\ufeff".toList :=
    ⟨['\u2003'], ['\ufeff'], by decide, by decide, by decide⟩
  have hread := ((integer_iff_spelled "k").2 _ _ his (by decide)).2 "\u2003-12\ufeff"
  rw [htext] at hread
  exact ⟨his, hpadded, hread hpadded⟩

end Codec

end SlidingTally
