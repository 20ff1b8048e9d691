import SlidingTally.Proofs.Number.Digits
import SlidingTally.Proofs.Number.Shortest

/-!
# Doubles read back

The text of a finite double reads back as the double, whichever of the four layouts it has. So doubles
with the same text are equal. Main statements: `layout_parts`, `readTrimmed_of_decimal?`, `read_text`
and `text_inj`.
-/

namespace SlidingTally

namespace Numeral

-- ---------------------------------------------------------------------------
-- Parts of a numeral
-- ---------------------------------------------------------------------------

theorem value_eq {digits : List Char} (h : ∀ c ∈ digits, c.isDigit = true) :
    value 10 digits = Nat.ofDigitChars 10 digits 0 :=
  foldl_digitValue h 0

theorem isDigit_of_mem_zeros {n : Nat} (h : c ∈ List.replicate n '0') : c.isDigit = true := by
  rw [List.eq_of_mem_replicate h]
  decide

theorem value_append_zeros {digits : List Char} (h : ∀ c ∈ digits, c.isDigit = true) (n : Nat) :
    value 10 (digits ++ List.replicate n '0') = value 10 digits * 10 ^ n := by
  have hzeros : ∀ c ∈ digits ++ List.replicate n '0', c.isDigit = true := by
    intro c hmem
    rcases List.mem_append.mp hmem with hmem | hmem
    · exact h c hmem
    · exact isDigit_of_mem_zeros hmem
  rw [value_eq hzeros, value_eq h, Nat.ofDigitChars_append, Nat.ofDigitChars_replicate_zero,
    Nat.mul_comm]

theorem value_zeros_append (n : Nat) (digits : List Char) :
    value 10 (List.replicate n '0' ++ digits) = value 10 digits := by
  induction n with
  | zero => rfl
  | succ n ih => exact ih

/-- What a decimal numeral is put together from: digits before the point, perhaps a point and digits
behind it, and perhaps an exponent. -/
structure Parts (whole fraction point rest : List Char) (exponent : Int) : Prop where
  whole_ne_nil : whole ≠ []
  digits : ∀ c ∈ whole ++ fraction, c.isDigit = true
  point : point = [] ∧ fraction = [] ∨ point = '.' :: fraction
  rest : rest = [] ∧ exponent = 0 ∨
    rest = 'e' :: (if exponent < 0 then '-' else '+') :: Nat.toDigits 10 exponent.natAbs

section
variable {whole fraction point rest : List Char} {exponent : Int}

theorem Parts.exponent? (h : Parts whole fraction point rest exponent) :
    exponent? rest = some exponent := by
  rcases h.rest with ⟨rfl, rfl⟩ | rfl
  · rfl
  · rw [Numeral.exponent?, if_pos (.inl rfl)]
    by_cases hneg : exponent < 0
    · rw [if_pos hneg, signedDigits?, natural?_toDigits, Option.map_some]
      congr 1
      omega
    · rw [if_neg hneg, signedDigits?, natural?_toDigits]
      congr 1
      omega

theorem Parts.decimal? (h : Parts whole fraction point rest exponent) :
    decimal? (whole ++ (point ++ rest)) =
      some ⟨value 10 (whole ++ fraction), exponent - fraction.length⟩ := by
  have hwhole : ∀ c ∈ whole, c.isDigit = true :=
    fun c hmem => h.digits c (List.mem_append_left _ hmem)
  have hfraction : ∀ c ∈ fraction, c.isDigit = true :=
    fun c hmem => h.digits c (List.mem_append_right _ hmem)
  have hrest : ∀ c ∈ rest.head?, c.isDigit = false := by
    rcases h.rest with ⟨rfl, -⟩ | rfl <;> simp
  unfold Numeral.decimal?
  rcases h.point with ⟨rfl, rfl⟩ | rfl
  · rw [List.nil_append, spanDigits_append hwhole hrest]
    have hexponent := h.exponent?
    rcases h.rest with ⟨rfl, -⟩ | rfl <;> simp [h.whole_ne_nil, hexponent]
  · rw [List.cons_append, spanDigits_append hwhole (by simp)]
    simp only [spanDigits_append hfraction hrest]
    simp [h.whole_ne_nil, h.exponent?]

def IsPlain (c : Char) : Prop := c.isDigit = true ∨ c ∈ ['.', 'e', '+', '-']

instance (c : Char) : Decidable (IsPlain c) := inferInstanceAs (Decidable (_ ∨ _))

theorem not_isBlank_of_isPlain {c : Char} (h : IsPlain c) : Text.isBlank c = false := by
  rcases h with hdigit | hmark
  · exact Text.not_isBlank_of_isDigit hdigit
  · simp only [List.mem_cons, List.not_mem_nil, or_false] at hmark
    rcases hmark with rfl | rfl | rfl | rfl <;> decide

theorem Parts.isPlain (h : Parts whole fraction point rest exponent)
    {c : Char} (hmem : c ∈ whole ++ (point ++ rest)) : IsPlain c := by
  rcases List.mem_append.mp hmem with hmem | hmem
  · exact .inl (h.digits c (List.mem_append_left _ hmem))
  · rcases List.mem_append.mp hmem with hmem | hmem
    · rcases h.point with ⟨rfl, -⟩ | rfl
      · cases hmem
      · rcases List.mem_cons.mp hmem with rfl | hmem
        · exact .inr (by decide)
        · exact .inl (h.digits c (List.mem_append_right _ hmem))
    · rcases h.rest with ⟨rfl, -⟩ | rfl
      · cases hmem
      · rcases List.mem_cons.mp hmem with rfl | hmem
        · exact .inr (by decide)
        · rcases List.mem_cons.mp hmem with rfl | hmem
          · right
            split <;> decide
          · exact .inl (isDigit_of_mem hmem)

end

end Numeral

namespace Decimal

open Numeral

theorem layout_parts (d : Decimal) : ∃ whole fraction point rest exponent,
    Parts whole fraction point rest exponent ∧ d.layout = whole ++ (point ++ rest) ∧
      ∀ negative, toBinary64 negative
        ⟨value 10 (whole ++ fraction), exponent - fraction.length⟩ = d.toBinary64 negative := by
  obtain ⟨coefficient, e⟩ := d
  have hdigits : ∀ c ∈ Nat.toDigits 10 coefficient, c.isDigit = true := fun _ => isDigit_of_mem
  have hpos : 0 < (Nat.toDigits 10 coefficient).length := Nat.length_toDigits_pos
  have hvalue := value_toDigits coefficient
  unfold layout
  dsimp only
  generalize Nat.toDigits 10 coefficient = digits at *
  have hne : digits ≠ [] := List.ne_nil_of_length_pos hpos
  split
  · -- An integer with all its digits.
    refine ⟨digits ++ List.replicate e.toNat '0', [], [], [], 0,
      ⟨by simp [hne], ?_, .inl ⟨rfl, rfl⟩, .inl ⟨rfl, rfl⟩⟩, by simp, fun negative => ?_⟩
    · intro c hmem
      rw [List.append_nil] at hmem
      rcases List.mem_append.mp hmem with hmem | hmem
      · exact hdigits c hmem
      · exact isDigit_of_mem_zeros hmem
    · rw [List.append_nil, value_append_zeros hdigits, hvalue, toBinary64_mul_pow]
      congr 2
      simp only [List.length_nil]
      omega
  · split
    · -- A point among the digits.
      refine ⟨digits.take (digits.length + e).toNat, digits.drop (digits.length + e).toNat, _, [], 0,
        ⟨?_, ?_, .inr rfl, .inl ⟨rfl, rfl⟩⟩, by simp, fun negative => ?_⟩
      · refine List.ne_nil_of_length_pos ?_
        rw [List.length_take]
        omega
      · rwa [List.take_append_drop]
      · rw [List.take_append_drop, hvalue, List.length_drop]
        congr 2
        omega
    · split
      · -- Zeros behind the point.
        refine ⟨['0'], List.replicate (-(digits.length + e)).toNat '0' ++ digits, _, [], 0,
          ⟨by simp, ?_, .inr rfl, .inl ⟨rfl, rfl⟩⟩, by simp, fun negative => ?_⟩
        · intro c hmem
          rw [← List.append_assoc] at hmem
          rcases List.mem_append.mp hmem with hmem | hmem
          · exact isDigit_of_mem_zeros (n := (-(digits.length + e)).toNat + 1) hmem
          · exact hdigits c hmem
        · have hzeros := value_zeros_append ((-(digits.length + e)).toNat + 1) digits
          rw [List.replicate_succ, List.cons_append, hvalue] at hzeros
          rw [List.singleton_append, hzeros, List.length_append, List.length_replicate]
          congr 2
          omega
      · -- An exponent.
        refine ⟨digits.take 1, digits.drop 1, if digits.length = 1 then [] else '.' :: digits.drop 1,
          _, digits.length + e - 1, ⟨?_, ?_, ?_, .inr rfl⟩, by simp, fun negative => ?_⟩
        · refine List.ne_nil_of_length_pos ?_
          rw [List.length_take]
          omega
        · rwa [List.take_append_drop]
        · split
          · exact .inl ⟨rfl, List.drop_eq_nil_of_le (by omega)⟩
          · exact .inr rfl
        · rw [List.take_append_drop, hvalue, List.length_drop]
          congr 2
          omega

end Decimal

-- ---------------------------------------------------------------------------
-- Bases
-- ---------------------------------------------------------------------------

namespace Numeral

def based? : List Char → Option (Nat × List Char)
  | '0' :: 'x' :: digits => some (16, digits)
  | '0' :: 'X' :: digits => some (16, digits)
  | '0' :: 'o' :: digits => some (8, digits)
  | '0' :: 'O' :: digits => some (8, digits)
  | '0' :: 'b' :: digits => some (2, digits)
  | '0' :: 'B' :: digits => some (2, digits)
  | _ => none

section
variable {cs : List Char}

theorem readTrimmed_of_based? (h : based? cs = some (base, digits)) :
    readTrimmed cs = inBase base digits := by
  unfold based? at h
  split at h <;> cases h <;> rfl

theorem readTrimmed_of_not_based (hne : cs ≠ []) (h : based? cs = none) :
    readTrimmed cs = unsigned (splitSign cs).1 (splitSign cs).2 := by
  unfold readTrimmed splitSign
  split <;> simp_all [based?]

/-- The letter of a base stands nowhere in a decimal numeral. -/
theorem decimal?_of_based? (h : based? cs = some (base, digits)) :
    decimal? (splitSign cs).2 = none := by
  unfold based? at h
  split at h <;> simp [splitSign, decimal?, spanDigits, exponent?] at h ⊢

theorem unsigned_of_decimal? {negative : Bool} (h : decimal? cs = some d) :
    unsigned negative cs = d.toBinary64 negative := by
  have hword : cs ≠ "Infinity".toList := by
    rintro rfl
    cases h
  rw [unsigned, if_neg hword, h]

theorem readTrimmed_of_decimal? (h : decimal? (splitSign cs).2 = some d) :
    readTrimmed cs = d.toBinary64 (splitSign cs).1 := by
  have hne : cs ≠ [] := by
    rintro rfl
    cases h
  cases hbased : based? cs with
  | none => rw [readTrimmed_of_not_based hne hbased, unsigned_of_decimal? h]
  | some found =>
    rw [decimal?_of_based? hbased] at h
    cases h

end

-- ---------------------------------------------------------------------------
-- Texts of doubles
-- ---------------------------------------------------------------------------

theorem splitSign_signed (negative : Bool) (d : Decimal) :
    splitSign (Binary64.chars.signed negative d.layout) = (negative, d.layout) := by
  obtain ⟨whole, fraction, point, rest, exponent, hparts, hlayout, -⟩ := d.layout_parts
  obtain ⟨c, tail, rfl⟩ := List.exists_cons_of_ne_nil hparts.whole_ne_nil
  cases negative with
  | true => rfl
  | false =>
    show splitSign d.layout = (false, d.layout)
    rw [hlayout]
    exact splitSign_of_isDigit (hparts.digits c List.mem_cons_self) _

theorem readTrimmed_signed (negative : Bool) (d : Decimal) :
    readTrimmed (Binary64.chars.signed negative d.layout) = d.toBinary64 negative := by
  obtain ⟨whole, fraction, point, rest, exponent, hparts, hlayout, hvalue⟩ := d.layout_parts
  have hread := hparts.decimal?
  have hsplit := splitSign_signed negative d
  rw [hlayout] at hsplit ⊢
  rw [readTrimmed_of_decimal? (by rw [hsplit]; exact hread), hsplit, hvalue]

end Numeral

namespace Binary64

theorem layout_natural {n : Nat} (h : n < 10 ^ 20) : Decimal.layout ⟨n, 0⟩ = Nat.toDigits 10 n := by
  have hlength : (Nat.toDigits 10 n).length ≤ 20 :=
    (Nat.length_toDigits_le_iff (by decide) (by decide)).mpr h
  unfold Decimal.layout Decimal.positionalPlaces
  dsimp only
  rw [if_pos (by omega)]
  exact List.append_nil _

theorem toBinary64_natural_is {n : Nat} (h : n < 2 ^ 53) (negative : Bool) :
    ((Decimal.mk n 0).toBinary64 negative).Is (if negative then -n else n) := by
  have hnatural : ((Decimal.mk n 0).toBinary64 false).Is n := by
    rw [Numeral.toBinary64_natural]
    exact is_ofNat (Nat.le_of_lt h)
  cases negative with
  | false => exact hnatural
  | true =>
    rw [Decimal.toBinary64_true]
    exact hnatural.neg

theorem chars_eq_signed {x : Binary64} (hx : x.isFinite = true) : ∃ negative decimal,
    x.chars = chars.signed negative (Decimal.layout decimal) ∧
      (decimal.toBinary64 negative).eq x = true := by
  have hshortest (negative : Bool) (magnitude : Magnitude) :
      ((Decimal.shortest magnitude).toBinary64 negative).eq (.finite negative magnitude) = true := by
    rw [Decimal.toBinary64_shortest, eq_iff_units rfl rfl]
  obtain ⟨negative, magnitude, rfl⟩ := (within_units hx).cases
  unfold chars
  dsimp only
  split
  · rename_i k htoInt
    split
    · rename_i hsafe
      have hbound : k.natAbs < 2 ^ 53 := Nat.lt_of_le_of_lt hsafe (by decide)
      obtain ⟨l, his⟩ := exists_is (x := finite negative magnitude) (by rw [isInteger, htoInt]; rfl)
      obtain rfl : l = k := by simpa [his.toInt?] using htoInt
      have hnatural := toBinary64_natural_is hbound (decide (l < 0))
      refine ⟨decide (l < 0), ⟨l.natAbs, 0⟩, ?_, ?_⟩
      · rw [layout_natural (by omega), intNumeral, chars.signed]
        simp only [decide_eq_true_eq]
      · rw [hnatural.eq_iff his]
        by_cases hneg : l < 0
        · simp only [hneg, decide_true, reduceIte]
          omega
        · simp only [hneg, decide_false, Bool.false_eq_true, reduceIte]
          omega
    · exact ⟨negative, _, rfl, hshortest negative magnitude⟩
  · exact ⟨negative, _, rfl, hshortest negative magnitude⟩

theorem isPlain_of_mem_chars {x : Binary64} (hx : x.isFinite = true) {c : Char} (h : c ∈ x.chars) :
    Numeral.IsPlain c := by
  obtain ⟨negative, d, hchars, -⟩ := chars_eq_signed hx
  obtain ⟨whole, fraction, point, rest, exponent, hparts, hlayout, -⟩ := d.layout_parts
  rw [hchars, chars.signed, hlayout] at h
  split at h
  · rcases List.mem_cons.mp h with rfl | h
    · decide
    · exact hparts.isPlain h
  · exact hparts.isPlain h

/-- The text of a finite double reads back as the double; of a negative zero as zero. -/
theorem read_text {x : Binary64} (hx : x.isFinite = true) : (Numeral.read x.text).eq x = true := by
  have htrim : Text.trim x.chars = x.chars :=
    Text.trim_eq_self fun c hmem => Numeral.not_isBlank_of_isPlain (isPlain_of_mem_chars hx hmem)
  obtain ⟨negative, d, hchars, heq⟩ := chars_eq_signed hx
  rw [Numeral.read, text, String.toList_ofList, htrim, hchars, Numeral.readTrimmed_signed]
  exact heq

theorem text_inj {x y : Binary64} (hx : x.isFinite = true) (hy : y.isFinite = true)
    (h : x.text = y.text) : x.eq y = true := by
  obtain ⟨hread, -, hranks⟩ := eq_iff.mp (read_text hx)
  obtain ⟨-, -, hranks'⟩ := eq_iff.mp (read_text hy)
  rw [h] at hranks
  exact eq_iff.mpr ⟨isNaN_of_isFinite hx, isNaN_of_isFinite hy, hranks.symm.trans hranks'⟩

theorem colon_not_mem_text {x : Binary64} (hx : x.isFinite = true) : ':' ∉ x.text.toList := by
  rw [text, String.toList_ofList]
  exact fun hmem => absurd (isPlain_of_mem_chars hx hmem) (by decide)

end Binary64

end SlidingTally
