import SlidingTally.Text.Utf8

/-!
# UTF-8 read back

The octets of a text in UTF-8 are read as the text. The bounds that a first octet sets for the second
one let through what an encoded character has there, whichever of its three forms the octet has.
Main statement: `decode_octets`.
-/

namespace SlidingTally.Utf8

def octets (text : String) : List UInt8 := text.toUTF8.data.toList

theorem octets_eq (text : String) : octets text = text.toList.flatMap String.utf8EncodeChar := by
  rw [octets, String.toUTF8_eq_toByteArray, ← String.utf8Encode_toList, List.utf8Encode,
    List.data_toByteArray]

-- ---------------------------------------------------------------------------
-- First octets
-- ---------------------------------------------------------------------------

theorem lead_two {v : Nat} (hge : 0x80 ≤ v) (hle : v ≤ 0x7FF) :
    lead (v / 64 + 0xC0) = .partly ⟨v / 64, 1, 0x80, 0xBF⟩ := by
  unfold lead
  rw [if_neg (by omega), if_pos (by omega), Nat.add_sub_cancel]

theorem lead_three {v : Nat} (hge : 0x800 ≤ v) (hle : v ≤ 0xFFFF) (hvalid : v.isValidChar) :
    ∃ least greatest, lead (v / 4096 + 0xE0) = .partly ⟨v / 4096, 2, least, greatest⟩ ∧
      least ≤ v / 64 % 64 + 0x80 ∧ v / 64 % 64 + 0x80 ≤ greatest := by
  unfold lead
  rw [if_neg (by omega), if_neg (by omega)]
  split
  · -- An overlong form would have less here.
    have hbits : v / 4096 = 0 := by omega
    exact ⟨_, _, by rw [hbits], by omega, by omega⟩
  · split
    · -- Surrogates would have more.
      have hbits : v / 4096 = 0xD := by omega
      exact ⟨_, _, by rw [hbits], by omega, by omega⟩
    · rw [if_pos (by omega), Nat.add_sub_cancel]
      exact ⟨_, _, rfl, by omega, by omega⟩

theorem lead_four {v : Nat} (hge : 0x10000 ≤ v) (hvalid : v.isValidChar) :
    ∃ least greatest, lead (v / 262144 + 0xF0) = .partly ⟨v / 262144, 3, least, greatest⟩ ∧
      least ≤ v / 4096 % 64 + 0x80 ∧ v / 4096 % 64 + 0x80 ≤ greatest := by
  unfold lead
  rw [if_neg (by omega), if_neg (by omega), if_neg (by omega), if_neg (by omega), if_neg (by omega)]
  split
  · have hbits : v / 262144 = 0 := by omega
    exact ⟨_, _, by rw [hbits], by omega, by omega⟩
  · split
    · rw [Nat.add_sub_cancel]
      exact ⟨_, _, rfl, by omega, by omega⟩
    · have hbits : v / 262144 = 4 := by omega
      rw [if_pos (by omega)]
      exact ⟨_, _, by rw [hbits], by omega, by omega⟩

-- ---------------------------------------------------------------------------
-- Octets of one character
-- ---------------------------------------------------------------------------

section
variable {n bits owed least greatest : Nat} (rest : List UInt8)

theorem decodeFrom_first {pending : Pending} (hn : n < 256) (h : lead n = .partly pending) :
    decodeFrom none (UInt8.ofNat n :: rest) = decodeFrom (some pending) rest := by
  have hoctet : (UInt8.ofNat n).toNat = n := Nat.mod_eq_of_lt hn
  simp only [decodeFrom, begin, hoctet, h]

theorem decodeFrom_last (hn : n < 64) (hge : least ≤ n + 0x80) (hle : n + 0x80 ≤ greatest) :
    decodeFrom (some ⟨bits, 1, least, greatest⟩) (UInt8.ofNat (n + 0x80) :: rest) =
      Char.ofNat (bits * 64 + n) :: decodeFrom none rest := by
  have hoctet : (UInt8.ofNat (n + 0x80)).toNat = n + 0x80 := Nat.mod_eq_of_lt (by omega)
  rw [decodeFrom, hoctet, if_pos ⟨hge, hle⟩, Nat.add_sub_cancel]
  rfl

theorem decodeFrom_next (hn : n < 64) (hge : least ≤ n + 0x80) (hle : n + 0x80 ≤ greatest) :
    decodeFrom (some ⟨bits, owed + 2, least, greatest⟩) (UInt8.ofNat (n + 0x80) :: rest) =
      decodeFrom (some ⟨bits * 64 + n, owed + 1, 0x80, 0xBF⟩) rest := by
  have hoctet : (UInt8.ofNat (n + 0x80)).toNat = n + 0x80 := Nat.mod_eq_of_lt (by omega)
  rw [decodeFrom, hoctet, if_pos ⟨hge, hle⟩, Nat.add_sub_cancel]
  exact if_neg (by simp)

end

theorem decodeFrom_character (c : Char) (rest : List UInt8) :
    decodeFrom none (String.utf8EncodeChar c ++ rest) = c :: decodeFrom none rest := by
  have hvalid : c.toNat.isValidChar := c.valid
  have hback : Char.ofNat c.toNat = c := Char.ofNat_toNat c
  have hval : c.val.toNat = c.toNat := rfl
  unfold String.utf8EncodeChar
  rw [hval]
  generalize c.toNat = v at *
  subst hback
  dsimp only
  split
  · have hoctet : (UInt8.ofNat v).toNat = v := Nat.mod_eq_of_lt (by omega)
    rw [List.singleton_append, decodeFrom_cons_ascii (by omega), hoctet]
  split
  · have hfirst : v / 64 % 32 = v / 64 := by omega
    have hv : v / 64 * 64 + v % 64 = v := by omega
    have hlead := lead_two (v := v) (by omega) (by omega)
    rw [hfirst, List.cons_append, List.singleton_append, decodeFrom_first _ (by omega) hlead,
      decodeFrom_last _ (by omega) (by omega) (by omega), hv]
  split
  · have hfirst : v / 4096 % 16 = v / 4096 := by omega
    have hv : (v / 4096 * 64 + v / 64 % 64) * 64 + v % 64 = v := by omega
    obtain ⟨least, greatest, hlead, hge, hle⟩ := lead_three (v := v) (by omega) (by omega) hvalid
    rw [hfirst, List.cons_append, List.cons_append, List.singleton_append,
      decodeFrom_first _ (by omega) hlead, decodeFrom_next _ (by omega) hge hle,
      decodeFrom_last _ (by omega) (by omega) (by omega), hv]
  · have hfirst : v / 262144 % 8 = v / 262144 := by omega
    have hv : ((v / 262144 * 64 + v / 4096 % 64) * 64 + v / 64 % 64) * 64 + v % 64 = v := by omega
    obtain ⟨least, greatest, hlead, hge, hle⟩ := lead_four (v := v) (by omega) hvalid
    rw [hfirst, List.cons_append, List.cons_append, List.cons_append, List.singleton_append,
      decodeFrom_first _ (by omega) hlead, decodeFrom_next _ (by omega) hge hle,
      decodeFrom_next _ (by omega) (by omega) (by omega),
      decodeFrom_last _ (by omega) (by omega) (by omega), hv]

theorem decode_octets (text : String) : decode (octets text) = text := by
  have hall (cs : List Char) : decodeFrom none (cs.flatMap String.utf8EncodeChar) = cs := by
    induction cs with
    | nil => rfl
    | cons c rest ih => rw [List.flatMap_cons, decodeFrom_character, ih]
  rw [decode, octets_eq, hall, String.ofList_toList]

end SlidingTally.Utf8
