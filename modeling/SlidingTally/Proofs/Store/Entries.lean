import Mathlib.Data.List.Dedup
import Mathlib.Data.List.Forall2
import Mathlib.Data.List.Perm.Basic
import SlidingTally.Value.Key

/-!
# Tables that are filled

A table that is filled with distinct keys has them in the order in which they came, and one
that is filled with a key twice has it once. Main statements: `entriesOf_of_nodup`,
`entriesOf_texts` and `entriesOf_foundBy`. `foundBy` looks up many keys, for such a table.
-/

namespace SlidingTally

theorem Table.entries_insert_of_not_mem [DecidableEq κ] {t : Table κ α} (h : key ∉ t.keys)
    (value : α) : (t.insert key value).entries = t.entries ++ [(key, value)] := by
  unfold Table.insert
  rw [dif_neg h]

theorem foldl_insert_entries (given : List (Key × Value))
    (t : Table Key.Identity (Value × Value))
    (h : (t.keys ++ given.map fun entry => entry.1.identity).Nodup) :
    (given.foldl (fun t entry => t.insert entry.1.identity (entry.1.inTable, entry.2)) t).entries =
      t.entries ++ given.map fun entry => (entry.1.identity, entry.1.inTable, entry.2) := by
  induction given generalizing t with
  | nil => simp
  | cons entry rest ih =>
    rw [List.map_cons, List.nodup_append] at h
    have hnew : entry.1.identity ∉ t.keys := fun hmem => h.2.2 _ hmem _ List.mem_cons_self rfl
    have hentries := Table.entries_insert_of_not_mem hnew (entry.1.inTable, entry.2)
    have hkeys : (t.insert entry.1.identity (entry.1.inTable, entry.2)).keys =
        t.keys ++ [entry.1.identity] := by rw [Table.keys_insert, if_neg hnew]
    rw [List.foldl_cons, ih, hentries]
    · simp
    · rw [hkeys, List.append_assoc]
      exact List.nodup_append.mpr h

theorem entriesOf_of_nodup {given : List (Key × Value)}
    (h : (given.map fun entry => entry.1.identity).Nodup) :
    Value.entriesOf given = given.map fun entry => (entry.1.inTable, entry.2) := by
  unfold Value.entriesOf
  dsimp only
  rw [foldl_insert_entries given .empty (by simpa [Table.keys, Table.empty] using h)]
  simp [Table.empty]

-- ---------------------------------------------------------------------------
-- Keys that are texts
-- ---------------------------------------------------------------------------

def SameEntry (entry : Key × Value) (found : String × Value) : Prop :=
  entry.1.value = .text found.1 ∧ entry.2 = found.2

theorem identity_of_value {key : Key} (h : key.value = .text text) : key.identity = .text text := by
  simp only [Key.identity, h]

theorem inTable_of_value {key : Key} (h : key.value = .text text) : key.inTable = .text text := by
  simp only [Key.inTable, h]

theorem entriesOf_texts {given : List (Key × Value)} {found : List (String × Value)}
    (h : List.Forall₂ SameEntry given found) (hnodup : (found.map Prod.fst).Nodup) :
    Value.entriesOf given = found.map fun entry => (.text entry.1, entry.2) := by
  have hidentity : (given.map fun entry => entry.1.identity) =
      (found.map Prod.fst).map Key.Identity.text := by
    clear hnodup
    induction h with
    | nil => rfl
    | cons hentry _ ih => simp only [List.map_cons, identity_of_value hentry.1, ih]
  rw [entriesOf_of_nodup]
  · clear hnodup hidentity
    induction h with
    | nil => rfl
    | cons hentry _ ih => simp only [List.map_cons, inTable_of_value hentry.1, hentry.2, ih]
  · rw [hidentity]
    exact hnodup.map fun _ _ heq => Key.Identity.text.inj heq

theorem sameEntry_zip_zipIdx (found : List (String × Value)) (start : Nat) :
    List.Forall₂ SameEntry
      ((((found.map fun entry => Value.text entry.1).zipIdx start).map fun (value, position) =>
        (⟨value, position⟩ : Key)).zip (found.map Prod.snd)) found := by
  induction found generalizing start with
  | nil => exact .nil
  | cons entry rest ih => exact .cons ⟨rfl, rfl⟩ (ih (start + 1))

theorem sameEntry_zip (found : List (String × Value)) :
    List.Forall₂ SameEntry
      ((Key.ofEach (found.map fun entry => .text entry.1)).zip (found.map Prod.snd)) found :=
  sameEntry_zip_zipIdx found 0

-- ---------------------------------------------------------------------------
-- The order of entries
-- ---------------------------------------------------------------------------

theorem Table.mem_iff_lookup {κ α : Type} [DecidableEq κ] {entries : List (κ × α)} {entry : κ × α}
    (h : (entries.map Prod.fst).Nodup) :
    entry ∈ entries ↔ entries.lookup entry.1 = some entry.2 := by
  induction entries with
  | nil => simp
  | cons first rest ih =>
    obtain ⟨key, value⟩ := first
    rw [List.map_cons, List.nodup_cons] at h
    rw [List.mem_cons, ih h.2, Table.lookup_cons]
    split
    · rename_i hkey
      rw [hkey, Table.lookup_eq_none_iff.mpr h.1, Option.some.injEq]
      simp [Prod.ext_iff, hkey, eq_comm]
    · rename_i hkey
      simp [Prod.ext_iff, hkey]

theorem Table.entries_perm [DecidableEq κ] {t t' : Table κ α} (h : ∀ key, t.get? key = t'.get? key) :
    t.entries.Perm t'.entries := by
  refine (List.perm_ext_iff_of_nodup t.distinct.of_map t'.distinct.of_map).mpr fun entry => ?_
  rw [Table.mem_iff_lookup t.distinct, Table.mem_iff_lookup t'.distinct]
  exact (h entry.1).congr_left

theorem get?_foldl_insert {value : Key.Identity → Value × Value} (given : List (Key × Value))
    (h : ∀ entry ∈ given, value entry.1.identity = (entry.1.inTable, entry.2))
    (t : Table Key.Identity (Value × Value)) (identity : Key.Identity) :
    (given.foldl (fun t entry => t.insert entry.1.identity (entry.1.inTable, entry.2)) t).get?
        identity =
      if identity ∈ given.map fun entry => entry.1.identity then some (value identity)
      else t.get? identity := by
  induction given generalizing t with
  | nil => rfl
  | cons entry rest ih =>
    rw [List.foldl_cons, ih fun other hmem => h other (List.mem_cons_of_mem _ hmem),
      Table.get?_insert, ← h entry List.mem_cons_self, List.map_cons]
    by_cases hrest : identity ∈ rest.map fun entry => entry.1.identity
    · rw [if_pos hrest, if_pos (List.mem_cons_of_mem _ hrest)]
    · rw [if_neg hrest]
      by_cases hfirst : identity = entry.1.identity
      · rw [if_pos hfirst, if_pos (hfirst ▸ List.mem_cons_self), hfirst]
      · rw [if_neg hfirst, if_neg (List.not_mem_cons_of_ne_of_not_mem hfirst hrest)]

theorem entriesOf_perm {value : Key.Identity → Value × Value} {given given' : List (Key × Value)}
    (h : ∀ entry ∈ given, value entry.1.identity = (entry.1.inTable, entry.2))
    (h' : ∀ entry ∈ given', value entry.1.identity = (entry.1.inTable, entry.2))
    (hkeys : ∀ identity, identity ∈ given.map (fun entry => entry.1.identity) ↔
      identity ∈ given'.map fun entry => entry.1.identity) :
    (Value.entriesOf given).Perm (Value.entriesOf given') := by
  refine (Table.entries_perm fun identity => ?_).map Prod.snd
  rw [get?_foldl_insert given h, get?_foldl_insert given' h', if_congr (hkeys identity) rfl rfl]

-- ---------------------------------------------------------------------------
-- Looking up many keys
-- ---------------------------------------------------------------------------

def foundBy (look : String → Option Value) (keys : List String) : List (String × Value) :=
  keys.filterMap fun key => (look key).map fun value => (key, value)

theorem foundBy_cons_none {look : String → Option Value} (h : look key = none)
    (rest : List String) : foundBy look (key :: rest) = foundBy look rest := by
  simp [foundBy, h]

theorem foundBy_cons_some {look : String → Option Value} (h : look key = some value)
    (rest : List String) : foundBy look (key :: rest) = (key, value) :: foundBy look rest := by
  simp [foundBy, h]

theorem foundBy_sublist (look : String → Option Value) (keys : List String) :
    ((foundBy look keys).map Prod.fst).Sublist keys := by
  induction keys with
  | nil => exact .slnil
  | cons key rest ih =>
    cases h : look key with
    | none => exact foundBy_cons_none h rest ▸ ih.cons key
    | some value => exact foundBy_cons_some h rest ▸ ih.cons_cons key

theorem mem_foundBy {look : String → Option Value} :
    entry ∈ foundBy look keys ↔ entry.1 ∈ keys ∧ look entry.1 = some entry.2 := by
  obtain ⟨key, value⟩ := entry
  simp only [foundBy, List.mem_filterMap, Option.map_eq_some_iff, Prod.mk.injEq]
  constructor
  · rintro ⟨other, hmem, found, hlook, rfl, rfl⟩
    exact ⟨hmem, hlook⟩
  · rintro ⟨hmem, hlook⟩
    exact ⟨key, hmem, value, hlook, rfl, rfl⟩

theorem filter_getD {look : String → Option Value}
    (h : ∀ key value, look key = some value → value.isNull = false) (keys : List String) :
    ((keys.map fun key => (key, (look key).getD .null)).filter fun entry => !entry.2.isNull) =
      foundBy look keys := by
  induction keys with
  | nil => rfl
  | cons key rest ih =>
    rw [List.map_cons, List.filter_cons, ih]
    cases hlook : look key with
    | none => simp [foundBy, hlook, Value.isNull]
    | some value => simp [foundBy, hlook, h key value hlook]

def entryOf (look : String → Option Value) : Key.Identity → Value × Value
  | .text key => (.text key, (look key).getD .null)
  | _ => (.null, .null)

theorem entriesOf_foundBy (look : String → Option Value) (keys : List String) :
    (Value.entriesOf ((foundBy look keys).map fun entry => (Key.text entry.1, entry.2))).Perm
      ((foundBy look keys.dedup).map fun entry => (.text entry.1, entry.2)) := by
  have hvalue (keys : List String) :
      ∀ entry ∈ (foundBy look keys).map fun entry => (Key.text entry.1, entry.2),
        entryOf look entry.1.identity = (entry.1.inTable, entry.2) := by
    intro entry hmem
    obtain ⟨found, hfound, rfl⟩ := List.mem_map.mp hmem
    simp only [Key.identity_text, entryOf, (mem_foundBy.mp hfound).2, Option.getD_some]
    rfl
  have hsame : List.Forall₂ SameEntry
      ((foundBy look keys.dedup).map fun entry => (Key.text entry.1, entry.2))
      (foundBy look keys.dedup) := by
    rw [List.forall₂_map_left_iff, List.forall₂_same]
    exact fun entry _ => ⟨rfl, rfl⟩
  rw [← entriesOf_texts hsame ((foundBy_sublist look keys.dedup).nodup keys.nodup_dedup)]
  refine entriesOf_perm (hvalue keys) (hvalue keys.dedup) fun identity => ?_
  simp only [List.map_map, List.mem_map, mem_foundBy, List.mem_dedup]

end SlidingTally
