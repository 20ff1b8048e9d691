/-!
# Tables

A `Table` maps keys to values and remembers the order in which the keys first came. Main
statements: `get?_insert`, `get?_erase` and `get?_filter` say what each operation does to
the look-up, which is all that most readers of a table need; `keys_insert` gives the order.
-/

namespace SlidingTally

/-- Keys with their values in order of arrival; no key comes twice. -/
structure Table (κ α : Type) where
  entries : List (κ × α)
  distinct : (entries.map Prod.fst).Nodup

namespace Table

variable {κ α : Type}

def empty : Table κ α := ⟨[], by simp⟩

instance : Inhabited (Table κ α) := ⟨empty⟩

def keys (t : Table κ α) : List κ := t.entries.map Prod.fst

def size (t : Table κ α) : Nat := t.entries.length

variable [DecidableEq κ]

def get? (t : Table κ α) (key : κ) : Option α := t.entries.lookup key

-- ---------------------------------------------------------------------------
-- Look-up in a list of pairs
-- ---------------------------------------------------------------------------

theorem lookup_cons (k key : κ) (value : α) (rest : List (κ × α)) :
    ((k, value) :: rest).lookup key = if key = k then some value else rest.lookup key := by
  by_cases h : key = k
  · simp [h]
  · have : (key == k) = false := by simpa using h
    rw [List.lookup_cons, this, if_neg h]

theorem lookup_eq_none_iff {entries : List (κ × α)} {key : κ} :
    entries.lookup key = none ↔ key ∉ entries.map Prod.fst := by
  induction entries with
  | nil => simp
  | cons entry rest ih =>
    obtain ⟨k, v⟩ := entry
    rw [lookup_cons, List.map_cons, List.mem_cons, not_or]
    split
    · simp_all
    · simp_all

def replace (entries : List (κ × α)) (key : κ) (value : α) : List (κ × α) :=
  entries.map fun entry => if entry.1 = key then (entry.1, value) else entry

theorem map_fst_replace (entries : List (κ × α)) (key : κ) (value : α) :
    (replace entries key value).map Prod.fst = entries.map Prod.fst := by
  simp only [replace, List.map_map]
  apply List.map_congr_left
  intro entry _
  simp only [Function.comp]
  split <;> rfl

theorem lookup_replace (entries : List (κ × α)) (key other : κ) (value : α) :
    (replace entries key value).lookup other =
      if other = key then (entries.lookup key).map fun _ => value else entries.lookup other := by
  induction entries with
  | nil => simp [replace]
  | cons entry rest ih =>
    obtain ⟨k, v⟩ := entry
    simp only [replace] at ih
    simp only [replace, List.map_cons]
    by_cases hk : k = key
    · subst hk
      simp only [reduceIte, lookup_cons, ih]
      split <;> simp_all
    · simp only [if_neg hk, lookup_cons, ih, if_neg (Ne.symm hk)]
      split
      · rename_i ho
        simp [ho, hk]
      · rfl

theorem lookup_append_singleton (entries : List (κ × α)) (key other : κ) (value : α)
    (h : key ∉ entries.map Prod.fst) :
    (entries ++ [(key, value)]).lookup other =
      if other = key then some value else entries.lookup other := by
  induction entries with
  | nil => simp [lookup_cons]
  | cons entry rest ih =>
    obtain ⟨k, v⟩ := entry
    simp only [List.map_cons, List.mem_cons, not_or] at h
    simp only [List.cons_append, lookup_cons, ih h.2]
    split
    · rename_i ho
      subst ho
      simp [Ne.symm h.1]
    · rfl

theorem lookup_filter_keys (entries : List (κ × α)) (keep : κ × α → Bool) (key : κ)
    (distinct : (entries.map Prod.fst).Nodup) :
    (entries.filter keep).lookup key =
      (entries.lookup key).filter fun value => keep (key, value) := by
  induction entries with
  | nil => rfl
  | cons entry rest ih =>
    obtain ⟨k, v⟩ := entry
    simp only [List.map_cons, List.nodup_cons] at distinct
    have hr := ih distinct.2
    by_cases hk : key = k
    · subst hk
      have hn : rest.lookup key = none := lookup_eq_none_iff.mpr distinct.1
      cases hv : keep (key, v) <;> simp [hv, hr, hn, Option.filter]
    · cases hv : keep (k, v) <;> simp [hv, lookup_cons, hk, hr]

-- ---------------------------------------------------------------------------
-- Operations
-- ---------------------------------------------------------------------------

/-- Stores a value. A present key keeps its place, a new one goes to the end. -/
def insert (t : Table κ α) (key : κ) (value : α) : Table κ α :=
  if h : key ∈ t.keys then
    ⟨replace t.entries key value, by rw [map_fst_replace]; exact t.distinct⟩
  else
    ⟨t.entries ++ [(key, value)], by
      rw [List.map_append]
      refine List.nodup_append.mpr ⟨t.distinct, by simp, ?_⟩
      intro a ha b hb
      simp at hb
      subst hb
      exact fun e => h (e ▸ ha)⟩

omit [DecidableEq κ] in
theorem nodup_filter (t : Table κ α) (keep : κ × α → Bool) :
    ((t.entries.filter keep).map Prod.fst).Nodup :=
  t.distinct.sublist (List.Sublist.map _ List.filter_sublist)

def filter (t : Table κ α) (keep : κ × α → Bool) : Table κ α :=
  ⟨t.entries.filter keep, nodup_filter t keep⟩

def erase (t : Table κ α) (key : κ) : Table κ α := t.filter fun entry => entry.1 ≠ key

@[simp] theorem get?_empty (key : κ) : (empty : Table κ α).get? key = none := rfl

theorem get?_eq_none_iff {t : Table κ α} {key : κ} : t.get? key = none ↔ key ∉ t.keys :=
  lookup_eq_none_iff

theorem get?_insert (t : Table κ α) (key other : κ) (value : α) :
    (t.insert key value).get? other = if other = key then some value else t.get? other := by
  unfold insert get?
  split
  · rename_i h
    rw [lookup_replace]
    cases hl : t.entries.lookup key with
    | none => exact absurd h (lookup_eq_none_iff.mp hl)
    | some v => rfl
  · exact lookup_append_singleton _ _ _ _ ‹_›

theorem get?_filter (t : Table κ α) (keep : κ × α → Bool) (key : κ) :
    (t.filter keep).get? key = (t.get? key).filter fun value => keep (key, value) :=
  lookup_filter_keys _ _ _ t.distinct

theorem get?_erase (t : Table κ α) (key other : κ) :
    (t.erase key).get? other = if other = key then none else t.get? other := by
  unfold erase
  rw [get?_filter]
  by_cases h : other = key
  · cases t.get? other <;> simp [h, Option.filter]
  · cases t.get? other <;> simp [h, Option.filter]

theorem keys_insert (t : Table κ α) (key : κ) (value : α) :
    (t.insert key value).keys = if key ∈ t.keys then t.keys else t.keys ++ [key] := by
  unfold insert
  split
  · exact map_fst_replace _ _ _
  · simp [keys]

end Table

end SlidingTally
