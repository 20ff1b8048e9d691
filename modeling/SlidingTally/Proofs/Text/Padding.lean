import Mathlib.Data.List.TakeWhile
import SlidingTally.Text.Blank

/-!
# Padded texts and joined pieces

A text with blanks around it is trimmed to the same as without them, and every text is what it is
trimmed to with blanks around it. The pieces between separators are the only ones without a separator
that the text is joined from. Main statements: `Padded.trim`, `padded_trim` and `fields_eq_iff`.
-/

namespace SlidingTally.Text

variable {cs core : List Char}

-- ---------------------------------------------------------------------------
-- Blanks around a text
-- ---------------------------------------------------------------------------

def Blank (cs : List Char) : Prop := ∀ c ∈ cs, isBlank c = true

instance : DecidablePred Blank := List.decidableBAll (isBlank · = true)

def Padded (core cs : List Char) : Prop :=
  ∃ before after, Blank before ∧ Blank after ∧ cs = before ++ (core ++ after)

theorem Padded.refl (cs : List Char) : Padded cs cs :=
  ⟨[], [], nofun, nofun, by rw [List.append_nil, List.nil_append]⟩

theorem isDigit_of_isBlank {c : Char} (h : isBlank c = true) : c.isDigit = false := by
  rw [← Bool.not_eq_true]
  intro hdigit
  rw [not_isBlank_of_isDigit hdigit] at h
  cases h

theorem trimStart_eq_self (h : ∀ c ∈ cs, isBlank c = false) : trimStart cs = cs := by
  cases cs with
  | nil => rfl
  | cons c rest => exact trimStart_cons_of_not_blank (h c List.mem_cons_self)

theorem trim_eq_self (h : ∀ c ∈ cs, isBlank c = false) : trim cs = cs := by
  have hreverse : trimStart cs.reverse = cs.reverse :=
    trimStart_eq_self fun c hmem => h c (List.mem_reverse.mp hmem)
  unfold trim trimEnd
  rw [trimStart_eq_self h]
  unfold trimStart at hreverse
  rw [hreverse, List.reverse_reverse]

theorem trimStart_eq_append (cs : List Char) :
    ∃ blanks, Blank blanks ∧ trimStart cs = trim cs ++ blanks := by
  refine ⟨((trimStart cs).reverse.takeWhile isBlank).reverse, ?_, ?_⟩
  · intro c hmem
    exact List.mem_takeWhile_imp (List.mem_reverse.mp hmem)
  · rw [trim, trimEnd, ← List.reverse_append, List.takeWhile_append_dropWhile, List.reverse_reverse]

theorem padded_trim (cs : List Char) : Padded (trim cs) cs := by
  obtain ⟨after, hafter, hstart⟩ := trimStart_eq_append cs
  refine ⟨cs.takeWhile isBlank, after, fun c hmem => List.mem_takeWhile_imp hmem, hafter, ?_⟩
  rw [← hstart]
  exact List.takeWhile_append_dropWhile.symm

theorem Blank.trim (h : Blank cs) : trim cs = [] := by
  have hstart : trimStart cs = [] := List.dropWhile_eq_nil_iff.mpr h
  rw [Text.trim, hstart]
  rfl

theorem blank_iff : Blank cs ↔ trim cs = [] := by
  refine ⟨Blank.trim, fun h => ?_⟩
  obtain ⟨before, after, hbefore, hafter, hcs⟩ := padded_trim cs
  rw [h, List.nil_append] at hcs
  rw [hcs]
  exact List.forall_mem_append.mpr ⟨hbefore, hafter⟩

theorem trim_append_blank (hblank : Blank after) (cs : List Char) : trim (cs ++ after) = trim cs := by
  have hend (kept : List Char) : trimEnd (kept ++ after) = trimEnd kept := by
    have hreverse : ∀ c ∈ after.reverse, isBlank c = true :=
      fun c hmem => hblank c (List.mem_reverse.mp hmem)
    rw [trimEnd, List.reverse_append, List.dropWhile_append_of_pos hreverse, trimEnd]
  unfold trim trimStart
  rw [List.dropWhile_append]
  split
  · rename_i hempty
    rw [List.isEmpty_iff.mp hempty, List.dropWhile_eq_nil_iff.mpr hblank]
  · exact hend _

theorem Padded.trim (h : Padded core cs) : trim cs = trim core := by
  obtain ⟨before, after, hbefore, hafter, rfl⟩ := h
  have hstart : trimStart (before ++ (core ++ after)) = trimStart (core ++ after) :=
    List.dropWhile_append_of_pos hbefore
  rw [← trim_append_blank hafter core, Text.trim, hstart, Text.trim]

theorem Blank.not_mem {c : Char} (h : Blank cs) (hc : isBlank c = false) : c ∉ cs := by
  intro hmem
  rw [h c hmem] at hc
  cases hc

theorem Padded.not_mem {c : Char} (h : Padded core cs) (hc : isBlank c = false) (hcore : c ∉ core) :
    c ∉ cs := by
  obtain ⟨before, after, hbefore, hafter, rfl⟩ := h
  rw [List.mem_append, List.mem_append, not_or, not_or]
  exact ⟨hbefore.not_mem hc, hcore, hafter.not_mem hc⟩

theorem Padded.trim_eq (h : Padded core cs) (hcore : ∀ c ∈ core, isBlank c = false) :
    Text.trim cs = core := by
  rw [h.trim, trim_eq_self hcore]

-- ---------------------------------------------------------------------------
-- Pieces between separators
-- ---------------------------------------------------------------------------

section
variable {separator : Char} {pieces : List (List Char)}

theorem fields_eq_splitOn (separator : Char) (cs : List Char) :
    fields separator cs = cs.splitOn separator := by
  induction cs with
  | nil => simp [fields]
  | cons c rest ih =>
    rw [List.splitOn_cons_eq_if_modifyHead, fields, ih]
    by_cases h : c = separator
    · simp [h]
    · have hne := List.splitOn_ne_nil separator rest
      obtain ⟨piece, others, hcons⟩ := List.exists_cons_of_ne_nil hne
      simp [h, hcons]

theorem not_mem_of_mem_fields (h : piece ∈ fields separator cs) : separator ∉ piece := by
  induction cs generalizing piece with
  | nil =>
    rw [List.mem_singleton.mp h]
    exact List.not_mem_nil
  | cons c rest ih =>
    rw [fields] at h
    obtain ⟨first, others, hcons⟩ := List.exists_cons_of_ne_nil (fields_ne_nil separator rest)
    rw [hcons] at h ih
    split at h
    · rcases List.mem_cons.mp h with rfl | h
      · exact List.not_mem_nil
      · exact ih h
    · rename_i hc
      rcases List.mem_cons.mp h with rfl | h
      · exact List.not_mem_cons_of_ne_of_not_mem (Ne.symm hc) (ih List.mem_cons_self)
      · exact ih (List.mem_cons_of_mem _ h)

theorem fields_eq_iff : fields separator cs = pieces ↔
    pieces ≠ [] ∧ (∀ piece ∈ pieces, separator ∉ piece) ∧ cs = [separator].intercalate pieces := by
  constructor
  · rintro rfl
    refine ⟨fields_ne_nil _ _, fun piece => not_mem_of_mem_fields, ?_⟩
    rw [fields_eq_splitOn, List.intercalate_splitOn]
  · rintro ⟨hne, hpieces, rfl⟩
    rw [fields_eq_splitOn, List.splitOn_intercalate _ hpieces hne]

end

end SlidingTally.Text
