import SlidingTally.Proofs.Service.DueLines
import SlidingTally.Proofs.Service.ReadOnly
import SlidingTally.Proofs.Service.WriteProtocol

/-!
# Failures in the log

A counter call that is not turned away writes an error line for a failed write and for a batched
read that failed, a debug line for each bucket that it leaves out, a warning when a bucket may be
left without its time to live, and nothing otherwise. It does so unless a call fails with what
cannot be worded. Main statement: `failures_reported`.
-/

namespace SlidingTally.Counter

open SlidingTally.Action (Triple)

-- ---------------------------------------------------------------------------
-- What there is to report
-- ---------------------------------------------------------------------------

/-- The bucket was gone when it was to get its time to live, or it could not be given one. -/
def Unrefreshed : Answer → Prop
  | (.touch _ _, .ok reply) => TouchResult.ofValue? reply = some .notFound
  | (.touch _ _, .error _) => True
  | (.set _ _ _, .error _) => True
  | _ => False

def batchFaults : Answer → List Fault
  | (.getMulti _, .error fault) => [fault]
  | _ => []

def Succeeds (answer : Answer) : Prop :=
  (∃ reply, answer.2 = .ok reply) ∧ skips answer = [] ∧ ¬Unrefreshed answer

/-- A call failed with what cannot be worded. Not all such failures count: a write that is tried
again does not, nor one after which nothing is observed. -/
def IsMute : Answer → Prop
  | (.touch _ _, .error fault) => fault.message? = none
  | (.set _ _ _, .error fault) => fault.message? = none
  | (.get _, .error fault) => fault.message? = none
  | (.getMulti _, .error fault) => fault.message? = none
  | _ => False

def linesAt (level : LogLevel) (own : List LogLine) : List LogLine :=
  own.filter fun line => line.level = level

/-- The own lines of a call are those that its answers and its status call for. -/
structure Reported (name bucket : String) (j : List Event) (own : List LogLine) : Prop where
  /-- A failed write is reported once, and no other error is. -/
  write : .metric (.increment .error) ∈ j →
    ∃ why, linesAt .error own = [⟨.error, .counter, s!"Increment failed for {bucket}: " ++ why⟩]
  /-- Without one there is an error for the batched read if that failed, and none otherwise. -/
  read : .metric (.increment .error) ∉ j → (linesAt .error own).map some =
    ((answers j).flatMap batchFaults).map (worded .error ("Multi-get failed for " ++ name ++ ": "))
  once : ((answers j).flatMap batchFaults).length ≤ 1
  /-- One debug line for each bucket that is left out. -/
  skipped : (linesAt .debug own).map some = ((answers j).flatMap skips).map skipLine
  warned : (∃ line ∈ own, line.level = .warn) ↔ ∃ answer ∈ answers j, Unrefreshed answer
  silent : .metric (.increment .error) ∉ j → (∀ answer ∈ answers j, Succeeds answer) → own = []

-- ---------------------------------------------------------------------------
-- Lines of a level
-- ---------------------------------------------------------------------------

def dueAt (level : LogLevel) (lines : List (Option LogLine)) : List (Option LogLine) :=
  lines.filter fun line => line.any (·.level = level)

@[simp] theorem dueAt_append (level : LogLevel) (lines more : List (Option LogLine)) :
    dueAt level (lines ++ more) = dueAt level lines ++ dueAt level more :=
  List.filter_append ..

theorem linesAt_map (level : LogLevel) (own : List LogLine) :
    (linesAt level own).map some = dueAt level (own.map some) := by
  unfold dueAt
  rw [List.filter_map]
  rfl

theorem dueAt_map {f : α → Option LogLine} (hf : ∀ a line, f a = some line → line.level = level')
    {items : List α} (hworded : none ∉ items.map f) (level : LogLevel) :
    dueAt level (items.map f) = if level' = level then items.map f else [] := by
  have hline : ∀ line ∈ items.map f, (line.any (·.level = level) = true ↔ level' = level) := by
    intro line hmem
    cases line with
    | none => exact absurd hmem hworded
    | some line =>
      obtain ⟨a, -, ha⟩ := List.mem_map.mp hmem
      simp [hf a line ha]
  split
  · rename_i hlevel
    exact List.filter_eq_self.mpr fun line hmem => (hline line hmem).mpr hlevel
  · rename_i hlevel
    exact List.filter_eq_nil_iff.mpr fun line hmem => fun h => hlevel ((hline line hmem).mp h)

theorem level_worded (h : worded level lead fault = some line) : line.level = level := by
  obtain ⟨text, -, rfl⟩ := Option.map_eq_some_iff.mp h
  rfl

theorem level_skipLine {skip : String × Fault} (h : skipLine skip = some line) : line.level = .debug :=
  level_worded h

-- ---------------------------------------------------------------------------
-- Reads
-- ---------------------------------------------------------------------------

section
variable {name bucket : String} {added : Bool} {answer : Answer} {reads : List Answer}

theorem dueFor_read (h : answer.1.isRead = true) : dueFor name bucket added answer =
    (batchFaults answer).map (worded .error ("Multi-get failed for " ++ name ++ ": ")) ++
      (skips answer).map skipLine := by
  obtain ⟨call, reply⟩ := answer
  cases call <;> cases reply <;> first | rfl | cases h

theorem dueAt_reads (hreads : ReadsOnly reads) (hworded : none ∉ due name bucket added reads) :
    dueAt .error (due name bucket added reads) =
        (reads.flatMap batchFaults).map (worded .error ("Multi-get failed for " ++ name ++ ": ")) ∧
      dueAt .debug (due name bucket added reads) = (reads.flatMap skips).map skipLine ∧
      dueAt .warn (due name bucket added reads) = [] := by
  induction reads generalizing added with
  | nil => exact ⟨rfl, rfl, rfl⟩
  | cons answer rest ih =>
    obtain ⟨hanswer, hrest⟩ := List.forall_mem_cons.mp hreads
    rw [due, dueFor_read hanswer] at hworded ⊢
    simp only [List.mem_append, not_or] at hworded
    obtain ⟨⟨hbatch, hskips⟩, hdue⟩ := hworded
    obtain ⟨herror, hdebug, hwarn⟩ := ih hrest hdue
    simp [herror, hdebug, hwarn, dueAt_map (fun _ _ => level_worded) hbatch,
      dueAt_map (fun _ _ => level_skipLine) hskips]

theorem skipLine_undecodable {entry : Value × Value} (h : undecodable? entry = some skip) :
    skipLine skip ≠ none := by
  unfold undecodable? at h
  split at h
  · rename_i key value
    split at h
    · cases h
    · rename_i fault hfault
      cases h
      simpa [skipLine, worded] using Codec.worded_integer _ _ fault hfault
  · cases h

theorem none_mem_dueFor (h : answer.1.isRead = true) :
    none ∈ dueFor name bucket added answer ↔ IsMute answer := by
  have hdecoding (entries : List (Value × Value)) :
      none ∉ (entries.filterMap undecodable?).map skipLine := by
    intro hmem
    obtain ⟨skip, hskip, hnone⟩ := List.mem_map.mp hmem
    obtain ⟨entry, -, hentry⟩ := List.mem_filterMap.mp hskip
    exact skipLine_undecodable hentry hnone
  obtain ⟨call, reply⟩ := answer
  rw [dueFor_read h]
  cases call with
  | get key =>
    cases reply with
    | ok value => simpa [batchFaults, IsMute, skips] using hdecoding _
    | error fault => simp [batchFaults, IsMute, skips, skipLine, worded]
  | getMulti keys =>
    cases reply with
    | ok found => simpa [batchFaults, IsMute, skips] using hdecoding _
    | error fault => simp [batchFaults, IsMute, skips, readings, worded]
  | isInitialized => simp [batchFaults, IsMute, skips, readings]
  | _ => cases h

theorem due_reads (hreads : ReadsOnly reads) :
    due name bucket added reads = reads.flatMap (dueFor name bucket false) := by
  induction reads generalizing added with
  | nil => rfl
  | cons answer rest ih =>
    obtain ⟨hanswer, hrest⟩ := List.forall_mem_cons.mp hreads
    rw [due, ih hrest, dueFor_read hanswer, List.flatMap_cons, dueFor_read hanswer]

theorem none_mem_due (hreads : ReadsOnly reads) :
    none ∈ due name bucket added reads ↔ ∃ answer ∈ reads, IsMute answer := by
  rw [due_reads hreads, List.mem_flatMap]
  exact exists_congr fun answer => and_congr_right fun hmem => none_mem_dueFor (hreads answer hmem)

/-- Apart from their order, the lines that are due for reads are those of batched reads and those
of buckets left out. -/
theorem due_perm (hreads : ReadsOnly reads) : (due name bucket added reads).Perm
    ((reads.flatMap batchFaults).map (worded .error ("Multi-get failed for " ++ name ++ ": ")) ++
      (reads.flatMap skips).map skipLine) := by
  induction reads generalizing added with
  | nil => exact .nil
  | cons answer rest ih =>
    obtain ⟨hanswer, hrest⟩ := List.forall_mem_cons.mp hreads
    rw [due, dueFor_read hanswer, List.flatMap_cons, List.flatMap_cons, List.map_append,
      List.map_append, List.append_assoc, List.append_assoc]
    refine .append_left _ ((List.Perm.append_left _ (ih hrest)).trans ?_)
    rw [← List.append_assoc, ← List.append_assoc]
    exact List.perm_append_comm.append_right _

theorem not_unrefreshed_of_isRead (h : answer.1.isRead = true) : ¬Unrefreshed answer := by
  obtain ⟨call, reply⟩ := answer
  cases call <;> cases reply <;> first | exact id | cases h

end

-- ---------------------------------------------------------------------------
-- Writing
-- ---------------------------------------------------------------------------

section
variable (name bucket : String)

/-- What a way of writing leaves to be written into the log: nothing, a warning, or that it failed. -/
inductive WriteLog (path : List Answer) : Bool → Prop
  | silent (hdue : due name bucket false path = []) (hrefreshed : ∀ answer ∈ path, ¬Unrefreshed answer) :
      WriteLog path false
  | warned (hdue : due name bucket false path = [line])
      (hlevel : ∀ own, line = some own → own.level = .warn)
      (hunrefreshed : ∃ answer ∈ path, Unrefreshed answer)
      (hmute : line = none ↔ ∃ answer ∈ path, IsMute answer) : WriteLog path false
  | failed (why : Option String)
      (hdue : due name bucket false path =
        [why.map fun why => ⟨.error, .counter, s!"Increment failed for {bucket}: " ++ why⟩])
      (hrefreshed : ∀ answer ∈ path, ¬Unrefreshed answer) : WriteLog path true

end

section
variable {name bucket : String} {path : List Answer} {ttl : Binary64}

theorem WriteLog.cons (hquiet : dueFor name bucket false answer = []) (hadds : adds answer = false)
    (hrefreshed : ¬Unrefreshed answer) (hspoken : ¬IsMute answer) (h : WriteLog name bucket path lost) :
    WriteLog name bucket (answer :: path) lost := by
  have hcons : due name bucket false (answer :: path) = due name bucket false path := by
    rw [due, hquiet, hadds]
    rfl
  cases h with
  | silent hdue hpath => exact .silent (hcons.trans hdue) (List.forall_mem_cons.mpr ⟨hrefreshed, hpath⟩)
  | warned hdue hlevel hunrefreshed hmute =>
    refine .warned (hcons.trans hdue) hlevel (List.exists_mem_cons_of_exists hunrefreshed) ?_
    rw [hmute, List.exists_mem_cons_iff, or_iff_right hspoken]
  | failed why hdue hpath =>
    exact .failed why (hcons.trans hdue) (List.forall_mem_cons.mpr ⟨hrefreshed, hpath⟩)

theorem ExpiryPath.log (h : ExpiryPath bucket ttl path) : WriteLog name bucket path false := by
  have hfault (call : StoreCall) (fault : Fault)
      (hdue : due name bucket false [(call, .error fault)] =
        [worded .warn s!"TTL refresh failed for {bucket}: " fault])
      (hunrefreshed : Unrefreshed (call, .error fault))
      (hmute : fault.message? = none ↔ IsMute (call, .error fault)) :
      WriteLog name bucket [(call, .error fault)] false := by
    refine .warned hdue (fun _ => level_worded) ⟨_, List.mem_cons_self, hunrefreshed⟩ ?_
    rw [worded, Option.map_eq_none_iff, hmute]
    simp
  cases h with
  | @touched answer hreply =>
    cases answer with
    | error fault => exact hfault _ fault rfl trivial .rfl
    | ok reply =>
      by_cases hfound : TouchResult.ofValue? reply = some .notFound
      · have hdue : due name bucket false [(.touch (.text bucket) (.number ttl), .ok reply)] =
            [some ⟨.warn, .counter, s!"Bucket {bucket} expired before its TTL was set"⟩] := by
          simp only [due, dueFor, if_pos hfound]
          rfl
        refine .warned hdue ?_ ⟨_, List.mem_cons_self, hfound⟩ (by simp [IsMute])
        rintro own ⟨⟩
        rfl
      · refine .silent ?_ (List.forall_mem_singleton.mpr hfound)
        simp only [due, dueFor, if_neg hfound]
        rfl
  | @rewritten reply hreply answer =>
    have hfound : TouchResult.ofValue? reply ≠ some .notFound := by simp [hreply]
    have hquiet : dueFor name bucket false (.touch (.text bucket) (.number ttl), .ok reply) = [] :=
      if_neg hfound
    refine .cons hquiet rfl hfound id ?_
    cases answer with
    | ok _ => exact .silent rfl (List.forall_mem_singleton.mpr id)
    | error fault => exact hfault _ fault rfl trivial .rfl

theorem CreatePath.log (h : CreatePath bucket ttl path written) :
    WriteLog name bucket path written.isNull := by
  cases h with
  | failed fault => exact .failed fault.message? rfl (List.forall_mem_singleton.mpr id)
  | created hadded => exact .silent rfl (List.forall_mem_singleton.mpr id)
  | lost hadded fault =>
    exact .failed fault.message? rfl (List.forall_mem_cons.mpr ⟨id, List.forall_mem_singleton.mpr id⟩)
  | overtaken hadded =>
    have hrefreshed (added : Value) : ∀ answer ∈ [(.addIfAbsent (.text bucket) (.number 1) (.number ttl),
        .ok added), (.increment (.text bucket), .ok written)], ¬Unrefreshed answer :=
      List.forall_mem_cons.mpr ⟨id, List.forall_mem_singleton.mpr id⟩
    cases hnull : written.isNull with
    | false =>
      refine .silent ?_ (hrefreshed _)
      simp [due, dueFor, adds, skips, readings, hnull]
    | true =>
      refine .failed (some "bucket vanished after losing the create race") ?_ (hrefreshed _)
      simp [due, dueFor, adds, skips, readings, hnull, String.append_assoc]
      rfl

theorem WritePath.log (h : WritePath bucket ttl path written) :
    WriteLog name bucket path written.isNull := by
  cases h with
  | counted hnull hone =>
    rw [hnull]
    exact .silent rfl (List.forall_mem_singleton.mpr id)
  | expiring hone hpath =>
    have hnull : written.isNull = false := by
      cases written with
      | null => cases hone
      | _ => rfl
    rw [hnull]
    exact .cons rfl rfl id id hpath.log
  | @failed fault hfault =>
    refine .failed fault.message? ?_ (List.forall_mem_singleton.mpr id)
    simp [due, dueFor, hfault]
    rfl
  | creating hreply hpath =>
    rcases hreply with rfl | ⟨fault, rfl, hfault⟩
    · exact .cons rfl rfl id id hpath.log
    · have hquiet : dueFor name bucket false (.increment (.text bucket), .error fault) = [] := by
        simp [dueFor, hfault]
      exact .cons hquiet rfl id id hpath.log

end

-- ---------------------------------------------------------------------------
-- Whole calls
-- ---------------------------------------------------------------------------

def Unread (before : List Answer) : Prop :=
  ∀ answer ∈ before, answer.1.isRead = false ∨ answer.1 = .isInitialized

section
variable {name bucket : String} {before reads : List Answer} {own : List LogLine} {j : List Event}

theorem Unread.flatMap_eq (h : Unread before) (reads : List Answer) :
    (before ++ reads).flatMap batchFaults = reads.flatMap batchFaults ∧
      (before ++ reads).flatMap skips = reads.flatMap skips := by
  have hnone : ∀ answer ∈ before, batchFaults answer = [] ∧ skips answer = [] := by
    rintro ⟨call, reply⟩ hmem
    rcases h _ hmem with hread | hcall
    · cases call <;> cases reply <;> first | exact ⟨rfl, rfl⟩ | cases hread
    · change call = .isInitialized at hcall
      subst hcall
      exact ⟨rfl, rfl⟩
  have hbatch : before.flatMap batchFaults = [] :=
    List.flatMap_eq_nil_iff.mpr fun answer hmem => (hnone answer hmem).1
  have hskips : before.flatMap skips = [] :=
    List.flatMap_eq_nil_iff.mpr fun answer hmem => (hnone answer hmem).2
  rw [List.flatMap_append, List.flatMap_append, hbatch, hskips]
  exact ⟨rfl, rfl⟩

theorem exists_unrefreshed (hreads : ReadsOnly reads) :
    (∃ answer ∈ before ++ reads, Unrefreshed answer) ↔ ∃ answer ∈ before, Unrefreshed answer := by
  constructor
  · rintro ⟨answer, hmem, h⟩
    rcases List.mem_append.mp hmem with hmem | hmem
    · exact ⟨answer, hmem, h⟩
    · exact absurd h (not_unrefreshed_of_isRead (hreads answer hmem))
  · rintro ⟨answer, hmem, h⟩
    exact ⟨answer, List.mem_append_left _ hmem, h⟩

theorem exists_warn : (∃ line ∈ own, line.level = .warn) ↔ dueAt .warn (own.map some) ≠ [] := by
  rw [← linesAt_map, Ne, List.map_eq_nil_iff, linesAt, List.filter_eq_nil_iff]
  simp

theorem Unread.unrefreshed (h : Unread before) (hmem : answer ∈ before) (hmute : IsMute answer) :
    Unrefreshed answer := by
  obtain ⟨call, reply⟩ := answer
  rcases h _ hmem with hread | hcall
  · cases call <;> cases reply <;> first | exact trivial | cases hmute | cases hread
  · change call = .isInitialized at hcall
    subst hcall
    cases hmute

theorem WriteLog.dueAt_eq (h : WriteLog name bucket before lost)
    (hworded : none ∉ due name bucket false before) :
    dueAt .debug (due name bucket false before) = [] ∧
      (dueAt .warn (due name bucket false before) ≠ [] ↔ ∃ answer ∈ before, Unrefreshed answer) ∧
      (lost = false → dueAt .error (due name bucket false before) = []) ∧
      (lost = true → ∃ why, due name bucket false before =
        [some ⟨.error, .counter, s!"Increment failed for {bucket}: " ++ why⟩]) := by
  cases h with
  | silent hdue hrefreshed =>
    rw [hdue]
    refine ⟨rfl, iff_of_false (· rfl) ?_, fun _ => rfl, nofun⟩
    rintro ⟨answer, hmem, hunrefreshed⟩
    exact hrefreshed answer hmem hunrefreshed
  | @warned line hdue hlevel hunrefreshed =>
    rw [hdue] at hworded ⊢
    cases line with
    | none => exact absurd (List.mem_singleton.mpr rfl) hworded
    | some line =>
      have hwarn := hlevel line rfl
      refine ⟨?_, iff_of_true ?_ hunrefreshed, fun _ => ?_, nofun⟩ <;> simp [dueAt, hwarn]
  | failed why hdue hrefreshed =>
    rw [hdue] at hworded ⊢
    cases why with
    | none => exact absurd (List.mem_singleton.mpr rfl) hworded
    | some why =>
      refine ⟨rfl, iff_of_false (by simp [dueAt]) ?_, nofun, fun _ => ⟨why, rfl⟩⟩
      rintro ⟨answer, hmem, hunrefreshed⟩
      exact hrefreshed answer hmem hunrefreshed

theorem WriteLog.due_eq_nil (h : WriteLog name bucket before false)
    (hrefreshed : ∀ answer ∈ before, ¬Unrefreshed answer) : due name bucket false before = [] := by
  cases h with
  | silent hdue _ => exact hdue
  | warned _ _ hunrefreshed _ =>
    obtain ⟨answer, hmem, hanswer⟩ := hunrefreshed
    exact absurd hanswer (hrefreshed answer hmem)

theorem WriteLog.none_mem_due (h : WriteLog name bucket before lost) (hbefore : Unread before)
    (hmem : answer ∈ before) (hmute : IsMute answer) : none ∈ due name bucket false before := by
  cases h with
  | silent _ hrefreshed => exact absurd (hbefore.unrefreshed hmem hmute) (hrefreshed answer hmem)
  | failed _ _ hrefreshed => exact absurd (hbefore.unrefreshed hmem hmute) (hrefreshed answer hmem)
  | warned hdue _ _ hmutes =>
    rw [hdue, hmutes.mpr ⟨answer, hmem, hmute⟩]
    exact List.mem_singleton.mpr rfl

theorem due_succeeding (hreads : ReadsOnly reads) (h : ∀ answer ∈ reads, Succeeds answer) :
    due name bucket added reads = [] := by
  have hbatch : reads.flatMap batchFaults = [] := by
    refine List.flatMap_eq_nil_iff.mpr fun answer hmem => ?_
    obtain ⟨⟨reply, hreply⟩, -⟩ := h answer hmem
    obtain ⟨call, other⟩ := answer
    change other = .ok reply at hreply
    subst hreply
    cases call <;> rfl
  have hskips : reads.flatMap skips = [] :=
    List.flatMap_eq_nil_iff.mpr fun answer hmem => (h answer hmem).2.1
  have hperm : (due name bucket added reads).Perm _ := due_perm hreads
  rw [hbatch, hskips] at hperm
  exact hperm.eq_nil

variable (hbefore : Unread before) (hreads : ReadsOnly reads) (hanswers : answers j = before ++ reads)

include hbefore hreads hanswers

omit hbefore in
theorem due_answers : due name bucket false (answers j) =
    due name bucket false before ++ due name bucket false reads := by
  rw [hanswers, due_append, due_reads hreads]
  exact congrArg _ (due_reads hreads).symm

theorem WriteLog.reported (h : WriteLog name bucket before lost)
    (hpaid : due name bucket false (answers j) = own.map some)
    (hstatus : .metric (.increment .error) ∈ j ↔ lost = true) (hstops : lost = true → reads = [])
    (honce : (reads.flatMap batchFaults).length ≤ 1) :
    Reported name bucket j own ∧ ¬∃ answer ∈ answers j, IsMute answer := by
  rw [due_answers hreads hanswers] at hpaid
  obtain ⟨hwritten, hread⟩ : none ∉ due name bucket false before ∧ none ∉ due name bucket false reads := by
    have hnone : none ∉ own.map some := by simp
    rw [← hpaid] at hnone
    simpa only [List.mem_append, not_or] using hnone
  obtain ⟨herror, hdebug, hwarn⟩ := dueAt_reads hreads hread
  obtain ⟨hbatch, hskips⟩ := hbefore.flatMap_eq reads
  obtain ⟨hnoDebug, hsomeWarn, hnoError, hfailure⟩ := h.dueAt_eq hwritten
  have hat (level : LogLevel) : (linesAt level own).map some =
      dueAt level (due name bucket false before) ++ dueAt level (due name bucket false reads) := by
    rw [linesAt_map, ← hpaid, dueAt_append]
  refine ⟨⟨fun hmem => ?_, fun hmem => ?_, ?_, ?_, ?_, fun hmem hsucceeds => ?_⟩, ?_⟩
  · have hlost := hstatus.mp hmem
    obtain ⟨why, hwhy⟩ := hfailure hlost
    have hlines := hat .error
    rw [hstops hlost, hwhy] at hlines
    obtain ⟨line, hline, hsome⟩ := List.map_eq_singleton_iff.mp hlines
    cases hsome
    exact ⟨why, hline⟩
  · rw [hat, hnoError (by simpa using hstatus.not.mp hmem), herror, hanswers, hbatch, List.nil_append]
  · rwa [hanswers, hbatch]
  · rw [hat, hnoDebug, hdebug, hanswers, hskips, List.nil_append]
  · rw [exists_warn, ← hpaid, dueAt_append, hwarn, List.append_nil, hsomeWarn, hanswers,
      exists_unrefreshed hreads]
  · have hkept : lost = false := by simpa using hstatus.not.mp hmem
    subst hkept
    rw [hanswers] at hsucceeds
    obtain ⟨hfirst, hlast⟩ := List.forall_mem_append.mp hsucceeds
    rw [h.due_eq_nil fun answer hmem => (hfirst answer hmem).2.2, due_succeeding hreads hlast] at hpaid
    exact List.map_eq_nil_iff.mp hpaid.symm
  · rintro ⟨answer, hmem, hmute⟩
    rw [hanswers] at hmem
    rcases List.mem_append.mp hmem with hmem | hmem
    · exact hwritten (h.none_mem_due hbefore hmem hmute)
    · exact hread ((Counter.none_mem_due hreads).mpr ⟨answer, hmem, hmute⟩)

theorem WriteLog.reported_iff_nil (h : WriteLog name bucket before lost)
    (hunpaid : due name bucket false before = own.map some ++ [none])
    (hquiet : due name bucket false reads = []) (hstatus : .metric (.increment .error) ∉ j) :
    Reported name bucket j own ↔ ¬∃ answer ∈ answers j, IsMute answer := by
  obtain ⟨hbatch, hskips⟩ := hbefore.flatMap_eq reads
  have hnothing : (due name bucket false reads).Perm _ := due_perm hreads
  rw [hquiet, List.nil_perm, List.append_eq_nil_iff, List.map_eq_nil_iff, List.map_eq_nil_iff]
    at hnothing
  rw [hnothing.1, ← hanswers] at hbatch
  rw [hnothing.2, ← hanswers] at hskips
  have hown (line : Option LogLine) (hdue : due name bucket false before = [line]) :
      own = [] ∧ line = none := by
    rw [hdue] at hunpaid
    cases own with
    | nil => exact ⟨rfl, (List.cons.inj hunpaid).1⟩
    | cons line rest => simp at hunpaid
  cases h with
  | silent hdue =>
    rw [hdue] at hunpaid
    simp at hunpaid
  | warned hdue _ hunrefreshed hmute =>
    obtain ⟨rfl, hline⟩ := hown _ hdue
    obtain ⟨answer, hmem, hanswer⟩ := hmute.mp hline
    refine iff_of_false (fun hreported => ?_) (not_not.mpr ⟨answer, ?_, hanswer⟩)
    · rw [← exists_unrefreshed hreads, ← hanswers, ← hreported.warned] at hunrefreshed
      simp at hunrefreshed
    · rw [hanswers]
      exact List.mem_append_left _ hmem
  | failed why hdue hrefreshed =>
    obtain ⟨rfl, -⟩ := hown _ hdue
    have hnone : ¬∃ answer ∈ answers j, Unrefreshed answer := by
      rw [hanswers, exists_unrefreshed hreads]
      rintro ⟨answer, hmem, hanswer⟩
      exact hrefreshed answer hmem hanswer
    refine iff_of_true ⟨fun hmem => absurd hmem hstatus, fun _ => ?_, ?_, ?_, ?_, fun _ _ => rfl⟩ ?_
    · rw [hbatch]
      rfl
    · rw [hbatch]
      exact Nat.zero_le 1
    · rw [hskips]
      rfl
    · exact iff_of_false (by simp) hnone
    · rintro ⟨answer, hmem, hmute⟩
      rw [hanswers] at hmem
      rcases List.mem_append.mp hmem with hmem | hmem
      · exact hrefreshed answer hmem (hbefore.unrefreshed hmem hmute)
      · have hline : none ∈ due name bucket false reads :=
          (Counter.none_mem_due hreads).mpr ⟨answer, hmem, hmute⟩
        rw [hquiet] at hline
        cases hline

theorem WriteLog.reported_iff (h : WriteLog name bucket before lost)
    (hunpaid : due name bucket false (answers j) = own.map some ++ [none])
    (hstatus : .metric (.increment .error) ∉ j) :
    Reported name bucket j own ↔ ¬∃ answer ∈ answers j, IsMute answer := by
  rw [due_answers hreads hanswers] at hunpaid
  by_cases hnone : none ∈ due name bucket false reads
  · obtain ⟨hbatch, hskips⟩ := hbefore.flatMap_eq reads
    obtain ⟨answer, hmem, hmute⟩ := (Counter.none_mem_due hreads).mp hnone
    refine iff_of_false (fun hreported => ?_) (not_not.mpr ⟨answer, ?_, hmute⟩)
    · rcases List.mem_append.mp ((due_perm hreads).mem_iff.mp hnone) with hline | hline
      · rw [← hbatch, ← hanswers, ← hreported.read hstatus] at hline
        simp at hline
      · rw [← hskips, ← hanswers, ← hreported.skipped] at hline
        simp at hline
    · rw [hanswers]
      exact List.mem_append_right _ hmem
  · -- It is the last line of all, so that a read which calls for one would call for this one.
    have hquiet : due name bucket false reads = [] := by
      rcases List.eq_nil_or_concat (due name bucket false reads) with hnil | ⟨lines, line, hlines⟩
      · exact hnil
      · rw [hlines, List.concat_eq_append, ← List.append_assoc] at hunpaid
        have hline := (List.append_inj' hunpaid rfl).2
        rw [hlines, List.concat_eq_append, hline] at hnone
        simp at hnone
    rw [hquiet, List.append_nil] at hunpaid
    exact h.reported_iff_nil hbefore hreads hanswers hunpaid hquiet hstatus

end

-- ---------------------------------------------------------------------------
-- The two operations
-- ---------------------------------------------------------------------------

section
variable {σ : Type} {w : Wiring σ} {name bucket : String} {window ttl : Binary64} {s s' : σ}
  {j : List Event}

theorem Owes.due_eq (h : Owes w name bucket s lines s' j) :
    due name bucket false (answers j) = (ownLines w s j).map some ++ lines := by
  obtain ⟨own, hscan, hdue⟩ := h
  rw [ownLines, hscan, hdue]

theorem WritePath.unread (h : WritePath bucket ttl path written) (reply : Except Fault Value) :
    Unread ((.isInitialized, reply) :: path) :=
  List.forall_mem_cons.mpr ⟨.inr rfl, fun _ hmem => .inl (h.isRead hmem)⟩

theorem WritePath.opened (h : WritePath bucket ttl path written) (initialized : Value) :
    WriteLog name bucket ((.isInitialized, .ok initialized) :: path) written.isNull :=
  .cons rfl rfl id id h.log

theorem ReadPath.once {read : WindowRead} (h : ReadPath buckets reads read) :
    (reads.flatMap batchFaults).length ≤ 1 := by
  cases h with
  | together entries => exact Nat.zero_le 1
  | refused hfault => exact Nat.le_refl 1
  | @apart fault gets hfault hgets =>
    have hnone : gets.flatMap batchFaults = [] := by
      refine List.flatMap_eq_nil_iff.mpr fun answer hmem => ?_
      have hcall := List.mem_map_of_mem (f := Prod.fst) hmem
      rw [hgets] at hcall
      obtain ⟨key, -, hkey⟩ := List.mem_map.mp hcall
      obtain ⟨call, reply⟩ := answer
      change _ = call at hkey
      subst hkey
      rfl
    rw [List.flatMap_cons, hnone]
    exact Nat.le_refl 1

theorem IncrementEnds.reported (h : IncrementEnds w name window ttl value j)
    (howes : Owes w name (currentBucket w.now name window) s [] s' j) :
    Reported name (currentBucket w.now name window) j (ownLines w s j) ∧
      ¬∃ answer ∈ answers j, IsMute answer := by
  have hpaid := howes.due_eq
  rw [List.append_nil] at hpaid
  cases h with
  | unwritten hanswers hwrite hmetrics =>
    refine (hwrite.opened _).reported (hwrite.unread _) (List.forall_mem_nil _)
      (by rw [hanswers, List.append_nil]) hpaid ?_ (fun _ => rfl) (Nat.zero_le 1)
    simp [← mem_metrics, hmetrics, Value.isNull]
  | written hanswers hwrite hnull hkeys hread hmetrics =>
    refine (hwrite.opened _).reported (hwrite.unread _) hread.readsOnly hanswers hpaid ?_ ?_
      hread.once
    · simp [← mem_metrics, hmetrics, hnull]
    · exact fun hlost => absurd (hnull.symm.trans hlost) Bool.false_ne_true

theorem IncrementHalts.reported (h : IncrementHalts w name window ttl halt j)
    (hunfinished : Unfinished j)
    (howes : Owes w name (currentBucket w.now name window) s (unwritten halt) s' j) :
    Reported name (currentBucket w.now name window) j (ownLines w s j) ↔
      ¬∃ answer ∈ answers j, IsMute answer := by
  have hunpaid := howes.due_eq
  have hstatus := not_mem_of_unfinished hunfinished .error
  cases h with
  | writing hanswers hwrite hends =>
    exact (hwrite.opened _).reported_iff (hwrite.unread _) (List.forall_mem_nil _)
      (by rw [hanswers, List.append_nil]) hunpaid hstatus
  | reading hanswers hwrite hnull hkeys hreads hends =>
    exact (hwrite.opened _).reported_iff (hwrite.unread _) hreads hanswers hunpaid hstatus
  | endless hanswers hwrite hnull hkeys =>
    have hnoReads : ReadsOnly [] := List.forall_mem_nil _
    obtain ⟨hreported, hworded⟩ := (hwrite.opened _).reported (hwrite.unread _) hnoReads
      (by rw [hanswers, List.append_nil]) (hunpaid.trans (List.append_nil _)) (by simp [hstatus, hnull])
      (fun _ => rfl) (Nat.zero_le 1)
    exact iff_of_true hreported hworded

theorem QueryEnds.reported (h : QueryEnds w name window value j)
    (howes : Owes w name bucket s [] s' j) :
    Reported name bucket j (ownLines w s j) ∧ ¬∃ answer ∈ answers j, IsMute answer := by
  have hpaid := howes.due_eq
  rw [List.append_nil] at hpaid
  have hlog (initialized : Value) : WriteLog name bucket [(.isInitialized, .ok initialized)] false :=
    .silent rfl (List.forall_mem_singleton.mpr id)
  cases h with
  | read hanswers hkeys hread hmetrics =>
    refine (hlog _).reported (List.forall_mem_singleton.mpr (.inr rfl)) hread.readsOnly hanswers hpaid
      ?_ nofun hread.once
    simp [← mem_metrics, hmetrics]

theorem triple_query_endless (h : Admits w window s) (hkeys : windowKeys? w name window = none) :
    Triple (query w (.text name) (.number window)) s [] (fun _ _ _ => False)
      fun _ _ j => (answers j).flatMap batchFaults = [] := by
  obtain ⟨initialized, hservable⟩ := h.triple_servable "query" name
  refine Triple.bind (hservable _) ?_
  rintro _ s' j' ⟨rfl, hanswers, -⟩
  rw [windowKeys?_eq, Option.map_eq_none_iff] at hkeys
  have hendless : readWindow w (.text name) window = Action.fail .endless := by
    unfold readWindow
    rw [hkeys]
  dsimp only
  rw [hendless]
  refine Triple.bind (Q := fun _ _ _ => False) (Triple.fail ?_) fun _ _ _ h => h.elim
  rw [hanswers]
  rfl

theorem QueryHalts.reported (h : QueryHalts w name window halt j) (hunfinished : Unfinished j)
    (howes : Owes w name bucket s (unwritten halt) s' j) (hreads : ReadsOnly (answers j))
    (hendless : windowKeys? w name window = none → (answers j).flatMap batchFaults = []) :
    Reported name bucket j (ownLines w s j) ↔ ¬∃ answer ∈ answers j, IsMute answer := by
  have hunpaid := howes.due_eq
  have hstatus := not_mem_of_unfinished hunfinished .error
  have hlog : WriteLog name bucket [] false := .silent rfl (List.forall_mem_nil _)
  have hbefore : Unread [] := List.forall_mem_nil _
  cases h with
  | reading hkeys hends => exact hlog.reported_iff hbefore hreads rfl hunpaid hstatus
  | endless hkeys =>
    obtain ⟨hreported, hworded⟩ := hlog.reported hbefore hreads rfl
      (hunpaid.trans (List.append_nil _)) (by simp [hstatus]) nofun
      (by rw [hendless hkeys]; exact Nat.zero_le 1)
    exact iff_of_true hreported hworded

end

/-- Over any store that keeps to its types, and whatever it answers, the service writes the lines
that a counter call is to write, unless a touch, a write or a read is refused with what cannot be
worded. -/
theorem failures_reported {σ : Type} {store : CounterStore σ} {now window : Binary64} {s : σ}
    (hstored : RepliesStored store) (h : Admits { store := store, now := now } window s)
    (name : String) :
    let w : Wiring σ := { store := store, now := now }
    let bucket := currentBucket now name window
    (∀ maxTtl, let o := increment w (.text name) (.number window) maxTtl s
      Reported name bucket o.journal (ownLines w s o.journal) ↔
        ¬∃ answer ∈ answers o.journal, IsMute answer) ∧
      let o := query w (.text name) (.number window) s
      Reported name bucket o.journal (ownLines w s o.journal) ↔
        ¬∃ answer ∈ answers o.journal, IsMute answer := by
  intro w bucket
  refine ⟨fun maxTtl => ?_, ?_⟩
  · rcases ((triple_increment_ends h (fun _ => rfl) hstored name maxTtl).and
      (owes_increment h (fun _ => rfl) hstored name maxTtl)).outcome with
      ⟨value, -, ⟨-, hends⟩, howes⟩ | ⟨halt, -, ⟨hunfinished, hhalts⟩, howes⟩
    · obtain ⟨hreported, hworded⟩ := hends.reported howes
      exact iff_of_true hreported hworded
    · exact hhalts.reported hunfinished howes
  · rcases ((triple_query_ends h (fun _ => rfl) hstored name).and
      (owes_query h (fun _ => rfl) hstored name bucket)).outcome with
      ⟨value, -, ⟨-, hends⟩, howes⟩ | ⟨halt, -, ⟨hunfinished, hhalts⟩, howes⟩
    · obtain ⟨hreported, hworded⟩ := hends.reported howes
      exact iff_of_true hreported hworded
    · have hreads : CallsOnly (·.isRead = true) ((Request.query name window).serve w) :=
        callsOnly_serve_read rfl
      refine hhalts.reported hunfinished howes (hreads s) fun hkeys => ?_
      rcases (triple_query_endless h hkeys).outcome with ⟨_, -, hfalse⟩ | ⟨_, -, hnone⟩
      · exact hfalse.elim
      · exact hnone

def isWorded : Answer → Bool
  | (_, .error fault) => fault.message?.isSome
  | _ => true

theorem not_isMute_of_isWorded (h : isWorded answer = true) : ¬IsMute answer := by
  obtain ⟨call, reply⟩ := answer
  cases reply with
  | ok value => cases call <;> exact id
  | error fault =>
    have hworded : fault.message? ≠ none := Option.isSome_iff_ne_none.mp h
    cases call <;> first | exact hworded | exact id

/-- Batched reads fail and one of the two buckets can be read: an error and a debug line. -/
theorem failures_reported_degraded :
    let w : Wiring Unit := { store := degradedStore [("a:w1:b0", 2)], now := 0 }
    let o := query w (.text "a") (.number 1) ()
    Reported "a" (currentBucket 0 "a" 1) o.journal (ownLines w () o.journal) ∧
      (ownLines w () o.journal).map LogLine.level = [.error, .debug] := by
  intro w o
  have hadmits : Admits w 1 () := ⟨⟨.bool true, rfl, rfl⟩, by decide +kernel⟩
  have hreports := (failures_reported (repliesStored_degradedStore _) hadmits "a").2
  have hworded : (answers o.journal).all isWorded = true := by decide +kernel
  refine ⟨hreports.mpr ?_, by decide +kernel⟩
  rintro ⟨answer, hmem, hmute⟩
  exact not_isMute_of_isWorded (List.all_eq_true.mp hworded answer hmem) hmute

def unwordedTouch : Outcome Event Halt (List (Except Fault Value)) Value :=
  increment { store := listedStore, now := 0 } (.text "a") (.number 1) .undefined
    [.ok (.bool true), .ok (.number 1), .error (.thrown (.record [(Value.textField, .number 1)]))]

def isRefusedTouch : Answer → Bool
  | (.touch _ _, .error _) => true
  | _ => false

/-- The touch was refused, and yet nothing is in the log. -/
theorem touch_unwarned :
    (∃ call fault, call.name = "touch" ∧ (call, .error fault) ∈ answers unwordedTouch.journal) ∧
      unwordedTouch.journal.filterMap Event.log? = [] := by
  have hrefused : (answers unwordedTouch.journal).any isRefusedTouch = true := by decide +kernel
  refine ⟨?_, by decide +kernel⟩
  obtain ⟨answer, hmem, htouch⟩ := List.any_eq_true.mp hrefused
  unfold isRefusedTouch at htouch
  split at htouch
  · exact ⟨_, _, rfl, hmem⟩
  · cases htouch

end SlidingTally.Counter
