import SlidingTally.Metrics.Exposition
import SlidingTally.Proofs.Number.Digits
import SlidingTally.Proofs.Service.Accounting

/-!
# What a sink adds up

The series of a sink tell each way of ending apart and hold how often it was observed, and the
series of reads holds how many buckets were. Over a run in which every call resolves these are the
numbers of calls and the sizes of the windows that were read. Main statements: `value?_foldl_record`
and `outcomes_metered`.
-/

namespace SlidingTally

open SlidingTally.Action (outcomes)
open Binary64 (ofNat ofNat_add)

-- ---------------------------------------------------------------------------
-- Series
-- ---------------------------------------------------------------------------

namespace Metrics.Sink

def seriesOf : Metric → SeriesId
  | .increment status => .ofLabels .increments [.text status.name]
  | .query status => .ofLabels .queries [.text status.name]
  | .reads _ => .ofLabels .bucketReads []
  | .keyValue operation status => .ofLabels .keyValue [.text operation.name, .text status.name]

def amount : Metric → Nat
  | .reads count => count
  | _ => 1

def added (id : SeriesId) (observed : List Metric) : Nat :=
  (observed.map fun metric => if seriesOf metric = id then amount metric else 0).sum

@[simp] theorem added_append (id : SeriesId) (observed more : List Metric) :
    added id (observed ++ more) = added id observed + added id more := by
  simp [added]

theorem value?_record (sink : Sink) (metric : Metric) (id : SeriesId) :
    (sink.record metric).value? id =
      if id = seriesOf metric ∧ 0 < amount metric then
        some (match sink.value? id with
          | some total => total + ofNat (amount metric)
          | none => ofNat (amount metric))
      else sink.value? id := by
  have hadd (family : Family) (labels : List Label) (n : Nat) (hpos : 0 < n) :
      (sink.add family labels (ofNat n)).value? id =
        if id = .ofLabels family labels ∧ 0 < n then
          some (match sink.value? id with
            | some total => total + ofNat n
            | none => ofNat n)
        else sink.value? id := by
    rw [value?_add]
    by_cases hid : id = .ofLabels family labels
    · subst hid
      have hboth : SeriesId.ofLabels family labels = .ofLabels family labels ∧ 0 < n := ⟨rfl, hpos⟩
      exact (if_pos rfl).trans (if_pos hboth).symm
    · simp only [hid, false_and, if_neg, not_false_eq_true]
  cases metric with
  | reads count =>
    by_cases hpos : 0 < count
    · rw [record, if_pos hpos]
      exact hadd _ _ count hpos
    · rw [record, if_neg hpos, if_neg fun h => hpos h.2]
  | _ => exact hadd _ _ 1 Nat.one_pos

/-- A series holds what was added to it, as long as doubles count that far. -/
theorem value?_foldl_record (id : SeriesId) (observed : List Metric)
    (h : added id observed ≤ 2 ^ 53) :
    ((observed.foldl record new).value? id).getD (ofNat 0) = ofNat (added id observed) := by
  induction observed using List.reverseRecOn with
  | nil =>
    have hnone : added id [] = 0 := rfl
    rw [List.foldl_nil, hnone, new, value?, List.find?_singleton]
    split
    · rw [Option.map_some, Option.getD_some, Binary64.ofNat_zero]
    · rw [Option.map_none, Option.getD_none]
  | append_singleton observed metric ih =>
    rw [added_append] at h
    have hih := ih (by omega)
    have hone : added id [metric] = if seriesOf metric = id then amount metric else 0 := by
      simp [added]
    rw [List.foldl_append, List.foldl_cons, List.foldl_nil, value?_record, added_append]
    split
    · rename_i hadds
      rw [hone, if_pos hadds.1.symm] at h ⊢
      rw [← ofNat_add h, ← hih]
      cases (observed.foldl record new).value? id with
      | some total => rw [Option.getD_some, Option.getD_some]
      | none =>
        rw [Option.getD_none, Option.getD_some]
        have hstart := ofNat_add (m := 0) (n := amount metric) (by omega)
        rw [Nat.zero_add] at hstart
        exact hstart.symm
    · rename_i hadds
      have hnone : added id [metric] = 0 := by
        rw [hone]
        split
        · rename_i hid
          exact Nat.eq_zero_of_not_pos fun hpos => hadds ⟨hid.symm, hpos⟩
        · rfl
      rw [hih, hnone, Nat.add_zero]

def readSeries : SeriesId := .ofLabels .bucketReads []

def endings : List (Operation × Status) :=
  [.increment, .query, .keyValue .getText, .keyValue .getInteger, .keyValue .getFloat,
    .keyValue .set].product [.ok, .error, .skip]

theorem mem_endings (operation : Operation) (status : Status) : (operation, status) ∈ endings := by
  cases operation with
  | keyValue operation => cases operation <;> cases status <;> decide
  | _ => cases status <;> decide

theorem nodup_series :
    (readSeries :: endings.map fun ending => seriesOf (ending.1.ended ending.2)).Nodup := by
  decide +kernel

theorem seriesOf_ended_iff {metric : Metric} {operation : Operation} {status : Status} :
    seriesOf metric = seriesOf (operation.ended status) ↔ metric = operation.ended status := by
  refine ⟨fun h => ?_, fun h => congrArg seriesOf h⟩
  obtain ⟨hreads, hnodup⟩ := List.nodup_cons.mp nodup_series
  have hcases : (∃ operation status, metric = Operation.ended status operation) ∨
      seriesOf metric = readSeries := by
    cases metric with
    | increment status => exact .inl ⟨.increment, status, rfl⟩
    | query status => exact .inl ⟨.query, status, rfl⟩
    | keyValue operation status => exact .inl ⟨.keyValue operation, status, rfl⟩
    | reads count => exact .inr rfl
  rcases hcases with ⟨operation', status', rfl⟩ | hread
  · cases List.inj_on_of_nodup_map hnodup (mem_endings operation' status')
      (mem_endings operation status) h
    rfl
  · rw [← hread, h] at hreads
    exact absurd (List.mem_map.mpr ⟨_, mem_endings operation status, rfl⟩) hreads

theorem added_ended (operation : Operation) (status : Status) (observed : List Metric) :
    added (seriesOf (operation.ended status)) observed = observed.count (operation.ended status) := by
  induction observed with
  | nil => rfl
  | cons metric rest ih =>
    have hone : amount (operation.ended status) = 1 := by cases operation <;> rfl
    rw [← List.singleton_append, added_append, List.count_append, ih, added, List.map_singleton,
      List.sum_singleton, List.count_singleton]
    congr 1
    by_cases h : metric = operation.ended status
    · rw [if_pos (seriesOf_ended_iff.mpr h), if_pos (beq_iff_eq.mpr h), h, hone]
    · rw [if_neg fun heq => h (seriesOf_ended_iff.mp heq), if_neg fun heq => h (beq_iff_eq.mp heq)]

end Metrics.Sink

-- ---------------------------------------------------------------------------
-- What one call adds
-- ---------------------------------------------------------------------------

open Metrics (Sink SeriesId)
open Metrics.Sink (added added_append added_ended readSeries seriesOf)

theorem Operation.ended_inj {operation operation' : Operation} {status status' : Status} :
    operation.ended status = operation'.ended status' ↔ operation = operation' ∧ status = status' := by
  refine ⟨fun h => ?_, fun ⟨hoperation, hstatus⟩ => hoperation ▸ hstatus ▸ rfl⟩
  cases operation <;> cases operation' <;> cases h <;> exact ⟨rfl, rfl⟩

theorem Operation.ended_ne_reads (operation : Operation) (status : Status) (count : Nat) :
    operation.ended status ≠ .reads count := by
  cases operation <;> nofun

namespace Request

theorem windowRead?_valid {request : Request Binary64}
    (h : request.windowRead? (request.status given) = some window) :
    request.window? = some window ∧ (window.isFinite && Binary64.zero.lt window) = true := by
  have haway : request.isTurnedAway given = false := by
    cases hskip : request.isTurnedAway given with
    | false => rfl
    | true =>
      rw [status, if_pos hskip] at h
      cases request <;> cases h
  have hwindow : request.window? = some window := by
    cases request with
    | increment name window' maxTtl =>
      rw [windowRead?] at h
      split at h
      · exact h
      · cases h
    | query name window' =>
      rw [windowRead?] at h
      split at h
      · cases h
      · exact h
    | _ => cases h
  refine ⟨hwindow, ?_⟩
  rw [isTurnedAway, hwindow, Option.any_some, Bool.or_eq_false_iff] at haway
  simpa only [Bool.not_eq_eq_eq_not, Bool.not_false] using haway.2

/-- A call adds one to the series of how it ended and to no other of any operation. -/
theorem count_observations (request : Request Binary64) (now : Binary64) (status : Status)
    (operation : Operation) (status' : Status) :
    (request.observations now status).count (operation.ended status') =
      if request.operation = operation ∧ status = status' then 1 else 0 := by
  have hended : [request.ended status].count (operation.ended status') =
      if request.operation = operation ∧ status = status' then 1 else 0 := by
    rw [List.count_singleton]
    exact if_congr (beq_iff_eq.trans Operation.ended_inj) rfl rfl
  unfold observations
  split
  · rw [List.count_cons_of_ne (Operation.ended_ne_reads operation status' _).symm]
    exact hended
  · exact hended

theorem added_observations {request : Request Binary64} (h : request.Sensible now)
    (given : List Answer) :
    (added readSeries (request.observations now (request.status given)) : Int) =
      request.bucketsRead now (request.status given) := by
  have hended : added readSeries [request.ended (request.status given)] = 0 := by
    have hne : seriesOf (request.ended (request.status given)) ≠ readSeries := by
      intro heq
      have hreads : seriesOf (.reads 0) = seriesOf (request.ended (request.status given)) := heq.symm
      exact Operation.ended_ne_reads _ _ _ (Metrics.Sink.seriesOf_ended_iff.mp hreads).symm
    rw [added, List.map_singleton, List.sum_singleton, if_neg hne]
  unfold observations bucketsRead
  split
  · rename_i window hwindow
    obtain ⟨hwindow?, hvalid⟩ := windowRead?_valid hwindow
    obtain ⟨-, -, -, hpos⟩ := Counter.size_eq (h.inReach hwindow? hvalid)
    rw [← List.singleton_append, added_append, hended]
    show ((Bucket.range (Counter.seconds now) window).size.toNat : Int) = _
    omega
  · rw [hended]
    rfl

end Request

-- ---------------------------------------------------------------------------
-- What a run adds
-- ---------------------------------------------------------------------------

def observed (os : List (Outcome Event Halt σ Value)) : List Metric :=
  os.flatMap fun o => metrics o.journal

/-- The calls of a run, each with how it ended by the answers to it. -/
def ended (calls : List (Binary64 × Request Binary64)) (os : List (Outcome Event Halt σ Value)) :
    List ((Binary64 × Request Binary64) × Status) :=
  calls.zipWith (fun call o => (call, call.2.status (answers o.journal))) os

/-- The totals of a run are those of its calls. -/
structure Accounted (calls : List (Binary64 × Request Binary64))
    (os : List (Outcome Event Halt σ Value)) : Prop where
  statuses : ∀ operation status,
    added (seriesOf (operation.ended status)) (observed os) =
      (ended calls os).countP fun call => call.1.2.operation = operation ∧ call.2 = status
  everyCall : ∀ operation : Operation,
    ([.ok, .error, .skip].map fun status =>
        added (seriesOf (operation.ended status)) (observed os)).sum =
      calls.countP fun call => call.2.operation = operation
  reads : (added readSeries (observed os) : Int) =
    ((ended calls os).map fun call => call.1.2.bucketsRead call.1.1 call.2).sum
  sink : ∀ id, added id (observed os) ≤ 2 ^ 53 →
    (((observed os).foldl Sink.record .new).value? id).getD 0 = ofNat (added id (observed os))

section
variable {σ : Type} {calls : List (Binary64 × Request Binary64)}
variable {os : List (Outcome Event Halt σ Value)}

theorem observed_cons (o : Outcome Event Halt σ Value) (os : List (Outcome Event Halt σ Value)) :
    observed (o :: os) = metrics o.journal ++ observed os := List.flatMap_cons

theorem ended_cons (call : Binary64 × Request Binary64) (o : Outcome Event Halt σ Value) :
    ended (call :: calls) (o :: os) =
      (call, call.2.status (answers o.journal)) :: ended calls os := rfl

theorem added_observed_ended (h : List.Forall₂ Metered calls os)
    (hresolve : ∀ o ∈ os, ∃ value, o.reply = .ok value) (operation : Operation) (status : Status) :
    added (seriesOf (operation.ended status)) (observed os) =
      (ended calls os).countP fun call => call.1.2.operation = operation ∧ call.2 = status := by
  rw [added_ended]
  induction h with
  | nil => rfl
  | @cons call o calls os hcall _ ih =>
    obtain ⟨⟨value, hvalue⟩, hos⟩ := List.forall_mem_cons.mp hresolve
    rw [observed_cons, List.count_append, hcall.resolved value hvalue, Request.count_observations, ih hos,
      ended_cons, List.countP_cons, Nat.add_comm]
    congr 1
    exact if_congr (decide_eq_true_iff).symm rfl rfl

theorem map_fst_ended (h : List.Forall₂ Metered calls os) : (ended calls os).map Prod.fst = calls := by
  induction h with
  | nil => rfl
  | cons _ _ ih => exact congrArg (_ :: ·) ih

theorem added_observed_reads (h : List.Forall₂ Metered calls os)
    (hsensible : ∀ call ∈ calls, call.2.Sensible call.1)
    (hresolve : ∀ o ∈ os, ∃ value, o.reply = .ok value) :
    (added readSeries (observed os) : Int) =
      ((ended calls os).map fun call => call.1.2.bucketsRead call.1.1 call.2).sum := by
  induction h with
  | nil => rfl
  | @cons call o calls os hcall _ ih =>
    obtain ⟨⟨value, hvalue⟩, hos⟩ := List.forall_mem_cons.mp hresolve
    obtain ⟨hfirst, hrest⟩ := List.forall_mem_cons.mp hsensible
    rw [observed_cons, added_append, Nat.cast_add, ih hrest hos, hcall.resolved value hvalue,
      Request.added_observations hfirst]
    rfl

theorem sum_countP_status (operation : Operation) :
    ∀ calls : List ((Binary64 × Request Binary64) × Status),
      ([.ok, .error, .skip].map fun status => calls.countP fun call =>
        call.1.2.operation = operation ∧ call.2 = status).sum =
      (calls.map Prod.fst).countP fun call => call.2.operation = operation
  | [] => rfl
  | (call, status) :: rest => by
    have ih := sum_countP_status operation rest
    simp only [List.map_cons, List.map_nil, List.sum_cons, List.sum_nil, List.countP_cons] at ih ⊢
    rw [← ih]
    by_cases hoperation : call.2.operation = operation <;> cases status <;>
      simp only [hoperation, true_and, false_and, decide_true, decide_false, reduceIte,
        Bool.false_eq_true, reduceCtorEq] <;> omega

theorem accounted_of_metered (h : List.Forall₂ Metered calls os)
    (hsensible : ∀ call ∈ calls, call.2.Sensible call.1)
    (hresolve : ∀ o ∈ os, ∃ value, o.reply = .ok value) : Accounted calls os where
  statuses := added_observed_ended h hresolve
  everyCall operation := by
    simp only [added_observed_ended h hresolve]
    rw [sum_countP_status, map_fst_ended h]
  reads := added_observed_reads h hsensible hresolve
  sink id := Metrics.Sink.value?_foldl_record id _

end

/-- Over any store that keeps to its types, a call that resolves observes the size of its window,
if it reads one, and how it ended, and a call rejects only if it ends with a store call that fails
with a fault without a wording. If every call of a run resolves, its totals are those of the calls. -/
theorem outcomes_metered {store : CounterStore σ}
    (hinit : ∀ now s, ∃ b, (store now .isInitialized s).reply = .ok (.bool b))
    (hstored : RepliesStored store) (s : σ) (calls : List (Binary64 × Request Binary64))
    (h : ∀ call ∈ calls, call.2.Sensible call.1) :
    let os := outcomes (Request.serveAt store) s calls
    List.Forall₂ Metered calls os ∧
      ((∀ o ∈ os, ∃ value, o.reply = .ok value) → Accounted calls os) := by
  intro os
  have hmetered : List.Forall₂ Metered calls os := Action.forall_outcomes calls s
    fun call hmem s => metered_serveAt hinit hstored (h call hmem) s
  exact ⟨hmetered, accounted_of_metered hmetered h⟩

/-- A store that counts, but cannot read several keys at once and holds a text under each. -/
def fadingStore : CounterStore Unit := fun _ call =>
  match call with
  | .isInitialized => pure (.bool true)
  | .increment _ => pure (.number 2)
  | .getMulti _ => Action.fail (.plain "down")
  | _ => pure (.text "x")

theorem outcomes_metered_fading :
    let calls : List (Binary64 × Request Binary64) :=
      [(0, .increment "a" 1 .undefined), (1, .query "a" .nan), (2, .getInteger (.text "a") .undefined)]
    Accounted calls (outcomes (Request.serveAt fadingStore) () calls) := by
  intro calls
  have hinit : ∀ now s, ∃ b, (fadingStore now .isInitialized s).reply = .ok (.bool b) :=
    fun _ _ => ⟨true, rfl⟩
  have hstored : RepliesStored fadingStore := by
    refine ⟨fun _ _ _ reply hreply => ?_, fun _ _ _ _ hreply => by cases hreply⟩
    cases hreply
    exact .inr rfl
  have hreplies : ∀ o ∈ outcomes (Request.serveAt fadingStore) () calls, o.reply.toBool = true := by
    decide +kernel
  refine (outcomes_metered hinit hstored () calls ?_).2 fun o hmem => ?_
  · rw [List.forall_mem_cons, List.forall_mem_cons, List.forall_mem_singleton]
    refine ⟨.inr (.inr ⟨?_, ?_, ?_, ?_⟩), .inl rfl, congrArg Option.isSome (Value.toText?_text "a")⟩
    · decide +kernel
    · decide +kernel
    · decide +kernel
    · decide +kernel
  · have hreply := hreplies o hmem
    cases h : o.reply with
    | ok value => exact ⟨value, rfl⟩
    | error halt =>
      rw [h] at hreply
      cases hreply

/-- A read that rejects is not counted at all. -/
theorem getText_uncounted :
    let o := Request.serveAt unwordedStore (0, .getText (.text "a") (.text "d")) ()
    ¬∃ status, (observed [o]).count (.keyValue .getText status) = 1 := by
  rintro o ⟨status, h⟩
  have hnone : observed [o] = [] := by rfl
  rw [hnone] at h
  cases h

end SlidingTally
