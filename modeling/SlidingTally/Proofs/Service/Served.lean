import SlidingTally.Proofs.Service.Accounting

/-!
# Calls that are not turned away

A counter call that the store and its window admit asks whether the store is initialized, writes
its bucket if it is an increment, and reads its window unless it could not write. `IncrementEnds`
and `QueryEnds` list how it replies then, `IncrementHalts` and `QueryHalts` how it does not. Main
statements: `triple_increment_ends` and `triple_query_ends`.
-/

namespace SlidingTally.Counter

open SlidingTally.Action (Triple)

/-- The store is initialized and the window finite and positive, so that a call is not turned
away. -/
structure Admits (w : Wiring σ) (window : Binary64) (s : σ) : Prop where
  initialized : ∃ reply, (w.store w.now .isInitialized s).reply = .ok reply ∧ reply.truthy = true
  window : validWindow? (.number window) = some window

theorem validWindow?_of_inReach (h : Bucket.InReach now window) :
    validWindow? (.number window) = some window := by
  have hlt := Binary64.lt_iff.mp h.window_pos
  have hfinite := (Binary64.within_of_le (x := window) rfl (Binary64.is_ofNat (by decide)).1
    (Binary64.le_iff.mpr ⟨hlt.1, hlt.2.1, Int.le_of_lt hlt.2.2⟩) h.window_le).finite
  rw [validWindow?_eq, hfinite, h.window_pos]
  rfl

def WasAsked (call : StoreCall) (j : List Event) : Prop := ∃ reply, (call, reply) ∈ answers j

theorem wasAsked_append (j new : List Event) (h : WasAsked call j) : WasAsked call (j ++ new) := by
  obtain ⟨reply, hmem⟩ := h
  exact ⟨reply, by rw [answers_append]; exact List.mem_append_left _ hmem⟩

theorem triple_ask_wasAsked (w : Wiring σ) (call : StoreCall) (s : σ) (j : List Event) :
    Triple (ask w call) s j (fun _ _ => WasAsked call) E :=
  triple_ask ⟨(w.store w.now call s).reply, by simp⟩

-- ---------------------------------------------------------------------------
-- Ends
-- ---------------------------------------------------------------------------

section
variable {σ : Type} (w : Wiring σ) (name : String) (window : Binary64)

def windowKeys? : Option (List String) :=
  Bucket.keys? name window (Bucket.range (seconds w.now) window)

/-- How an increment replies: with zero if it could not write, else with the total that it read
back, or with the count that it wrote if it reached nothing. -/
inductive IncrementEnds (ttl : Binary64) : Value → List Event → Prop
  | unwritten (hanswers : answers j = (.isInitialized, .ok initialized) :: path)
      (hwrite : WritePath (currentBucket w.now name window) ttl path .null)
      (hmetrics : metrics j = [.increment .error]) : IncrementEnds ttl (.number 0) j
  | written {read : WindowRead}
      (hanswers : answers j = (.isInitialized, .ok initialized) :: (path ++ reads))
      (hwrite : WritePath (currentBucket w.now name window) ttl path count)
      (hnull : count.isNull = false) (hkeys : windowKeys? w name window = some buckets)
      (hread : ReadPath buckets reads read)
      (hmetrics : metrics j = [.reads buckets.length, .increment .ok]) :
      IncrementEnds ttl (if read.reached then .number read.total else count) j

/-- How an increment fails to reply: the last call failed without a wording, or the buckets to
read back have no end. -/
inductive IncrementHalts (ttl : Binary64) : Halt → List Event → Prop
  | writing (hanswers : answers j = (.isInitialized, .ok initialized) :: path)
      (hwrite : WritePath (currentBucket w.now name window) ttl path written)
      (hends : EndsUnworded j) : IncrementHalts ttl (.fault .unwritable) j
  | reading (hanswers : answers j = (.isInitialized, .ok initialized) :: (path ++ reads))
      (hwrite : WritePath (currentBucket w.now name window) ttl path count)
      (hnull : count.isNull = false) (hkeys : windowKeys? w name window = some buckets)
      (hreads : ReadsOnly reads) (hends : EndsUnworded j) :
      IncrementHalts ttl (.fault .unwritable) j
  | endless (hanswers : answers j = (.isInitialized, .ok initialized) :: path)
      (hwrite : WritePath (currentBucket w.now name window) ttl path count)
      (hnull : count.isNull = false) (hkeys : windowKeys? w name window = none) :
      IncrementHalts ttl .endless j

inductive QueryEnds : Value → List Event → Prop
  | read {read : WindowRead} (hanswers : answers j = (.isInitialized, .ok initialized) :: reads)
      (hkeys : windowKeys? w name window = some buckets) (hread : ReadPath buckets reads read)
      (hmetrics : metrics j =
        [.reads buckets.length, .query (if read.reached then .ok else .error)]) :
      QueryEnds (.number read.total) j

inductive QueryHalts : Halt → List Event → Prop
  | reading (hkeys : windowKeys? w name window = some buckets) (hends : EndsUnworded j) :
      QueryHalts (.fault .unwritable) j
  | endless (hkeys : windowKeys? w name window = none) : QueryHalts .endless j

end

-- ---------------------------------------------------------------------------
-- Parts
-- ---------------------------------------------------------------------------

section
variable {σ : Type} {w : Wiring σ} {name : String} {window : Binary64} {s : σ}

theorem Admits.triple_servable (h : Admits w window s) (operation name : String) :
    ∃ initialized, ∀ E : Halt → σ → List Event → Prop,
      Triple (servable w operation (.text name) (.number window)) s []
        (fun served _ j => served = some window ∧
          answers j = [(.isInitialized, .ok initialized)] ∧ metrics j = []) E := by
  obtain ⟨⟨initialized, hreply, htruthy⟩, hwindow⟩ := h
  refine ⟨initialized, fun E => Triple.bind (Q := fun value _ j => value = initialized ∧
    answers j = [(.isInitialized, .ok initialized)] ∧ metrics j = [])
      (triple_demand (fun value hvalue => ?_) fun fault hfault => ?_) ?_⟩
  · rw [hreply] at hvalue
    cases hvalue
    exact ⟨rfl, by simp [hreply], by simp⟩
  · rw [hreply] at hfault
    cases hfault
  · rintro _ s' j ⟨rfl, hanswers, hmetrics⟩
    rw [if_pos htruthy, hwindow]
    exact Triple.pure ⟨rfl, hanswers, hmetrics⟩

theorem Admits.wasAsked_increment (h : Admits w window s) (name : String) (maxTtl : Value) :
    WasAsked (.increment (.text (currentBucket w.now name window)))
      (increment w (.text name) (.number window) maxTtl s).journal := by
  obtain ⟨initialized, hservable⟩ := h.triple_servable "increment" name
  refine Triple.always (P := fun _ => WasAsked _) (Triple.bind (hservable _) ?_)
  rintro _ s' j' ⟨rfl, -, -⟩
  dsimp only
  rw [Value.asText_text, orReject_ok, pure_bind]
  have hbucket : Triple (incrementBucket w (currentBucket w.now name window)
      (Bucket.ttl window maxTtl)) s' j' (fun _ _ => WasAsked _) fun _ _ => WasAsked _ :=
    (triple_ask_wasAsked w _ s' j').bind fun _ _ _ hasked => Triple.grows wasAsked_append hasked
  exact hbucket.bind fun _ _ _ hasked => Triple.grows wasAsked_append hasked

theorem triple_incrementBucket_path (hanswers : answers j = given) (hmetrics : metrics j = [])
    (bucket : String) (ttl : Binary64) :
    Triple (incrementBucket w bucket ttl) s j
      (fun written _ j' => Adds (WritePath bucket ttl · written) given (answers j') ∧
        metrics j' = [])
      fun halt _ j' => Adds (fun path => ∃ written, WritePath bucket ttl path written) given
        (answers j') ∧ Unfinished j' ∧ Unexplained halt j' := by
  have hpath := (asks_incrementBucket w given bucket ttl).quiet
    ((composite_quiet w).incrementBucket _ _ fun _ _ => trivial) hanswers hmetrics (s := s)
  have hhalt := triple_incrementBucket (closed_true w) (fun _ => trivial) bucket ttl (s := s)
    (j := j) trivial
  exact (hpath.and hhalt).mono (fun _ _ _ h => h.1)
    fun _ _ _ h => ⟨h.1.1, unfinished_of_nil h.1.2, h.2.2⟩

theorem windowKeys?_eq : windowKeys? w name window =
    (Bucket.ids? (Bucket.range (seconds w.now) window)).map
      fun ids => ids.map (Bucket.key name window) := rfl

theorem triple_readWindow_path (hrefusal : ∀ metric, w.refusal metric = none)
    (hstored : RepliesStored w.store) (hanswers : answers j = given) (hmetrics : metrics j = []) :
    Triple (readWindow w (.text name) window) s j
      (fun read _ j' => ∃ buckets, windowKeys? w name window = some buckets ∧
        Adds (ReadPath buckets · read) given (answers j') ∧ metrics j' = [.reads buckets.length])
      fun halt _ j' => Unfinished j' ∧
        ((∃ buckets, windowKeys? w name window = some buckets ∧
          Extends (·.1.isRead = true) given (answers j') ∧ Unexplained halt j') ∨
        windowKeys? w name window = none ∧ halt = .endless ∧ j' = j) := by
  cases hids : Bucket.ids? (Bucket.range (seconds w.now) window) with
  | none =>
    unfold readWindow
    rw [hids]
    have hkeys : windowKeys? w name window = none := by
      rw [windowKeys?_eq, hids]
      rfl
    exact Triple.fail ⟨unfinished_of_nil hmetrics, .inr ⟨hkeys, rfl, rfl⟩⟩
  | some ids =>
    have hkeys : windowKeys? w name window = some (ids.map (Bucket.key name window)) := by
      rw [windowKeys?_eq, hids]
      rfl
    have honly : AsksOnly (·.1.isRead = true) (readWindow w (.text name) window) :=
      asksOnly_readWindow (fun _ hcall _ => hcall) _ _
    have hpath := ((asks_readWindow_path given (tells_of_stored hstored) name window).and
      (honly given)) s j hanswers (unfinished_of_nil hmetrics)
    have hreads : Triple (readWindow w (.text name) window) s j _ _ :=
      triple_readWindow_reads hrefusal hids s j
    have hresolves := resolves_readWindow (closed_true w) hrefusal (fun _ => trivial)
      (fun _ => trivial) name window (by rw [hids]; rfl) s j trivial
    refine ((hpath.and hreads).and hresolves).mono ?_ ?_
    · rintro read s' j' ⟨⟨⟨⟨⟨buckets, hbuckets, hadds⟩, -⟩, -⟩, hcount⟩, -⟩
      refine ⟨buckets, hbuckets, hadds, ?_⟩
      cases hkeys.symm.trans hbuckets
      rw [hcount, hmetrics, List.length_map]
      rfl
    · rintro halt s' j' ⟨⟨⟨⟨-, hextends⟩, hunfinished⟩, -⟩, -, hunexplained⟩
      exact ⟨hunfinished, .inl ⟨_, hkeys, hextends, hunexplained⟩⟩

-- ---------------------------------------------------------------------------
-- The two operations
-- ---------------------------------------------------------------------------

variable (h : Admits w window s) (hrefusal : ∀ metric, w.refusal metric = none)
variable (hstored : RepliesStored w.store)

include h hrefusal hstored

theorem triple_increment_ends (name : String) (maxTtl : Value) :
    Triple (increment w (.text name) (.number window) maxTtl) s []
      (fun reply _ j => Finished j ∧
        IncrementEnds w name window (Bucket.ttl window maxTtl) reply j)
      fun halt _ j => Unfinished j ∧
        IncrementHalts w name window (Bucket.ttl window maxTtl) halt j := by
  obtain ⟨initialized, hservable⟩ := h.triple_servable "increment" name
  refine Triple.bind (hservable _) ?_
  rintro _ s' j' ⟨rfl, hanswers, hmetrics⟩
  dsimp only
  rw [Value.asText_text, orReject_ok, pure_bind]
  refine Triple.bind ((triple_incrementBucket_path hanswers hmetrics _ _).mono (fun _ _ _ h => h)
    ?_) ?_
  · rintro halt s'' j'' ⟨⟨path, hpath, written, hwrite⟩, hunfinished, rfl, hends⟩
    exact ⟨hunfinished, .writing hpath hwrite hends⟩
  rintro written s'' j'' ⟨⟨path, hpath, hwrite⟩, hmetrics'⟩
  change answers j'' = (.isInitialized, .ok initialized) :: path at hpath
  split
  · refine Triple.bind (Q := fun _ _ j => j = j'' ++ [.metric (.increment .error)])
      (triple_observe (hrefusal _) rfl) ?_
    rintro _ s₃ _ rfl
    exact Triple.pure ⟨finished_concat _ _, .unwritten (by simpa using hpath) hwrite
      (by simp [hmetrics'])⟩
  · rename_i hnull
    have hisNull := Value.isNull_of_ne hnull
    refine Triple.bind ((triple_readWindow_path hrefusal hstored hpath hmetrics').mono
      (fun _ _ _ h => h) ?_) ?_
    · rintro halt s₃ j₃ ⟨hunfinished,
        ⟨buckets, hkeys, ⟨reads, hreads, hall⟩, rfl, hends⟩ | ⟨hkeys, rfl, rfl⟩⟩
      · exact ⟨hunfinished, .reading hreads hwrite hisNull hkeys hall hends⟩
      · exact ⟨hunfinished, .endless hpath hwrite hisNull hkeys⟩
    rintro read s₃ j₃ ⟨buckets, hkeys, ⟨reads, hreads, hread⟩, hmetrics₃⟩
    refine Triple.bind (Q := fun _ _ j => j = j₃ ++ [.metric (.increment .ok)])
      (triple_observe (hrefusal _) rfl) ?_
    rintro _ s₄ _ rfl
    exact Triple.pure ⟨finished_concat _ _, .written (by simpa using hreads) hwrite hisNull hkeys
      hread (by simp [hmetrics₃])⟩

theorem triple_query_ends (name : String) :
    Triple (query w (.text name) (.number window)) s []
      (fun reply _ j => Finished j ∧ QueryEnds w name window reply j)
      fun halt _ j => Unfinished j ∧ QueryHalts w name window halt j := by
  obtain ⟨initialized, hservable⟩ := h.triple_servable "query" name
  refine Triple.bind (hservable _) ?_
  rintro _ s' j' ⟨rfl, hanswers, hmetrics⟩
  dsimp only
  refine Triple.bind ((triple_readWindow_path hrefusal hstored hanswers hmetrics).mono
    (fun _ _ _ h => h) ?_) ?_
  · rintro halt s'' j'' ⟨hunfinished,
      ⟨buckets, hkeys, -, rfl, hends⟩ | ⟨hkeys, rfl, rfl⟩⟩
    · exact ⟨hunfinished, .reading hkeys hends⟩
    · exact ⟨hunfinished, .endless hkeys⟩
  rintro read s'' j'' ⟨buckets, hkeys, ⟨reads, hreads, hread⟩, hmetrics'⟩
  refine Triple.bind (Q := fun _ _ j =>
      j = j'' ++ [.metric (.query (if read.reached then .ok else .error))])
    (triple_observe (hrefusal _) rfl) ?_
  rintro _ s₃ _ rfl
  exact Triple.pure ⟨finished_concat _ _, .read (by simpa using hreads) hkeys hread
    (by simp [hmetrics'])⟩

end

end SlidingTally.Counter
