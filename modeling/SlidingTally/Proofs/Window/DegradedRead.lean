import SlidingTally.Proofs.Service.ReadResult
import SlidingTally.Proofs.Store.Entries
import SlidingTally.Proofs.Store.MemoryView
import SlidingTally.Proofs.Window.Evaluation

/-!
# Reading one bucket at a time

When a batched read fails with a fault that is worth another attempt, the buckets of a window are
read one by one. Over the in-memory store that comes to the same as the batched read: both look at
the same keys in the same order, take what is stored there for the same counts and leave the same
state. Main statement: `query_failingOnce`.
-/

namespace SlidingTally

open SlidingTally.Action (Evaluates Triple)
open Binary64 (ofNat)

-- ---------------------------------------------------------------------------
-- Reads of the in-memory store
-- ---------------------------------------------------------------------------

namespace MemoryStore

def State.valueAt? (s : State) (now : Binary64) (text : String) : Option Value :=
  (s.live? now (.text text)).map Entry.value

def State.afterLooks (s : State) (now : Binary64) (texts : List String) : State :=
  texts.foldl (fun s text => s.afterLook now (.text text)) s

section
variable {s : State} {now : Binary64}

@[simp] theorem valueAt?_afterLook (key : Key) : (s.afterLook now key).valueAt? now = s.valueAt? now := by
  funext text
  rw [State.valueAt?, State.valueAt?, live?_afterLook fun _ => id]

theorem live?_afterLooks (texts : List String) (key : Key) :
    (s.afterLooks now texts).live? now key = s.live? now key := by
  induction texts generalizing s with
  | nil => rfl
  | cons text rest ih => exact ih.trans (live?_afterLook (fun _ => id) s (.text text) key)

theorem valueAt?_of_none (h : s.live? now (.text text) = none) : s.valueAt? now text = none := by
  rw [State.valueAt?, h]
  rfl

theorem valueAt?_of_some (h : s.live? now (.text text) = some entry) :
    s.valueAt? now text = some entry.value := by
  rw [State.valueAt?, h]
  rfl

theorem evaluates_require (h : s.initialized = true) : Evaluates require s () s := by
  refine Evaluates.bind ⟨[], rfl⟩ ?_
  rw [if_pos h]
  exact Evaluates.pure _ _

theorem evaluates_look (s : State) (now : Binary64) (key : Key) :
    Evaluates (look now key) s (s.live? now key) (s.afterLook now key) := ⟨[], rfl⟩

theorem evaluates_get (options : Options) (now : Binary64) (key : Key) (h : s.initialized = true) :
    Evaluates (store options now (.get key)) s (valueOf (s.live? now key)) (s.afterLook now key) :=
  (evaluates_require h).bind ((evaluates_look s now key).bind (Evaluates.pure _ _))

theorem evaluates_collect (texts : List String) :
    Evaluates (collect now (texts.map .text)) s
      ((foundBy (s.valueAt? now) texts).map fun entry => (.text entry.1, entry.2))
      (s.afterLooks now texts) := by
  induction texts generalizing s with
  | nil => exact Evaluates.pure _ _
  | cons text rest ih =>
    have hrest := ih (s := s.afterLook now (.text text))
    rw [valueAt?_afterLook] at hrest
    refine (evaluates_look s now (.text text)).bind ?_
    cases hlive : s.live? now (.text text) with
    | none =>
      rw [foundBy_cons_none (valueAt?_of_none hlive)]
      exact hrest
    | some entry =>
      rw [foundBy_cons_some (valueAt?_of_some hlive)]
      exact hrest.bind (Evaluates.pure _ _)

theorem evaluates_getMulti (options : Options) (now : Binary64) (h : s.initialized = true)
    {texts : List String} (hnodup : texts.Nodup) :
    Evaluates (store options now (.getMulti (.list (texts.map .text)))) s
      (.table ((foundBy (s.valueAt? now) texts).map fun entry => (.text entry.1, entry.2)))
      (s.afterLooks now texts) := by
  have hkeys : (texts.map Value.text).filterMap Key.ofSimple? = texts.map Key.text := by
    rw [List.filterMap_map, ← List.filterMap_eq_map]
    rfl
  have hsame : List.Forall₂ SameEntry
      ((foundBy (s.valueAt? now) texts).map fun entry => (Key.text entry.1, entry.2))
      (foundBy (s.valueAt? now) texts) := by
    rw [List.forall₂_map_left_iff, List.forall₂_same]
    exact fun entry _ => ⟨rfl, rfl⟩
  refine (evaluates_require h).bind (Evaluates.bind ⟨[], rfl⟩ ?_)
  rw [hkeys, ← entriesOf_texts hsame ((foundBy_sublist _ texts).nodup hnodup)]
  exact (evaluates_collect texts).bind (Evaluates.pure _ _)

end

end MemoryStore

-- ---------------------------------------------------------------------------
-- A batched read that fails
-- ---------------------------------------------------------------------------

/-- A store of which the first batched read fails without effect. -/
def failingOnce (store : CounterStore σ) (fault : Fault) : CounterStore (σ × Bool) :=
  fun now call (s, failed) =>
    match call, failed with
    | .getMulti _, false => ⟨.error fault, (s, true), []⟩
    | call, failed =>
      let outcome := store now call s
      ⟨outcome.reply, (outcome.state, failed), outcome.journal⟩

section
variable {σ : Type} {store : CounterStore σ} {now : Binary64} {s s' : σ}

theorem evaluates_failingOnce (fault : Fault) (h : Evaluates (store now call) s value s') (failed : Bool)
    (hcall : failed = true ∨ ∀ keys, call ≠ .getMulti keys) :
    Evaluates (failingOnce store fault now call) (s, failed) value (s', failed) := by
  obtain ⟨lines, hrun⟩ := h
  refine ⟨lines, ?_⟩
  unfold failingOnce
  dsimp only
  split
  · rcases hcall with hfailed | hcall
    · cases hfailed
    · exact absurd rfl (hcall _)
  · rw [hrun]

end

namespace Counter

-- ---------------------------------------------------------------------------
-- Counts of stored values
-- ---------------------------------------------------------------------------

section
variable {σ : Type} {w : Wiring σ} {s s' s₁ s₂ : σ} {value : Value} {read : WindowRead}

theorem countsAs_stored (h : value.isStored = true) (bucket : String) :
    CountsAs σ (.text bucket, value) value.count := by
  intro s
  unfold decodeBucket
  rcases integer_stored h bucket with hx | ⟨hzero, raw, hx⟩
  · rw [hx]
    exact Evaluates.pure _ _
  · have hskip : (Fault.decode bucket raw "integer").action = .skip := rfl
    have hworded : (Fault.decode bucket raw "integer").message? ≠ none := nofun
    rw [hx, hzero]
    dsimp only
    rw [if_pos hskip, skipBucket, Value.asText_text, orReject_ok, pure_bind]
    exact (evaluates_explain hworded _ _ _ s).bind (Evaluates.pure _ _)

theorem evaluates_addBucket (h : value.isStored = true) (total : Binary64) (bucket : String) (s : σ) :
    Evaluates (addBucket total (.text bucket) value) s (total + value.count) s :=
  evaluates_rescue ((countsAs_stored h bucket s).bind (Evaluates.pure (total + value.count) s)) _

theorem evaluates_readWindow_buckets {name : String} {window : Binary64}
    (hkeys : windowKeys? w name window = some buckets)
    (h : Evaluates (readBuckets w (.text name) buckets) s read s') :
    Evaluates (readWindow w (.text name) window) s read s' := by
  cases hids : Bucket.ids? (Bucket.range (seconds w.now) window) with
  | none =>
    rw [windowKeys?_eq, hids] at hkeys
    cases hkeys
  | some ids =>
    rw [windowKeys?_eq, hids] at hkeys
    cases hkeys
    rw [readWindow_of_ids hids]
    exact (evaluates_orReject (bucketKeys_text name window ids)).bind h

theorem triple_query_read {name : String} {window : Binary64}
    (hwindow : validWindow? (.number window) = some window)
    (hrefusal : ∀ metric, w.refusal metric = none)
    (hinit : Evaluates (w.store w.now .isInitialized) s (.bool true) s)
    (hkeys : windowKeys? w name window = some buckets)
    (hread : Evaluates (readWindow w (.text name) window) s read s') :
    Triple (query w (.text name) (.number window)) s []
      (fun reply s'' j => reply = .number read.total ∧ s'' = s' ∧
        metrics j = [.reads buckets.length, .query (if read.reached then .ok else .error)])
      fun _ _ _ => False := by
  have hadmits : Admits w window s := ⟨⟨.bool true, hinit.reply, rfl⟩, hwindow⟩
  obtain ⟨initialized, hservable⟩ := hadmits.triple_servable "query" name
  have hserved : Evaluates (servable w "query" (.text name) (.number window)) s (some window) s :=
    evaluates_servable hinit hwindow "query"
  refine Triple.bind (hserved.triple (hservable fun _ _ _ => False)) ?_
  rintro _ s j ⟨rfl, rfl, -, -, hmetrics⟩
  dsimp only
  have hreads : Triple (readWindow w (.text name) window) s j
      (fun _ _ j' => metrics j' = [.reads buckets.length]) fun _ _ _ => True := by
    rw [windowKeys?_eq, Option.map_eq_some_iff] at hkeys
    obtain ⟨ids, hids, rfl⟩ := hkeys
    refine (triple_readWindow_reads hrefusal hids s j).mono (fun _ _ j' h => ?_) fun _ _ _ h => h
    rw [h, hmetrics, List.length_map]
    rfl
  refine Triple.bind (hread.triple hreads) ?_
  rintro read s' j' ⟨rfl, rfl, hmetrics'⟩
  refine Triple.bind (Q := fun _ s'' j'' => s'' = s' ∧
      j'' = j' ++ [.metric (.query (if read.reached then .ok else .error))])
    (triple_observe (hrefusal _) ⟨rfl, rfl⟩) ?_
  rintro _ _ _ ⟨rfl, rfl⟩
  exact Triple.pure ⟨rfl, rfl, by simp [hmetrics']⟩

/-- A query of a store that is not initialized. -/
theorem triple_query_uninitialized (name window : Value) (hrefusal : ∀ metric, w.refusal metric = none)
    (hinit : Evaluates (w.store w.now .isInitialized) s (.bool false) s) :
    Triple (query w name window) s []
      (fun reply s' j => reply = .number 0 ∧ s' = s ∧ metrics j = [.query .skip])
      fun _ _ _ => False := by
  refine Triple.bind (Q := fun served s' j => served = none ∧ s' = s ∧ metrics j = []) ?_ ?_
  · refine Triple.bind (Q := fun value s' j => value = .bool false ∧ s' = s ∧ metrics j = [])
      (triple_demand (fun value hvalue => ?_) fun fault hfault => ?_) ?_
    · cases hinit.reply.symm.trans hvalue
      exact ⟨rfl, hinit.state, by simp⟩
    · cases hinit.reply.symm.trans hfault
    · rintro _ s j ⟨rfl, rfl, hmetrics⟩
      exact (triple_say (Q := fun _ s' j => s' = s ∧ metrics j = []) ⟨rfl, by simp [hmetrics]⟩).bind
        fun _ _ _ h => Triple.pure ⟨rfl, h⟩
  · rintro _ s j ⟨rfl, rfl, hmetrics⟩
    exact (triple_observe (Q := fun _ s' j => s' = s ∧ metrics j = [.query .skip]) (hrefusal _)
      ⟨rfl, by simp [hmetrics]⟩).bind fun _ _ _ h => Triple.pure ⟨rfl, h⟩

-- ---------------------------------------------------------------------------
-- Both ways of reading
-- ---------------------------------------------------------------------------

end

section
variable {options : MemoryStore.Options} {now : Binary64} {fault : Fault} {s : MemoryStore.State}
variable {buckets : List String}

def storedTotal (s : MemoryStore.State) (now : Binary64) (start : Binary64) (buckets : List String) :
    Binary64 :=
  sumOf start ((foundBy (s.valueAt? now) buckets).map fun entry => (.text entry.1, entry.2))

variable (hinit : s.initialized = true)
variable (hstored : s.All fun _ entry => entry.value.isStored = true)

omit hinit in
include hstored in
theorem isStored_of_valueAt? (hvalue : s.valueAt? now text = some value) : value.isStored = true := by
  obtain ⟨entry, hlive, rfl⟩ := Option.map_eq_some_iff.mp hvalue
  exact hstored.live? hlive

include hinit hstored

theorem evaluates_readBuckets_together (name : Value) (hnodup : buckets.Nodup) :
    Evaluates (readBuckets { store := MemoryStore.store options, now := now } name buckets) s
      ⟨storedTotal s now 0 buckets, true⟩ (s.afterLooks now buckets) := by
  have hread := MemoryStore.evaluates_getMulti options now hinit hnodup
  have hcounts : List.Forall₂ (CountsAs MemoryStore.State)
      ((foundBy (s.valueAt? now) buckets).map fun entry => (.text entry.1, entry.2))
      (((foundBy (s.valueAt? now) buckets).map fun entry => (Value.text entry.1, entry.2)).map
        fun entry => entry.2.count) := by
    rw [List.map_map, List.forall₂_map_left_iff, List.forall₂_map_right_iff, List.forall₂_same]
    exact fun entry hmem => countsAs_stored (isStored_of_valueAt? hstored (mem_foundBy.mp hmem).2) _
  exact evaluates_readBuckets (w := { store := MemoryStore.store options, now := now }) name hread
    hcounts rfl

theorem evaluates_readOneByOne (read : WindowRead) (buckets : List String) :
    Evaluates (readOneByOne { store := failingOnce (MemoryStore.store options) fault, now := now }
        read buckets) (s, true)
      ⟨storedTotal s now read.total buckets, read.reached || !buckets.isEmpty⟩
      (s.afterLooks now buckets, true) := by
  induction buckets generalizing s read with
  | nil =>
    rw [List.isEmpty_nil, Bool.not_true, Bool.or_false]
    exact Evaluates.pure _ _
  | cons bucket rest ih =>
    have hget := evaluates_failingOnce fault
      (MemoryStore.evaluates_get options now (.text bucket) hinit) true (.inl rfl)
    have hrest (total : Binary64)
        (htotal : storedTotal s now total rest = storedTotal s now read.total (bucket :: rest)) :
        Evaluates (readOneByOne { store := failingOnce (MemoryStore.store options) fault, now := now }
            ⟨total, true⟩ rest) (s.afterLook now (.text bucket), true)
          ⟨storedTotal s now read.total (bucket :: rest), read.reached || !(bucket :: rest).isEmpty⟩
          (s.afterLooks now (bucket :: rest), true) := by
      -- A look drops what is expired, so that all other texts show the same values after it.
      have hread := ih (s := s.afterLook now (.text bucket))
        (by rw [MemoryStore.afterLook_initialized, hinit]) (hstored.afterLook now _) ⟨total, true⟩
      rw [storedTotal, MemoryStore.valueAt?_afterLook] at hread
      rw [← htotal, List.isEmpty_cons, Bool.not_false, Bool.or_true]
      exact hread
    refine (evaluates_ask (w := { store := failingOnce (MemoryStore.store options) fault, now := now })
      hget).bind ?_
    cases hlive : s.live? now (.text bucket) with
    | none =>
      refine hrest read.total ?_
      rw [storedTotal, storedTotal, foundBy_cons_none (MemoryStore.valueAt?_of_none hlive)]
    | some entry =>
      have hvalue := MemoryStore.valueAt?_of_some hlive
      have htyped := isStored_of_valueAt? hstored hvalue
      have htotal : storedTotal s now (read.total + entry.value.count) rest =
          storedTotal s now read.total (bucket :: rest) := by
        rw [storedTotal, storedTotal, foundBy_cons_some hvalue]
        rfl
      obtain ⟨key, value, expiresAt⟩ := entry
      cases value with
      | text | number | bytes =>
        exact (evaluates_addBucket htyped _ _ _).bind (hrest _ htotal)
      | _ => cases htyped

theorem evaluates_readBuckets_apart (name : String) (hfault : fault.action = .retryOnce)
    (hworded : fault.message? ≠ none) (hnonempty : buckets ≠ []) :
    Evaluates (readBuckets { store := failingOnce (MemoryStore.store options) fault, now := now }
        (.text name) buckets) (s, false)
      ⟨storedTotal s now 0 buckets, true⟩ (s.afterLooks now buckets, true) := by
  obtain ⟨entries, hrun⟩ : ∃ entries, readBuckets.together
      { store := failingOnce (MemoryStore.store options) fault, now := now } buckets (s, false) =
        ⟨.error (.fault fault), (s, true), entries⟩ := ⟨_, rfl⟩
  refine (evaluates_observe rfl _).bind (evaluates_rescue_fault hrun ?_)
  unfold readBuckets.apart
  rw [Value.asText_text, orReject_ok, pure_bind]
  refine (evaluates_explain hworded _ _ _ _).bind ?_
  rw [if_pos hfault]
  have hread : Evaluates (readOneByOne
      { store := failingOnce (MemoryStore.store options) fault, now := now } ⟨0, false⟩ buckets)
      (s, true) _ _ := evaluates_readOneByOne hinit hstored ⟨0, false⟩ buckets
  rwa [Bool.false_or, show (!buckets.isEmpty) = true by simpa using hnonempty] at hread

end

/-- Over the in-memory store, whatever values it holds, a query of which the batched read fails with
a transient fault shows the same as one of which it does not, and leaves the same state. -/
theorem query_failingOnce (options : MemoryStore.Options) {s : MemoryStore.State} {now : Binary64}
    {window : Nat} {fault : Fault} (hstored : s.All fun _ entry => entry.value.isStored = true)
    (hreach : Bucket.InReach now (ofNat window)) (hkind : fault.kind = .transient)
    (hworded : fault.message? ≠ none) (name : String) :
    let batched := query { store := MemoryStore.store options, now := now } (.text name)
      (.number (ofNat window)) s
    let apart := query { store := failingOnce (MemoryStore.store options) fault, now := now }
      (.text name) (.number (ofNat window)) (s, false)
    (∃ total, batched.reply = .ok (.number total)) ∧ apart.reply = batched.reply ∧
      metrics apart.journal = metrics batched.journal ∧
      apart.state = (batched.state, s.initialized) ∧
      ∀ key, batched.state.live? now key = s.live? now key := by
  intro batched apart
  have hfault : fault.action = .retryOnce := by rw [Fault.action, hkind]; rfl
  have hasked : Evaluates (MemoryStore.store options now .isInitialized) s (.bool s.initialized) s :=
    ⟨[], rfl⟩
  have hasked' := evaluates_failingOnce fault hasked false (.inr nofun)
  cases hinit : s.initialized with
  | false =>
    rw [hinit] at hasked hasked'
    obtain ⟨_, hreply, rfl, hstate, hmetrics⟩ := (triple_query_uninitialized
      (w := { store := MemoryStore.store options, now := now }) (.text name)
      (.number (ofNat window)) (fun _ => rfl) hasked).replies
    obtain ⟨_, hreply', rfl, hstate', hmetrics'⟩ := (triple_query_uninitialized
      (w := { store := failingOnce (MemoryStore.store options) fault, now := now }) (.text name)
      (.number (ofNat window)) (fun _ => rfl) hasked').replies
    refine ⟨⟨0, hreply⟩, hreply'.trans hreply.symm, hmetrics'.trans hmetrics.symm, ?_, fun key => ?_⟩
    · exact hstate'.trans (by rw [hstate])
    · rw [hstate]
  | true =>
    rw [hinit] at hasked hasked'
    obtain ⟨buckets, hcovers, hnodup, hkeys⟩ := exists_covers hreach name
    have hwindow := validWindow?_of_inReach hreach
    have htogether := evaluates_readWindow_buckets (hkeys (MemoryStore.store options))
      (evaluates_readBuckets_together hinit hstored (.text name) hnodup)
    have hapart := evaluates_readWindow_buckets
      (hkeys (failingOnce (MemoryStore.store options) fault))
      (evaluates_readBuckets_apart hinit hstored name hfault hworded hcovers.ne_nil)
    obtain ⟨_, hreply, rfl, hstate, hmetrics⟩ :=
      (triple_query_read hwindow (fun _ => rfl) hasked (hkeys _) htogether).replies
    obtain ⟨_, hreply', rfl, hstate', hmetrics'⟩ :=
      (triple_query_read hwindow (fun _ => rfl) hasked' (hkeys _) hapart).replies
    refine ⟨⟨_, hreply⟩, hreply'.trans hreply.symm, hmetrics'.trans hmetrics.symm, ?_, fun key => ?_⟩
    · exact hstate'.trans (by rw [hstate])
    · rw [hstate]
      exact MemoryStore.live?_afterLooks _ key

def mixedState : MemoryStore.State :=
  (MemoryStore.State.put { initialized := true } (.text "a:w1:b-1")
    ⟨.text "a:w1:b-1", .text "x", none⟩).put (.text "a:w1:b0") ⟨.text "a:w1:b0", .number 2, none⟩

theorem query_failingOnce_mixed :
    let apart := query { store := failingOnce (MemoryStore.store {}) (.transient "down" none), now := 0 }
      (.text "a") (.number (ofNat 1)) (mixedState, false)
    apart.reply.toOption.bind Value.number? = some 2 ∧ metrics apart.journal = [.reads 2, .query .ok] := by
  intro apart
  have hstored : mixedState.All fun _ entry => entry.value.isStored = true := by
    have hempty : MemoryStore.State.All (fun _ entry => entry.value.isStored = true)
        { initialized := true } := nofun
    exact (hempty.put rfl).put rfl
  have hreach : Bucket.InReach 0 (ofNat 1) := by constructor <;> decide +kernel
  obtain ⟨-, hreply, hmetrics, -⟩ := query_failingOnce {} hstored hreach
    (show (Fault.transient "down" none).kind = .transient from rfl) nofun "a"
  refine ⟨(congrArg (fun reply => reply.toOption.bind Value.number?) hreply).trans ?_,
    hmetrics.trans ?_⟩
  · decide +kernel
  · decide +kernel

end Counter

end SlidingTally
