import SlidingTally.Proofs.Action.Triple
import SlidingTally.Proofs.Service.Request

/-!
# Wholes and their parts

A service is put together from calls to the store, log lines and observations, by doing one after
the other and by rescues. What holds of such parts and passes on to what is put together from them
holds of the whole: `Composite` says so of a property, and there is a rule for each part of the
services. Main statements: `Composite.incrementBucket` and `Composite.serve_read`.
-/

namespace SlidingTally

/-- A property that services have if their parts do; of calls, those of a kind have it. -/
structure Composite {σ : Type} (w : Wiring σ) (kind : StoreCall → Prop)
    (P : {α : Type} → Service σ α → Prop) : Prop where
  pure : ∀ {α : Type} (a : α), P (pure a)
  fail : ∀ {α : Type} (halt : Halt), P (Action.fail halt : Service σ α)
  bind : ∀ {α β : Type} {x : Service σ α} {f : α → Service σ β}, P x → (∀ a, P (f a)) →
    P (x >>= f)
  rescue : ∀ {α : Type} {x : Service σ α} {otherwise : Fault → Service σ α}, P x →
    (∀ fault, P (otherwise fault)) → P (SlidingTally.rescue x otherwise)
  say : ∀ level component text, P (SlidingTally.say level component text)
  ask : ∀ call, kind call → P (SlidingTally.ask w call)

section
variable {σ α : Type} {w : Wiring σ} {kind : StoreCall → Prop}
variable {P : {α : Type} → Service σ α → Prop} (hP : Composite w kind P)

namespace Composite

include hP

theorem orReject (result : Except Fault α) : P (SlidingTally.orReject result) := by
  cases result with
  | ok a => exact hP.pure a
  | error fault => exact hP.fail _

theorem demand (hcall : kind call) : P (SlidingTally.demand w call) :=
  hP.bind (hP.ask call hcall) hP.orReject

theorem explain (level : LogLevel) (component : Component) (lead : String) (fault : Fault) :
    P (SlidingTally.explain level component lead fault) :=
  hP.bind (hP.orReject _) fun _ => hP.say _ _ _

theorem servable (hinit : kind .isInitialized) (operation : String) (name window : Value) :
    P (Counter.servable w operation name window) := by
  refine hP.bind (hP.demand hinit) fun initialized => ?_
  split
  · split
    · exact hP.pure _
    · exact hP.bind (hP.orReject _) fun _ => hP.bind (hP.orReject _) fun _ =>
        hP.bind (hP.say _ _ _) fun _ => hP.pure _
  · exact hP.bind (hP.say _ _ _) fun _ => hP.pure _

-- ---------------------------------------------------------------------------
-- Reading
-- ---------------------------------------------------------------------------

theorem skipBucket (bucket : Value) (fault : Fault) : P (Counter.skipBucket bucket fault) :=
  hP.bind (hP.orReject _) fun _ => hP.explain _ _ _ _

theorem decodeBucket (bucket value : Value) : P (Counter.decodeBucket bucket value) := by
  unfold Counter.decodeBucket
  split
  · exact hP.pure _
  · split
    · exact hP.bind (hP.skipBucket _ _) fun _ => hP.pure _
    · exact hP.fail _

theorem addBucket (total : Binary64) (bucket value : Value) :
    P (Counter.addBucket total bucket value) := by
  refine hP.rescue (hP.bind (hP.decodeBucket _ _) fun _ => hP.pure _) fun fault => ?_
  exact hP.bind (hP.skipBucket _ _) fun _ => hP.pure _

theorem sumBuckets (total : Binary64) (items : List Value) : P (Counter.sumBuckets total items) := by
  induction items generalizing total with
  | nil => exact hP.pure _
  | cons item rest ih =>
    refine hP.bind (hP.orReject _) fun entry => ?_
    exact hP.bind (hP.decodeBucket _ _) fun count => ih _

theorem readOneByOne (hget : ∀ key, kind (.get key)) (read : Counter.WindowRead)
    (buckets : List String) : P (Counter.readOneByOne w read buckets) := by
  induction buckets generalizing read with
  | nil => exact hP.pure _
  | cons bucket rest ih =>
    refine hP.bind (hP.ask _ (hget _)) fun reply => ?_
    split
    · exact ih _
    · exact hP.bind (hP.addBucket _ _ _) fun total => ih _
    · exact hP.bind (hP.skipBucket _ _) fun _ => ih _

theorem together (hmulti : ∀ keys, kind (.getMulti keys)) (buckets : List String) :
    P (Counter.readBuckets.together w buckets) := by
  refine hP.bind (hP.demand (hmulti _)) fun found => ?_
  exact hP.bind (hP.orReject _) fun items => hP.bind (hP.sumBuckets _ _) fun _ => hP.pure _

theorem apart (hget : ∀ key, kind (.get key)) (name : Value) (buckets : List String)
    (fault : Fault) : P (Counter.readBuckets.apart w name buckets fault) := by
  refine hP.bind (hP.orReject _) fun _ => hP.bind (hP.explain _ _ _ _) fun _ => ?_
  split
  · exact hP.readOneByOne hget _ _
  · exact hP.pure _

theorem readWindow (hget : ∀ key, kind (.get key)) (hmulti : ∀ keys, kind (.getMulti keys))
    (hreads : ∀ count, P (observe w (.reads count))) (name : Value) (window : Binary64) :
    P (Counter.readWindow w name window) := by
  unfold Counter.readWindow
  split
  · refine hP.bind (hP.orReject _) fun buckets => hP.bind (hreads _) fun _ => ?_
    exact hP.rescue (hP.together hmulti _) fun fault => hP.apart hget _ _ fault
  · exact hP.fail _

-- ---------------------------------------------------------------------------
-- Writing
-- ---------------------------------------------------------------------------

theorem writeFailed (bucket : String) (fault : Fault) : P (Counter.writeFailed bucket fault) :=
  hP.bind (hP.explain _ _ _ _) fun _ => hP.pure _

theorem assignTtl (bucket : String) (ttl : Binary64)
    (hbucket : ∀ call, call.key? = some (.text bucket) → kind call) :
    P (Counter.assignTtl w bucket ttl) := by
  refine hP.rescue (hP.bind (hP.demand (hbucket _ rfl)) fun reply => ?_) fun fault => hP.explain _ _ _ _
  split
  · exact hP.bind (hP.demand (hbucket _ rfl)) fun _ => hP.pure _
  · exact hP.say _ _ _
  · exact hP.pure _

theorem createBucket (bucket : String) (ttl : Binary64)
    (hbucket : ∀ call, call.key? = some (.text bucket) → kind call) :
    P (Counter.createBucket w bucket ttl) := by
  refine hP.rescue (hP.bind (hP.demand (hbucket _ rfl)) fun added => ?_) fun fault => hP.writeFailed _ _
  split
  · exact hP.pure _
  · refine hP.bind (hP.demand (hbucket _ rfl)) fun count => ?_
    dsimp only
    split
    · exact hP.bind (hP.say _ _ _) fun _ => hP.pure _
    · exact hP.pure _

theorem incrementBucket (bucket : String) (ttl : Binary64)
    (hbucket : ∀ call, call.key? = some (.text bucket) → kind call) :
    P (Counter.incrementBucket w bucket ttl) := by
  refine hP.bind (hP.ask _ (hbucket _ rfl)) fun reply => ?_
  split
  · exact hP.createBucket _ _ hbucket
  · dsimp only
    split
    · exact hP.bind (hP.assignTtl _ _ hbucket) fun _ => hP.pure _
    · exact hP.pure _
  · split
    · exact hP.createBucket _ _ hbucket
    · exact hP.writeFailed _ _

-- ---------------------------------------------------------------------------
-- Requests that read
-- ---------------------------------------------------------------------------

variable (hread : ∀ call, call.isRead = true → kind call)
variable (hobserve : ∀ metric, P (SlidingTally.observe w metric))

include hread hobserve

theorem query (name window : Value) : P (Counter.query w name window) := by
  refine hP.bind (hP.servable (hread _ rfl) _ _ _) fun served => ?_
  split
  · exact hP.bind (hobserve _) fun _ => hP.pure _
  · refine hP.bind (hP.readWindow (fun _ => hread _ rfl) (fun _ => hread _ rfl)
      (fun _ => hobserve _) _ _) fun read => ?_
    exact hP.bind (hobserve _) fun _ => hP.pure _

theorem keyValueRead (operation : KeyValueOperation) (key : Key) (fallback : Value)
    (decode : Value → Except Fault Value) : P (KeyValue.read w operation key fallback decode) := by
  have hfinish (status : Status) (result : Value) :
      P (KeyValue.read.finish w operation status result) :=
    hP.bind (hobserve _) fun _ => hP.pure _
  refine hP.bind (hP.demand (hread _ rfl)) fun initialized => ?_
  split
  · refine hP.rescue (hP.bind (hP.demand (hread _ rfl)) fun value => ?_) fun fault => ?_
    · split
      · exact hP.bind (hP.pure _) fun _ => hfinish _ _
      · exact hP.bind (hP.orReject _) fun _ => hfinish _ _
    · exact hP.bind (hP.bind (hP.orReject _) fun _ => hP.explain _ _ _ _) fun _ => hfinish _ _
  · exact hfinish _ _

theorem serve_read {request : Request Binary64} (hrequest : request.isRead = true) :
    P (request.serve w) := by
  cases request with
  | query name window => exact hP.query hread hobserve _ _
  | getText key fallback => exact hP.keyValueRead hread hobserve _ _ _ _
  | getInteger key fallback => exact hP.keyValueRead hread hobserve _ _ _ _
  | getFloat key fallback => exact hP.keyValueRead hread hobserve _ _ _ _
  | increment name window maxTtl => cases hrequest
  | set key value ttl => cases hrequest

end Composite

-- ---------------------------------------------------------------------------
-- What services preserve
-- ---------------------------------------------------------------------------

open SlidingTally.Action (Preserves)

variable (w) in
theorem composite_preserves (I : σ → Prop) :
    Composite w (fun call => Preserves I (w.store w.now call)) (Preserves I) where
  pure := Preserves.pure
  fail := Preserves.fail
  bind := Preserves.bind
  rescue hx hfault s hs := by
    have hfirst := hx s hs
    unfold SlidingTally.rescue
    dsimp only
    split
    · exact hfault _ _ hfirst
    · exact hfirst
  say _ _ _ := Preserves.record _
  ask _ hcall s hs := hcall s hs

theorem preserves_observe (I : σ → Prop) (metric : Metric) : Preserves I (observe w metric) := by
  unfold observe
  split
  · exact Preserves.fail _
  · exact Preserves.record _

end

end SlidingTally
