import SlidingTally.KeyValue
import SlidingTally.Proofs.Action.Runs
import SlidingTally.Window.Counter

/-!
# Requests

A `Request` is a call of one of the two services. Stores that answer each of their calls alike
serve each request alike, so that what is shown of a run over one holds over the other. Main
statement: `alike_serve`.
-/

namespace SlidingTally

/-- A call of a service; windows come as an `ω`. -/
inductive Request (ω : Type) where
  | increment (name : String) (window : ω) (maxTtl : Value)
  | query (name : String) (window : ω)
  | getText (key : Key) (fallback : Value)
  | getInteger (key : Key) (fallback : Value)
  | getFloat (key : Key) (fallback : Value)
  | set (key : Key) (value ttl : Value)

namespace Request

def map (f : ω → ω') : Request ω → Request ω'
  | .increment name window maxTtl => .increment name (f window) maxTtl
  | .query name window => .query name (f window)
  | .getText key fallback => .getText key fallback
  | .getInteger key fallback => .getInteger key fallback
  | .getFloat key fallback => .getFloat key fallback
  | .set key value ttl => .set key value ttl

def serve (w : Wiring σ) : Request Binary64 → Service σ Value
  | .increment name window maxTtl => Counter.increment w (.text name) (.number window) maxTtl
  | .query name window => Counter.query w (.text name) (.number window)
  | .getText key fallback => KeyValue.getText w key fallback
  | .getInteger key fallback => KeyValue.getInteger w key fallback
  | .getFloat key fallback => KeyValue.getFloat w key fallback
  | .set key value ttl => do
    KeyValue.set w key value ttl
    return .undefined

def serveAt (store : CounterStore σ) : Binary64 × Request Binary64 → Service σ Value
  | (now, request) => request.serve { store := store, now := now }

def isRead : Request ω → Bool
  | .increment _ _ _ => false
  | .set _ _ _ => false
  | _ => true

def isIncrement : Request ω → Bool
  | .increment _ _ _ => true
  | _ => false

@[simp] theorem isIncrement_increment (name : String) (window : ω) (maxTtl : Value) :
    (increment name window maxTtl).isIncrement = true := rfl

end Request

def StoreCall.isRead : StoreCall → Bool
  | .isInitialized => true
  | .get _ => true
  | .getMulti _ => true
  | _ => false

def StoreCall.key? : StoreCall → Option Key
  | .increment key => some key
  | .addIfAbsent key _ _ => some key
  | .touch key _ => some key
  | .set key _ _ => some key
  | .get key => some key
  | _ => none

-- ---------------------------------------------------------------------------
-- Steps of a service
-- ---------------------------------------------------------------------------

open SlidingTally.Action (Alike)

section
variable {R : σ → τ → Prop} {α : Type}

theorem alike_ask {w : Wiring σ} {w' : Wiring τ}
    (h : Alike R (w.store w.now call) (w'.store w'.now call)) :
    Alike R (ask w call) (ask w' call) := by
  intro s t hst
  obtain ⟨hreply, hstate⟩ := h s t hst
  exact ⟨congrArg Except.ok hreply, hstate⟩

theorem alike_orReject (result : Except Fault α) :
    Alike R (orReject result : Service σ α) (orReject result : Service τ α) :=
  Alike.ofExcept _

theorem alike_demand {w : Wiring σ} {w' : Wiring τ}
    (h : Alike R (w.store w.now call) (w'.store w'.now call)) :
    Alike R (demand w call) (demand w' call) :=
  Alike.bind (alike_ask h) alike_orReject

theorem alike_rescue {x : Service σ α} {y : Service τ α} {f : Fault → Service σ α}
    {g : Fault → Service τ α} (hxy : Alike R x y) (hfg : ∀ fault, Alike R (f fault) (g fault)) :
    Alike R (rescue x f) (rescue y g) := by
  intro s t hst
  obtain ⟨hreply, hstate⟩ := hxy s t hst
  simp only [rescue, ← hreply]
  cases hx : (x s).reply with
  | ok a => exact ⟨by rw [hx, ← hreply, hx], hstate⟩
  | error halt =>
    cases halt with
    | fault fault => exact hfg fault _ _ hstate
    | endless => exact ⟨by rw [hx, ← hreply, hx], hstate⟩

theorem alike_say (level : LogLevel) (component : Component) (text : String) :
    Alike R (say level component text) (say level component text) :=
  Alike.record _ _

theorem alike_explain (level : LogLevel) (component : Component) (lead : String) (fault : Fault) :
    Alike R (explain level component lead fault) (explain level component lead fault) :=
  Alike.bind (alike_orReject _) fun _ => alike_say _ _ _

end

-- ---------------------------------------------------------------------------
-- The services
-- ---------------------------------------------------------------------------

section
variable {R : σ → τ → Prop} {w : Wiring σ} {w' : Wiring τ}

theorem alike_observe (hrefusal : w.refusal = w'.refusal) (metric : Metric) :
    Alike R (observe w metric) (observe w' metric) := by
  unfold observe
  rw [hrefusal]
  split
  · exact Alike.fail _
  · exact Alike.record _ _

namespace Counter

theorem alike_skipBucket (bucket : Value) (fault : Fault) :
    Alike R (skipBucket bucket fault) (skipBucket bucket fault) :=
  Alike.bind (alike_orReject _) fun _ => alike_explain _ _ _ _

theorem alike_decodeBucket (bucket value : Value) :
    Alike R (decodeBucket bucket value) (decodeBucket bucket value) := by
  unfold decodeBucket
  split
  · exact Alike.pure _
  · split
    · exact Alike.bind (alike_skipBucket _ _) fun _ => Alike.pure _
    · exact Alike.fail _

theorem alike_sumBuckets (total : Binary64) (items : List Value) :
    Alike R (sumBuckets total items) (sumBuckets total items) := by
  induction items generalizing total with
  | nil => exact Alike.pure _
  | cons item rest ih =>
    refine Alike.bind (alike_orReject _) fun entry => ?_
    exact Alike.bind (alike_decodeBucket _ _) fun count => ih _

theorem alike_addBucket (total : Binary64) (bucket value : Value) :
    Alike R (addBucket total bucket value) (addBucket total bucket value) := by
  refine alike_rescue (Alike.bind (alike_decodeBucket _ _) fun _ => Alike.pure _) fun fault => ?_
  exact Alike.bind (alike_skipBucket _ _) fun _ => Alike.pure _

variable (hread : ∀ call, call.isRead = true →
  Alike R (w.store w.now call) (w'.store w'.now call))

include hread in
theorem alike_readOneByOne (read : WindowRead) (buckets : List String) :
    Alike R (readOneByOne w read buckets) (readOneByOne w' read buckets) := by
  induction buckets generalizing read with
  | nil => exact Alike.pure _
  | cons bucket rest ih =>
    refine Alike.bind (alike_ask (hread _ rfl)) fun reply => ?_
    split
    · exact ih _
    · exact Alike.bind (alike_addBucket _ _ _) fun _ => ih _
    · exact Alike.bind (alike_skipBucket _ _) fun _ => ih _

variable (hrefusal : w.refusal = w'.refusal) (hnow : w.now = w'.now)

include hread hrefusal in
theorem alike_readBuckets (name : Value) (buckets : List String) :
    Alike R (readBuckets w name buckets) (readBuckets w' name buckets) := by
  refine Alike.bind (alike_observe hrefusal _) fun _ => alike_rescue ?_ fun fault => ?_
  · refine Alike.bind (alike_demand (hread _ rfl)) fun found => ?_
    refine Alike.bind (alike_orReject _) fun items => ?_
    exact Alike.bind (alike_sumBuckets _ _) fun total => Alike.pure _
  · refine Alike.bind (alike_orReject _) fun text => Alike.bind (alike_explain _ _ _ _) fun _ => ?_
    split
    · exact alike_readOneByOne hread _ _
    · exact Alike.pure _

include hread hrefusal hnow in
theorem alike_readWindow (name : Value) (window : Binary64) :
    Alike R (readWindow w name window) (readWindow w' name window) := by
  unfold readWindow
  rw [hnow]
  split
  · exact Alike.bind (alike_orReject _) fun buckets => alike_readBuckets hread hrefusal _ _
  · exact Alike.fail _

include hread in
theorem alike_servable (operation : String) (name window : Value) :
    Alike R (servable w operation name window) (servable w' operation name window) := by
  refine Alike.bind (alike_demand (hread _ rfl)) fun initialized => ?_
  split
  · split
    · exact Alike.pure _
    · refine Alike.bind (alike_orReject _) fun _ => Alike.bind (alike_orReject _) fun _ => ?_
      exact Alike.bind (alike_say _ _ _) fun _ => Alike.pure _
  · exact Alike.bind (alike_say _ _ _) fun _ => Alike.pure _

include hread hrefusal hnow in
theorem alike_query (name window : Value) :
    Alike R (query w name window) (query w' name window) := by
  refine Alike.bind (alike_servable hread _ _ _) fun servable => ?_
  split
  · exact Alike.bind (alike_observe hrefusal _) fun _ => Alike.pure _
  · refine Alike.bind (alike_readWindow hread hrefusal hnow _ _) fun read => ?_
    exact Alike.bind (alike_observe hrefusal _) fun _ => Alike.pure _

variable (h : ∀ call, Alike R (w.store w.now call) (w'.store w'.now call))

include h in
theorem alike_assignTtl (bucket : String) (ttl : Binary64) :
    Alike R (assignTtl w bucket ttl) (assignTtl w' bucket ttl) := by
  refine alike_rescue (Alike.bind (alike_demand (h _)) fun reply => ?_)
    fun fault => alike_explain _ _ _ _
  split
  · exact Alike.bind (alike_demand (h _)) fun _ => Alike.pure _
  · exact alike_say _ _ _
  · exact Alike.pure _

theorem alike_writeFailed (bucket : String) (fault : Fault) :
    Alike R (writeFailed bucket fault) (writeFailed bucket fault) :=
  Alike.bind (alike_explain _ _ _ _) fun _ => Alike.pure _

include h in
theorem alike_createBucket (bucket : String) (ttl : Binary64) :
    Alike R (createBucket w bucket ttl) (createBucket w' bucket ttl) := by
  refine alike_rescue (Alike.bind (alike_demand (h _)) fun added => ?_)
    fun fault => alike_writeFailed _ _
  split
  · exact Alike.pure _
  · refine Alike.bind (alike_demand (h _)) fun count => ?_
    dsimp only
    split
    · exact Alike.bind (alike_say _ _ _) fun _ => Alike.pure _
    · exact Alike.pure _

include h in
theorem alike_incrementBucket (bucket : String) (ttl : Binary64) :
    Alike R (incrementBucket w bucket ttl) (incrementBucket w' bucket ttl) := by
  refine Alike.bind (alike_ask (h _)) fun reply => ?_
  split
  · exact alike_createBucket h _ _
  · dsimp only
    split
    · exact Alike.bind (alike_assignTtl h _ _) fun _ => Alike.pure _
    · exact Alike.pure _
  · split
    · exact alike_createBucket h _ _
    · exact alike_writeFailed _ _

include h hrefusal hnow in
theorem alike_increment (name window maxTtl : Value) :
    Alike R (increment w name window maxTtl) (increment w' name window maxTtl) := by
  refine Alike.bind (alike_servable (fun call _ => h call) _ _ _) fun servable => ?_
  split
  · exact Alike.bind (alike_observe hrefusal _) fun _ => Alike.pure _
  · refine Alike.bind (alike_orReject _) fun text => ?_
    dsimp only
    rw [hnow]
    refine Alike.bind (alike_incrementBucket h _ _) fun written => ?_
    split
    · exact Alike.bind (alike_observe hrefusal _) fun _ => Alike.pure _
    · refine Alike.bind (alike_readWindow (fun call _ => h call) hrefusal hnow _ _) fun read => ?_
      exact Alike.bind (alike_observe hrefusal _) fun _ => Alike.pure _

end Counter

namespace KeyValue

theorem alike_complain (what : String) (key : Key) (fault : Fault) :
    Alike R (complain what key fault) (complain what key fault) :=
  Alike.bind (alike_orReject _) fun _ => alike_explain _ _ _ _

variable (hread : ∀ call, call.isRead = true →
  Alike R (w.store w.now call) (w'.store w'.now call))
variable (hrefusal : w.refusal = w'.refusal)

include hread hrefusal in
theorem alike_read (operation : KeyValueOperation) (key : Key) (fallback : Value)
    (decode : Value → Except Fault Value) :
    Alike R (read w operation key fallback decode) (read w' operation key fallback decode) := by
  have hfinish (status : Status) (result : Value) :
      Alike R (read.finish w operation status result) (read.finish w' operation status result) :=
    Alike.bind (alike_observe hrefusal _) fun _ => Alike.pure _
  refine Alike.bind (alike_demand (hread _ rfl)) fun initialized => ?_
  split
  · refine alike_rescue (Alike.bind (alike_demand (hread _ rfl)) fun value => ?_) fun fault => ?_
    · split
      · exact Alike.bind (Alike.pure _) fun _ => hfinish _ _
      · exact Alike.bind (alike_orReject _) fun _ => hfinish _ _
    · exact Alike.bind (alike_complain _ _ _) fun _ => hfinish _ _
  · exact hfinish _ _

include hrefusal in
theorem alike_set (key : Key) (value ttl : Value)
    (hinit : Alike R (w.store w.now .isInitialized) (w'.store w'.now .isInitialized))
    (hset : ∀ ttl, Alike R (w.store w.now (.set key value ttl)) (w'.store w'.now (.set key value ttl))) :
    Alike R (set w key value ttl) (set w' key value ttl) := by
  refine Alike.bind (alike_demand hinit) fun initialized => ?_
  split
  · refine alike_rescue (Alike.bind (alike_demand (hset _)) fun _ => alike_observe hrefusal _)
      fun fault => ?_
    exact Alike.bind (alike_complain _ _ _) fun _ => alike_observe hrefusal _
  · exact alike_observe hrefusal _

end KeyValue

theorem alike_serve_read (hread : ∀ call, call.isRead = true →
      Alike R (w.store w.now call) (w'.store w'.now call))
    (hrefusal : w.refusal = w'.refusal) (hnow : w.now = w'.now) {request : Request Binary64}
    (hrequest : request.isRead = true) : Alike R (request.serve w) (request.serve w') := by
  cases request with
  | query name window => exact Counter.alike_query hread hrefusal hnow _ _
  | getText key fallback => exact KeyValue.alike_read hread hrefusal _ _ _ _
  | getInteger key fallback => exact KeyValue.alike_read hread hrefusal _ _ _ _
  | getFloat key fallback => exact KeyValue.alike_read hread hrefusal _ _ _ _
  | increment name window maxTtl => cases hrequest
  | set key value ttl => cases hrequest

theorem alike_serve (w : Wiring σ) (w' : Wiring τ)
    (h : ∀ call, Alike R (w.store w.now call) (w'.store w'.now call))
    (hrefusal : w.refusal = w'.refusal) (hnow : w.now = w'.now) (request : Request Binary64) :
    Alike R (request.serve w) (request.serve w') := by
  cases request with
  | increment name window maxTtl => exact Counter.alike_increment hrefusal hnow h _ _ _
  | set key value ttl =>
    exact Alike.bind (KeyValue.alike_set hrefusal _ _ _ (h _) fun _ => h _) fun _ => Alike.pure _
  | _ => exact alike_serve_read (fun call _ => h call) hrefusal hnow rfl

end

theorem serve_preserves {I : σ → Prop} {w : Wiring σ}
    (h : ∀ call, call.isRead = true → ∀ s, I s → I (w.store w.now call s).state)
    {request : Request Binary64} (hrequest : request.isRead = true) (hs : I s) :
    I (request.serve w s).state :=
  (alike_serve_read (fun call hcall => Alike.of_preserves (h call hcall)) rfl rfl
    hrequest).preserves hs

end SlidingTally
