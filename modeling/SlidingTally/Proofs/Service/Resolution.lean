import SlidingTally.KeyValue
import SlidingTally.Proofs.Service.Rules
import SlidingTally.Window.Counter

/-!
# Why a service rejects

Whatever a store does, a service rejects for one reason only: a store call has failed with a fault
that has no wording, and putting it into the log failed. `Resolves I x` says that `x` rejects for
nothing else, and keeps an invariant `I` of the state and the journal. Inside a rescue any fault
may be raised, but one without a wording comes from the last call: that is `Raises I x`, and
`Handles I fault x` says that what deals with such a fault resolves. Main statements:
`resolves_assignTtl` and `resolves_readWindow`.
-/

namespace SlidingTally

open SlidingTally.Action (Triple)

-- ---------------------------------------------------------------------------
-- Results with a wording
-- ---------------------------------------------------------------------------

def Worded (result : Except Fault α) : Prop :=
  ∀ fault, result = .error fault → fault.message? ≠ none

theorem worded_ok (a : α) : Worded (.ok a : Except Fault α) := nofun

theorem worded_error {fault : Fault} (h : fault.message? ≠ none) :
    Worded (.error fault : Except Fault α) := by
  intro other heq
  cases heq
  exact h

theorem Worded.bind {result : Except Fault α} {f : α → Except Fault β} (h : Worded result)
    (hf : ∀ a, Worded (f a)) : Worded (result >>= f) := by
  cases result with
  | ok a => exact hf a
  | error fault => exact worded_error (h fault rfl)

theorem message?_unwritable : Fault.unwritable.message? ≠ none := nofun

theorem worded_asText (value : Value) : Worded value.asText := by
  unfold Value.asText
  split
  · exact worded_ok _
  · exact worded_error message?_unwritable

theorem worded_iterate (name : String) (value : Value) : Worded (value.iterate name) := by
  unfold Value.iterate
  split
  · exact worded_ok _
  · exact worded_error nofun

theorem worded_pair (value : Value) : Worded value.pair :=
  (worded_iterate _ _).bind fun _ => worded_ok _

theorem worded_map {result : Except Fault α} (f : α → β) (h : Worded result) :
    Worded (result.map f) := by
  cases result with
  | ok a => exact worded_ok _
  | error fault => exact worded_error (h fault rfl)

namespace Codec

theorem worded_refuse (key : Value) (raw expected : String) :
    Worded (refuse key raw expected : Except Fault α) :=
  (worded_asText key).bind fun _ => worded_error nofun

theorem worded_integer (key value : Value) : Worded (integer key value) := by
  unfold integer
  split
  · split
    · exact worded_ok _
    · exact worded_refuse _ _ _
  · refine (worded_asText _).bind fun text => ?_
    split
    · exact worded_ok _
    · exact worded_refuse _ _ _

theorem worded_float (key value : Value) : Worded (float key value) := by
  unfold float
  split
  · exact worded_ok _
  · refine (worded_asText _).bind fun text => ?_
    dsimp only
    split
    · exact worded_refuse _ _ _
    · exact worded_ok _

end Codec

-- ---------------------------------------------------------------------------
-- Reasons
-- ---------------------------------------------------------------------------

/-- The last thing that happened is a store call that failed with a fault without a wording. -/
def EndsUnworded (j : List Event) : Prop :=
  ∃ call fault, j.getLast? = some (.call call (.error fault)) ∧ fault.message? = none

def Unexplained (halt : Halt) (j : List Event) : Prop :=
  halt = .fault .unwritable ∧ EndsUnworded j

def Grounded (fault : Fault) (j : List Event) : Prop :=
  fault.message? = none → ∃ call, j.getLast? = some (.call call (.error fault))

theorem grounded_of_message {fault : Fault} (h : fault.message? ≠ none) (j : List Event) :
    Grounded fault j :=
  fun hnone => absurd hnone h

section
variable {σ α β : Type} {w : Wiring σ} {I : σ → List Event → Prop}

/-- Rejects for the one reason only, and keeps an invariant. -/
def Resolves (I : σ → List Event → Prop) (x : Service σ α) : Prop :=
  ∀ s j, I s j → Triple x s j (fun _ => I) fun halt s' j' => I s' j' ∧ Unexplained halt j'

def Raises (I : σ → List Event → Prop) (x : Service σ α) : Prop :=
  ∀ s j, I s j → Triple x s j (fun _ => I) fun halt s' j' =>
    I s' j' ∧ ∃ fault, halt = .fault fault ∧ Grounded fault j'

def Handles (I : σ → List Event → Prop) (fault : Fault) (x : Service σ α) : Prop :=
  ∀ s j, I s j → Grounded fault j →
    Triple x s j (fun _ => I) fun halt s' j' => I s' j' ∧ Unexplained halt j'

theorem Handles.resolves {x : Service σ α} (h : Handles I fault x) (hmessage : fault.message? ≠ none) :
    Resolves I x :=
  fun s j hI => h s j hI (grounded_of_message hmessage j)

theorem Resolves.raises {x : Service σ α} (h : Resolves I x) : Raises I x := by
  intro s j hI
  refine (h s j hI).mono (fun _ _ _ hI' => hI') ?_
  rintro halt s' j' ⟨hI', hhalt, -⟩
  exact ⟨hI', .unwritable, hhalt, grounded_of_message message?_unwritable j'⟩

theorem resolves_pure (a : α) : Resolves I (pure a : Service σ α) :=
  fun _ _ hI => Triple.pure hI

theorem Resolves.bind {x : Service σ α} {f : α → Service σ β} (hx : Resolves I x)
    (hf : ∀ a, Resolves I (f a)) : Resolves I (x >>= f) :=
  fun s j hI => Triple.bind (hx s j hI) fun a s' j' hI' => hf a s' j' hI'

theorem Raises.bind {x : Service σ α} {f : α → Service σ β} (hx : Raises I x)
    (hf : ∀ a, Raises I (f a)) : Raises I (x >>= f) :=
  fun s j hI => Triple.bind (hx s j hI) fun a s' j' hI' => hf a s' j' hI'

theorem Handles.bind {x : Service σ α} {f : α → Service σ β} (hx : Handles I fault x)
    (hf : ∀ a, Resolves I (f a)) : Handles I fault (x >>= f) :=
  fun s j hI hfault => Triple.bind (hx s j hI hfault) fun a s' j' hI' => hf a s' j' hI'

theorem raises_fail {fault : Fault} (h : fault.message? ≠ none) :
    Raises I (Action.fail (.fault fault) : Service σ α) :=
  fun _ j hI => Triple.fail ⟨hI, fault, rfl, grounded_of_message h j⟩

theorem raises_orReject {result : Except Fault α} (h : Worded result) :
    Raises I (orReject result : Service σ α) := by
  cases result with
  | ok a => exact (resolves_pure a).raises
  | error fault => exact raises_fail (h fault rfl)

theorem resolves_orReject {result : Except Fault α} (h : result = .ok a) :
    Resolves I (orReject result : Service σ α) := by
  rw [h]
  exact resolves_pure a

theorem resolves_rescue {x : Service σ α} {otherwise : Fault → Service σ α} (hx : Raises I x)
    (hfault : ∀ fault, Handles I fault (otherwise fault)) : Resolves I (rescue x otherwise) := by
  intro s j hI
  refine triple_rescue (hx s j hI) ?_ ?_
  · rintro fault s' j' ⟨hI', fault', heq, hgrounded⟩
    cases heq
    exact hfault fault s' j' hI' hgrounded
  · rintro s' j' ⟨_, fault, heq, _⟩
    cases heq

-- ---------------------------------------------------------------------------
-- Calls and log lines
-- ---------------------------------------------------------------------------

structure Closed (w : Wiring σ) (kind : StoreCall → Prop) (I : σ → List Event → Prop) : Prop where
  ask : ∀ call s j, kind call → I s j →
    I (w.store w.now call s).state (j ++ callEntries w call s)
  log : ∀ line s j, I s j → I s (j ++ [.log line])
  reads : ∀ count s j, I s j → I s (j ++ [.metric (.reads count)])

theorem getLast?_callEntries (w : Wiring σ) (call : StoreCall) (s : σ) (j : List Event) :
    (j ++ callEntries w call s).getLast? = some (.call call (w.store w.now call s).reply) := by
  unfold callEntries
  rw [← List.append_assoc, List.getLast?_concat]

variable {kind : StoreCall → Prop}

theorem Closed.and {J : σ → List Event → Prop} (hI : Closed w kind I) (hJ : Closed w kind J) :
    Closed w kind fun s j => I s j ∧ J s j :=
  ⟨fun call s j hcall h => ⟨hI.ask call s j hcall h.1, hJ.ask call s j hcall h.2⟩,
    fun line s j h => ⟨hI.log line s j h.1, hJ.log line s j h.2⟩,
    fun count s j h => ⟨hI.reads count s j h.1, hJ.reads count s j h.2⟩⟩

theorem closed_true (w : Wiring σ) : Closed w (fun _ => True) fun (_ : σ) _ => True :=
  ⟨fun _ _ _ _ _ => trivial, fun _ _ _ _ => trivial, fun _ _ _ _ => trivial⟩

theorem triple_ask_last (hI : Closed w kind I) (hcall : kind call) (h : I s j) :
    Triple (ask w call) s j
      (fun reply s' j' => I s' j' ∧ j'.getLast? = some (.call call reply)) E :=
  triple_ask ⟨hI.ask call s j hcall h, getLast?_callEntries w call s j⟩

theorem triple_demand_last (hI : Closed w kind I) (hcall : kind call) (h : I s j) :
    Triple (demand w call) s j
      (fun value s' j' => I s' j' ∧ j'.getLast? = some (.call call (.ok value)))
      (fun halt s' j' => I s' j' ∧ ∃ fault, halt = .fault fault ∧ Grounded fault j') := by
  have h' := hI.ask call s j hcall h
  have hlast := getLast?_callEntries w call s j
  refine triple_demand (fun value hvalue => ⟨h', ?_⟩) fun fault hfault => ?_
  · rw [hlast, hvalue]
  · refine ⟨h', fault, rfl, fun _ => ⟨call, ?_⟩⟩
    rw [hlast, hfault]

theorem raises_demand (hI : Closed w kind I) (hcall : kind call) : Raises I (demand w call) :=
  fun _ _ h => (triple_demand_last hI hcall h).mono (fun _ _ _ h' => h'.1) fun _ _ _ h' => h'

theorem triple_ask_cases (hI : Closed w kind I) (hcall : kind call) {f : Except Fault Value → Service σ α}
    (hok : ∀ value, Resolves I (f (.ok value))) (herror : ∀ fault, Handles I fault (f (.error fault))) :
    Resolves I (ask w call >>= f) := by
  intro s j h
  refine Triple.bind (triple_ask_last hI hcall h) ?_
  rintro reply s' j' ⟨h', hlast⟩
  cases reply with
  | ok value => exact hok value s' j' h'
  | error fault => exact herror fault s' j' h' fun _ => ⟨call, hlast⟩

theorem resolves_say (hI : Closed w kind I) (level : LogLevel) (component : Component) (text : String) :
    Resolves I (say level component text) :=
  fun s j h => triple_say (hI.log _ s j h)

theorem handles_explain (hI : Closed w kind I) (level : LogLevel) (component : Component)
    (lead : String) (fault : Fault) : Handles I fault (explain level component lead fault) := by
  intro s j h hgrounded
  refine triple_explain (fun text _ => hI.log _ s j h) fun hnone => ⟨h, rfl, ?_⟩
  obtain ⟨call, hlast⟩ := hgrounded hnone
  exact ⟨call, fault, hlast, hnone⟩

end

-- ---------------------------------------------------------------------------
-- The counter
-- ---------------------------------------------------------------------------

namespace Counter

section
variable {σ : Type} {w : Wiring σ} {I : σ → List Event → Prop} {kind : StoreCall → Prop}
variable (hI : Closed w kind I)

include hI

theorem handles_skipBucket (bucket : String) (fault : Fault) :
    Handles I fault (skipBucket (.text bucket) fault) := by
  unfold skipBucket
  rw [Value.asText_text, orReject_ok, pure_bind]
  exact handles_explain hI _ _ _ _

theorem raises_skipBucket (bucket : Value) {fault : Fault} (h : fault.message? ≠ none) :
    Raises I (skipBucket bucket fault) :=
  (raises_orReject (worded_asText bucket)).bind fun _ =>
    ((handles_explain hI _ _ _ _).resolves h).raises

theorem raises_decodeBucket (bucket value : Value) : Raises I (decodeBucket bucket value) := by
  have hworded := Codec.worded_integer bucket value
  unfold decodeBucket
  split
  · exact (resolves_pure _).raises
  · rename_i fault hfault
    split
    · exact (raises_skipBucket hI bucket (hworded fault hfault)).bind fun _ =>
        (resolves_pure _).raises
    · exact raises_fail (hworded fault hfault)

theorem raises_sumBuckets (total : Binary64) (items : List Value) :
    Raises I (sumBuckets total items) := by
  induction items generalizing total with
  | nil => exact (resolves_pure _).raises
  | cons item rest ih =>
    refine (raises_orReject (worded_pair item)).bind fun entry => ?_
    exact (raises_decodeBucket hI _ _).bind fun count => ih _

theorem resolves_addBucket (total : Binary64) (bucket : String) (value : Value) :
    Resolves I (addBucket total (.text bucket) value) := by
  refine resolves_rescue ?_ fun fault => ?_
  · exact (raises_decodeBucket hI _ _).bind fun _ => (resolves_pure _).raises
  · exact (handles_skipBucket hI bucket fault).bind fun _ => resolves_pure _

theorem resolves_readOneByOne (hget : ∀ key, kind (.get key)) (read : WindowRead)
    (buckets : List String) : Resolves I (readOneByOne w read buckets) := by
  induction buckets generalizing read with
  | nil => exact resolves_pure _
  | cons bucket rest ih =>
    refine triple_ask_cases hI (hget _) (fun value => ?_) fun fault => ?_
    · split
      · exact ih _
      · rename_i heq
        cases heq
        exact (resolves_addBucket hI _ _ _).bind fun _ => ih _
      · rename_i heq
        cases heq
    · exact (handles_skipBucket hI _ _).bind fun _ => ih _

theorem resolves_readBuckets (hrefusal : ∀ metric, w.refusal metric = none)
    (hget : ∀ key, kind (.get key)) (hmulti : ∀ keys, kind (.getMulti keys)) (name : String)
    (buckets : List String) : Resolves I (readBuckets w (.text name) buckets) := by
  have hobserve : Resolves I (observe w (.reads buckets.length)) :=
    fun s j h => triple_observe (hrefusal _) (hI.reads _ s j h)
  refine hobserve.bind fun _ => resolves_rescue ?_ fun fault => ?_
  · refine (raises_demand hI (hmulti _)).bind fun found => ?_
    refine (raises_orReject (worded_iterate _ _)).bind fun items => ?_
    exact (raises_sumBuckets hI _ _).bind fun total => (resolves_pure _).raises
  · unfold readBuckets.apart
    rw [Value.asText_text, orReject_ok, pure_bind]
    refine (handles_explain hI _ _ _ _).bind fun _ => ?_
    split
    · exact resolves_readOneByOne hI hget _ _
    · exact resolves_pure _

theorem resolves_readWindow (hrefusal : ∀ metric, w.refusal metric = none)
    (hget : ∀ key, kind (.get key)) (hmulti : ∀ keys, kind (.getMulti keys)) (name : String)
    (window : Binary64) (hids : (Bucket.ids? (Bucket.range (seconds w.now) window)).isSome = true) :
    Resolves I (readWindow w (.text name) window) := by
  obtain ⟨ids, hids⟩ := Option.isSome_iff_exists.mp hids
  unfold readWindow
  rw [hids]
  refine (resolves_orReject (bucketKeys_text name window ids)).bind fun _ => ?_
  exact resolves_readBuckets hI hrefusal hget hmulti name _

theorem resolves_assignTtl (bucket : String) (ttl : Binary64)
    (htouch : kind (.touch (.text bucket) (.number ttl)))
    (hset : kind (.set (.text bucket) (.number 1) (.number ttl))) :
    Resolves I (assignTtl w bucket ttl) := by
  refine resolves_rescue ?_ fun fault => handles_explain hI _ _ _ _
  refine (raises_demand hI htouch).bind fun reply => ?_
  split
  · exact (raises_demand hI hset).bind fun _ => (resolves_pure _).raises
  · exact (resolves_say hI _ _ _).raises
  · exact (resolves_pure _).raises

theorem triple_servable (hdemand : Triple (demand w .isInitialized) s j (fun _ => I) E)
    (operation name : String) (window : Binary64) :
    Triple (servable w operation (.text name) (.number window)) s j
      (fun served s' j' => I s' j' ∧ ∀ x, served = some x → validWindow? (.number window) = some x)
      E := by
  refine Triple.bind hdemand ?_
  intro initialized s' j' h'
  split
  · split
    · rename_i x hx
      refine Triple.pure ⟨h', fun y hy => ?_⟩
      cases hy
      exact hx
    · rw [Value.asText_number, Value.asText_text, orReject_ok, orReject_ok, pure_bind, pure_bind]
      refine Triple.bind (Q := fun _ => I) (triple_say (hI.log _ s' j' h')) ?_
      exact fun _ _ _ h'' => Triple.pure ⟨h'', fun _ hx => by cases hx⟩
  · refine Triple.bind (Q := fun _ => I) (triple_say (hI.log _ s' j' h')) ?_
    exact fun _ _ _ h'' => Triple.pure ⟨h'', fun _ hx => by cases hx⟩

end

end Counter

end SlidingTally
