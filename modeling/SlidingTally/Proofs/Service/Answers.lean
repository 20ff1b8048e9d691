import SlidingTally.Proofs.Service.Composite
import SlidingTally.Proofs.Service.FailOpen

/-!
# What a service makes of its answers

A service learns about its store from the answers to its calls and from nothing else. `Asks`
says what an action ends with once some answers were had, in terms of these and of the further
ones it asks for; `AsksOnly` says of which kind all that it asks for is. Both have a rule for
each step of a service. Main statement: `asksOnly_readWindow`.
-/

namespace SlidingTally

open SlidingTally.Action (Triple)

abbrev Answer := StoreCall × Except Fault Value

@[simp] theorem answers_log (line : LogLine) : answers [.log line] = [] := rfl

@[simp] theorem answers_metric (metric : Metric) : answers [.metric metric] = [] := rfl

theorem Unfinished.log (h : Unfinished j) (line : LogLine) : Unfinished (j ++ [.log line]) := by
  intro metric hmem
  rcases List.mem_append.mp hmem with hmem | hmem
  · exact h metric hmem
  · cases List.mem_singleton.mp hmem

section
variable {σ α β : Type} {w : Wiring σ} {given : List Answer}

/-- Once the answers `given` were had and no status was observed, the action observes none: it
replies so that `Q` holds of the reply and all answers, or halts so that `E` does. -/
def Asks (x : Service σ α) (given : List Answer) (Q : α → List Answer → Prop)
    (E : Halt → List Answer → Prop) : Prop :=
  ∀ s j, answers j = given → Unfinished j →
    Triple x s j (fun a _ j' => Q a (answers j') ∧ Unfinished j')
      fun halt _ j' => E halt (answers j') ∧ Unfinished j'

theorem Asks.mono {x : Service σ α} (h : Asks x given Q E)
    (hq : ∀ a given', Q a given' → Q' a given') (he : ∀ halt given', E halt given' → E' halt given') :
    Asks x given Q' E' :=
  fun s j hj hunfinished => (h s j hj hunfinished).mono (fun _ _ _ h => ⟨hq _ _ h.1, h.2⟩)
    fun _ _ _ h => ⟨he _ _ h.1, h.2⟩

theorem Asks.and {x : Service σ α} (h : Asks x given Q E) (h' : Asks x given Q' E') :
    Asks x given (fun a given' => Q a given' ∧ Q' a given')
      fun halt given' => E halt given' ∧ E' halt given' :=
  fun s j hj hunfinished => ((h s j hj hunfinished).and (h' s j hj hunfinished)).mono
    (fun _ _ _ h => ⟨⟨h.1.1, h.2.1⟩, h.1.2⟩) fun _ _ _ h => ⟨⟨h.1.1, h.2.1⟩, h.1.2⟩

theorem Asks.pure {a : α} (h : Q a given) : Asks (Pure.pure a : Service σ α) given Q E := by
  rintro s j rfl hunfinished
  exact Triple.pure ⟨h, hunfinished⟩

theorem Asks.fail (h : E halt given) : Asks (Action.fail halt : Service σ α) given Q E := by
  rintro s j rfl hunfinished
  exact Triple.fail ⟨h, hunfinished⟩

theorem Asks.bind {x : Service σ α} {f : α → Service σ β} (hx : Asks x given Q E)
    (hf : ∀ a given', Q a given' → Asks (f a) given' Q' E) : Asks (x >>= f) given Q' E :=
  fun s j hj hunfinished => Triple.bind (hx s j hj hunfinished) fun a s' j' h =>
    hf a _ h.1 s' j' rfl h.2

theorem asks_ask (h : ∀ s, Q (w.store w.now call s).reply
      (given ++ [(call, (w.store w.now call s).reply)])) : Asks (ask w call) given Q E := by
  rintro s j rfl hunfinished
  refine triple_ask ⟨?_, (closed_unfinished fun _ => True).ask call s j trivial hunfinished⟩
  rw [answers_append, answers_callEntries]
  exact h s

theorem asks_orReject {result : Except Fault α} (hok : ∀ a, result = .ok a → Q a given)
    (herror : ∀ fault, result = .error fault → E (.fault fault) given) :
    Asks (orReject result : Service σ α) given Q E := by
  rintro s j rfl hunfinished
  exact triple_orReject (fun a ha => ⟨hok a ha, hunfinished⟩)
    fun fault hfault => ⟨herror fault hfault, hunfinished⟩

theorem asks_demand
    (hok : ∀ s value, (w.store w.now call s).reply = .ok value →
      Q value (given ++ [(call, .ok value)]))
    (herror : ∀ s fault, (w.store w.now call s).reply = .error fault →
      E (.fault fault) (given ++ [(call, .error fault)])) :
    Asks (demand w call) given Q E := by
  refine Asks.bind (Q := fun reply given' => given' = given ++ [(call, reply)] ∧
    ∃ s, (w.store w.now call s).reply = reply) (asks_ask fun s => ⟨rfl, s, rfl⟩) ?_
  rintro reply _ ⟨rfl, s, hs⟩
  refine asks_orReject (fun value hvalue => ?_) fun fault hfault => ?_
  · rw [hvalue] at hs ⊢
    exact hok s value hs
  · rw [hfault] at hs ⊢
    exact herror s fault hs

theorem asks_rescue {x : Service σ α} {otherwise : Fault → Service σ α} (hx : Asks x given Q E)
    (hfault : ∀ fault given', E (.fault fault) given' → Asks (otherwise fault) given' Q E')
    (hendless : ∀ given', E .endless given' → E' .endless given') :
    Asks (rescue x otherwise) given Q E' :=
  fun s j hj hunfinished => triple_rescue (hx s j hj hunfinished)
    (fun fault s' j' h => hfault fault _ h.1 s' j' rfl h.2)
    fun _ _ h => ⟨hendless _ h.1, h.2⟩

theorem asks_say (h : Q () given) :
    Asks (say level component text : Service σ Unit) given Q E := by
  rintro s j rfl hunfinished
  refine triple_say ⟨?_, hunfinished.log _⟩
  rwa [answers_append, answers_log, List.append_nil]

theorem asks_explain (hok : Q () given) (herror : E (.fault .unwritable) given) :
    Asks (explain level component lead fault : Service σ Unit) given Q E :=
  (asks_orReject (fun _ _ => hok) fun other hother => by
    unfold Fault.describe at hother
    split at hother
    · cases hother
    · cases hother
      exact herror).bind fun _ _ h => asks_say h

theorem asks_observe_reads (hok : Q () given)
    (herror : ∀ fault, E (.fault fault) given) :
    Asks (observe w (.reads count)) given Q E := by
  unfold observe
  split
  · exact Asks.fail (herror _)
  · rintro s j rfl hunfinished
    refine Triple.record ⟨?_, (closed_unfinished (w := w) fun _ => True).reads count s j hunfinished⟩
    rwa [answers_append, answers_metric, List.append_nil]

-- ---------------------------------------------------------------------------
-- Kinds of answers
-- ---------------------------------------------------------------------------

def Adds (P : List Answer → Prop) (given given' : List Answer) : Prop :=
  ∃ new, given' = given ++ new ∧ P new

def Extends (kind : Answer → Prop) : List Answer → List Answer → Prop :=
  Adds fun new => ∀ answer ∈ new, kind answer

variable {kind : Answer → Prop}

theorem Adds.cons {P P' : List Answer → Prop} (h : Adds P (given ++ [answer]) given')
    (hcons : ∀ new, P new → P' (answer :: new)) : Adds P' given given' := by
  obtain ⟨new, rfl, hnew⟩ := h
  exact ⟨answer :: new, by rw [List.append_assoc, List.singleton_append], hcons new hnew⟩

theorem Adds.and {P P' : List Answer → Prop} (h : Adds P given given') (h' : Adds P' given given') :
    Adds (fun new => P new ∧ P' new) given given' := by
  obtain ⟨new, rfl, hnew⟩ := h
  obtain ⟨new', heq, hnew'⟩ := h'
  cases List.append_cancel_left heq
  exact ⟨new, rfl, hnew, hnew'⟩

theorem Extends.refl (given : List Answer) : Extends kind given given :=
  ⟨[], (List.append_nil _).symm, nofun⟩

theorem Extends.one (h : kind answer) : Extends kind given (given ++ [answer]) :=
  ⟨[answer], rfl, fun other hmem => by rwa [List.mem_singleton.mp hmem]⟩

theorem Extends.trans (h : Extends kind given given') (h' : Extends kind given' given'') :
    Extends kind given given'' := by
  obtain ⟨new, rfl, hnew⟩ := h
  obtain ⟨new', rfl, hnew'⟩ := h'
  refine ⟨new ++ new', List.append_assoc .., fun answer hmem => ?_⟩
  rcases List.mem_append.mp hmem with hmem | hmem
  · exact hnew answer hmem
  · exact hnew' answer hmem

def AsksOnly (kind : Answer → Prop) (x : Service σ α) : Prop :=
  ∀ given, Asks x given (fun _ => Extends kind given) fun _ => Extends kind given

theorem AsksOnly.bind {x : Service σ α} {f : α → Service σ β} (hx : AsksOnly kind x)
    (hf : ∀ a, AsksOnly kind (f a)) : AsksOnly kind (x >>= f) := by
  refine fun given => (hx given).bind fun a given' h => ?_
  exact (hf a given').mono (fun _ _ h' => h.trans h') fun _ _ h' => h.trans h'

theorem asksOnly_pure (a : α) : AsksOnly kind (pure a : Service σ α) :=
  fun given => Asks.pure (Extends.refl given)

theorem asksOnly_fail (halt : Halt) : AsksOnly kind (Action.fail halt : Service σ α) :=
  fun given => Asks.fail (Extends.refl given)

theorem asksOnly_ask (h : ∀ s, kind (call, (w.store w.now call s).reply)) :
    AsksOnly kind (ask w call) :=
  fun _ => asks_ask fun s => Extends.one (h s)

theorem asksOnly_rescue {x : Service σ α} {otherwise : Fault → Service σ α} (hx : AsksOnly kind x)
    (hfault : ∀ fault, AsksOnly kind (otherwise fault)) : AsksOnly kind (rescue x otherwise) := by
  refine fun given => asks_rescue (hx given) (fun fault given' h => ?_) fun _ h => h
  exact (hfault fault given').mono (fun _ _ h' => h.trans h') fun _ _ h' => h.trans h'

theorem asksOnly_observe_reads (count : Nat) : AsksOnly kind (observe w (.reads count)) :=
  fun given => asks_observe_reads (Extends.refl given) fun _ => Extends.refl given

variable (w) in
theorem composite_asksOnly :
    Composite w (fun call => ∀ s, kind (call, (w.store w.now call s).reply)) (AsksOnly kind) where
  pure := asksOnly_pure
  fail := asksOnly_fail
  bind := AsksOnly.bind
  rescue := asksOnly_rescue
  say _ _ _ given := asks_say (Extends.refl given)
  ask _ := asksOnly_ask

namespace Counter

theorem asksOnly_readWindow
    (hread : ∀ call, call.isRead = true → ∀ s, kind (call, (w.store w.now call s).reply))
    (name : Value) (window : Binary64) : AsksOnly kind (readWindow w name window) :=
  (composite_asksOnly w).readWindow (fun _ => hread _ rfl) (fun _ => hread _ rfl) asksOnly_observe_reads
    name window

theorem asksOnly_incrementBucket (hall : ∀ call s, kind (call, (w.store w.now call s).reply))
    (bucket : String) (ttl : Binary64) : AsksOnly kind (incrementBucket w bucket ttl) :=
  (composite_asksOnly w).incrementBucket bucket ttl fun call _ => hall call

end Counter

end

end SlidingTally
