import SlidingTally.Proofs.Service.Request
import SlidingTally.Proofs.Service.Resolution
import SlidingTally.Proofs.Window.Enumeration

/-!
# Services fail open

Over any store that says whether it is initialized, a call of a service ends with a status or it
rejects for the one reason of `Unexplained`. A counter call that wrote nothing replies with zero, a
read with the fallback exactly when there is nothing better, and a write with nothing. Main
statement: `outcomes_conform`.
-/

namespace SlidingTally

open SlidingTally.Action (Triple)

-- ---------------------------------------------------------------------------
-- What a journal shows
-- ---------------------------------------------------------------------------

/-- A call that wrote an occurrence: an increment with a count or a bucket that was added. -/
def Event.wrote : Event → Bool
  | .call (.increment _) (.ok count) => !count.isNull
  | .call (.addIfAbsent _ _ _) (.ok added) => added.truthy
  | _ => false

def Wrote (j : List Event) : Prop := ∃ event ∈ j, event.wrote = true

def Unfinished (j : List Event) : Prop :=
  ∀ metric, Event.metric metric ∈ j → ∃ count, metric = .reads count

def Finished (j : List Event) : Prop := ∃ metric, j.getLast? = some (.metric metric)

def answers (j : List Event) : List (StoreCall × Except Fault Value) :=
  j.filterMap fun
    | .call call reply => some (call, reply)
    | _ => none

theorem Wrote.append (h : Wrote j) (new : List Event) : Wrote (j ++ new) := by
  obtain ⟨event, hmem, hwrote⟩ := h
  exact ⟨event, List.mem_append_left _ hmem, hwrote⟩

theorem wrote_of_getLast? (h : j.getLast? = some event) (hwrote : event.wrote = true) : Wrote j :=
  ⟨event, List.mem_of_getLast? h, hwrote⟩

theorem finished_concat (j : List Event) (metric : Metric) : Finished (j ++ [.metric metric]) :=
  ⟨metric, List.getLast?_concat⟩

theorem Finished.not_endsUnworded (h : Finished j) : ¬EndsUnworded j := by
  obtain ⟨metric, hmetric⟩ := h
  rintro ⟨call, fault, hcall, -⟩
  rw [hmetric] at hcall
  cases hcall

theorem mem_callEntries {w : Wiring σ} (h : event ∈ callEntries w call s) :
    (∃ line, event = .log line) ∨ event = .call call (w.store w.now call s).reply := by
  rcases List.mem_append.mp h with h | h
  · obtain ⟨line, -, rfl⟩ := List.mem_map.mp h
    exact .inl ⟨line, rfl⟩
  · exact .inr (List.mem_singleton.mp h)

@[simp] theorem answers_append (j new : List Event) : answers (j ++ new) = answers j ++ answers new :=
  List.filterMap_append ..

@[simp] theorem answers_callEntries (w : Wiring σ) (call : StoreCall) (s : σ) :
    answers (callEntries w call s) = [(call, (w.store w.now call s).reply)] := by
  unfold callEntries
  rw [answers_append]
  have hlogs : ∀ lines : List LogLine, answers (lines.map Event.log) = [] := by
    intro lines
    induction lines with
    | nil => rfl
    | cons line rest ih => exact ih
  rw [hlogs]
  rfl

section
variable {σ : Type} {w : Wiring σ}

theorem closed_unfinished (kind : StoreCall → Prop) :
    Closed w kind fun (_ : σ) j => Unfinished j := by
  refine ⟨fun call s j _ h metric hmem => ?_, fun line s j h metric hmem => ?_,
    fun count s j h metric hmem => ?_⟩
  · rcases List.mem_append.mp hmem with hmem | hmem
    · exact h metric hmem
    · rcases mem_callEntries hmem with ⟨line, heq⟩ | heq <;> cases heq
  · rcases List.mem_append.mp hmem with hmem | hmem
    · exact h metric hmem
    · cases List.mem_singleton.mp hmem
  · rcases List.mem_append.mp hmem with hmem | hmem
    · exact h metric hmem
    · cases List.mem_singleton.mp hmem
      exact ⟨count, rfl⟩

theorem closed_wrote (kind : StoreCall → Prop) : Closed w kind fun (_ : σ) j => Wrote j :=
  ⟨fun _ _ _ _ h => h.append _, fun _ _ _ h => h.append _, fun _ _ _ h => h.append _⟩

end

-- ---------------------------------------------------------------------------
-- Writing a bucket
-- ---------------------------------------------------------------------------

namespace Counter

section
variable {σ : Type} {w : Wiring σ} {I : σ → List Event → Prop} {kind : StoreCall → Prop}
variable (hI : Closed w kind I) (hall : ∀ call, kind call)

include hI hall

theorem triple_create (bucket : String) (ttl : Binary64) (h : I s j) :
    Triple (createBucket.create w bucket ttl) s j
      (fun written s' j' => I s' j' ∧ (written.isNull = false → Wrote j'))
      (fun halt s' j' => I s' j' ∧ ∃ fault, halt = .fault fault ∧ Grounded fault j') := by
  refine Triple.bind (triple_demand_last hI (hall _) h) ?_
  rintro added s' j' ⟨h', hadded⟩
  split
  · rename_i htruthy
    exact Triple.pure ⟨h', fun _ => wrote_of_getLast? hadded htruthy⟩
  · refine Triple.bind (triple_demand_last hI (hall _) h') ?_
    rintro count s'' j'' ⟨h'', hcount⟩
    have hwrote (hnull : count.isNull = false) : Wrote j'' :=
      wrote_of_getLast? hcount (by simp [Event.wrote, hnull])
    dsimp only
    split
    · rename_i hnull
      refine Triple.bind (Q := fun _ => I) ?_ fun _ s₃ j₃ h₃ =>
        Triple.pure ⟨h₃, fun hne => absurd hnull (by simp [hne])⟩
      exact triple_say (hI.log _ _ _ h'')
    · exact Triple.pure ⟨h'', hwrote⟩

theorem triple_createBucket (bucket : String) (ttl : Binary64) (h : I s j) :
    Triple (createBucket w bucket ttl) s j
      (fun written s' j' => I s' j' ∧ (written.isNull = false → Wrote j'))
      (fun halt s' j' => I s' j' ∧ Unexplained halt j') := by
  refine triple_rescue (triple_create hI hall bucket ttl h) ?_ ?_
  · rintro fault s' j' ⟨h', fault', heq, hgrounded⟩
    cases heq
    refine Triple.bind (handles_explain hI _ _ _ fault s' j' h' hgrounded) ?_
    exact fun _ s'' j'' h'' => Triple.pure ⟨h'', nofun⟩
  · rintro s' j' ⟨_, fault, heq, _⟩
    cases heq

theorem triple_incrementBucket (bucket : String) (ttl : Binary64) (h : I s j) :
    Triple (incrementBucket w bucket ttl) s j
      (fun written s' j' => I s' j' ∧ (written.isNull = false → Wrote j'))
      (fun halt s' j' => I s' j' ∧ Unexplained halt j') := by
  have hcreate {s : σ} {j : List Event} (h : I s j) := triple_createBucket hI hall bucket ttl h
  refine Triple.bind (triple_ask_last hI (hall _) h) ?_
  rintro reply s' j' ⟨h', hlast⟩
  split
  · exact hcreate h'
  · rename_i count hcount
    have hwrote : Wrote j' := by
      refine wrote_of_getLast? hlast ?_
      cases count with
      | null => exact absurd rfl hcount
      | _ => rfl
    have hassign := resolves_assignTtl (hI.and (closed_wrote kind)) bucket ttl (hall _) (hall _)
    dsimp only
    split
    · refine Triple.bind ((hassign s' j' ⟨h', hwrote⟩).mono (fun _ _ _ h => h) ?_) ?_
      · exact fun _ _ _ h => ⟨h.1.1, h.2⟩
      · exact fun _ s'' j'' h'' => Triple.pure ⟨h''.1, fun _ => h''.2⟩
    · exact Triple.pure ⟨h', fun _ => hwrote⟩
  · rename_i fault
    split
    · exact hcreate h'
    · refine Triple.bind (handles_explain hI _ _ _ fault s' j' h' fun _ => ⟨_, hlast⟩) ?_
      exact fun _ s'' j'' h'' => Triple.pure ⟨h'', nofun⟩

end

-- ---------------------------------------------------------------------------
-- The two operations
-- ---------------------------------------------------------------------------

section
variable {σ : Type} {w : Wiring σ} {window : Binary64}
variable (hinit : ∀ s, ∃ b, (w.store w.now .isInitialized s).reply = .ok (.bool b))

include hinit

theorem triple_demand_isInitialized {I : σ → List Event → Prop} (hI : Closed w kind I)
    (hall : ∀ call, kind call) (h : I s j) :
    Triple (demand w .isInitialized) s j (fun _ => I) E := by
  refine triple_demand (fun _ _ => hI.ask _ s j (hall _) h) fun fault hfault => ?_
  obtain ⟨b, hb⟩ := hinit s
  rw [hb] at hfault
  cases hfault

variable (hrefusal : ∀ metric, w.refusal metric = none)
variable (hids : ∀ x, validWindow? (.number window) = some x →
  (Bucket.ids? (Bucket.range (seconds w.now) x)).isSome = true)

include hrefusal hids

theorem triple_increment (name : String) (maxTtl : Value) (s : σ) :
    Triple (increment w (.text name) (.number window) maxTtl) s []
      (fun total _ j => Finished j ∧ (.metric (.increment .skip) ∈ j ∨
        .metric (.increment .error) ∈ j ∨ ¬Wrote j → total = .number 0))
      (fun halt _ j => Unexplained halt j) := by
  have hall (call : StoreCall) : (fun _ => True : StoreCall → Prop) call := trivial
  have hI := closed_unfinished (w := w) fun _ => True
  have hstart : Unfinished [] := nofun
  refine Triple.bind
    (triple_servable hI (triple_demand_isInitialized hinit hI hall hstart) _ name window) ?_
  rintro served s' j' ⟨h', hserved⟩
  cases served with
  | none =>
    refine Triple.bind (Q := fun _ _ j => Finished j) ?_ fun _ _ _ h => Triple.pure ⟨h, fun _ => rfl⟩
    exact triple_observe (hrefusal _) (finished_concat _ _)
  | some x =>
    dsimp only
    rw [Value.asText_text, orReject_ok, pure_bind]
    refine Triple.bind ((triple_incrementBucket hI hall _ _ h').mono (fun _ _ _ h => h)
      fun _ _ _ h => h.2) ?_
    rintro written s'' j'' ⟨h'', hwrote⟩
    split
    · refine Triple.bind (Q := fun _ _ j => Finished j) ?_
        fun _ _ _ h => Triple.pure ⟨h, fun _ => rfl⟩
      exact triple_observe (hrefusal _) (finished_concat _ _)
    · rename_i hnull
      have hwrote := hwrote (Value.isNull_of_ne hnull)
      have hread := resolves_readWindow (hI.and (closed_wrote _)) hrefusal (fun _ => trivial)
        (fun _ => trivial) name x (hids x (hserved x rfl))
      refine Triple.bind ((hread s'' j'' ⟨h'', hwrote⟩).mono (fun _ _ _ h => h) fun _ _ _ h => h.2) ?_
      rintro read s₃ j₃ ⟨hunfinished, hwrote⟩
      refine Triple.bind (Q := fun _ _ j => j = j₃ ++ [.metric (.increment .ok)])
        (triple_observe (hrefusal _) rfl) ?_
      rintro _ s₄ _ rfl
      refine Triple.pure ⟨finished_concat _ _, ?_⟩
      have hstatus (status : Status) (hne : status ≠ .ok) :
          .metric (.increment status) ∉ j₃ ++ [.metric (.increment .ok)] := by
        intro hmem
        rcases List.mem_append.mp hmem with hmem | hmem
        · obtain ⟨count, heq⟩ := hunfinished _ hmem
          cases heq
        · cases List.mem_singleton.mp hmem
          exact hne rfl
      rintro (hskip | herror | hnone)
      · exact absurd hskip (hstatus .skip nofun)
      · exact absurd herror (hstatus .error nofun)
      · exact absurd (hwrote.append _) hnone

theorem triple_query (name : String) (s : σ) :
    Triple (query w (.text name) (.number window)) s []
      (fun total _ j => Finished j ∧ (.metric (.query .skip) ∈ j → total = .number 0))
      (fun halt _ j => Unexplained halt j) := by
  have hall (call : StoreCall) : (fun _ => True : StoreCall → Prop) call := trivial
  have hI := closed_unfinished (w := w) fun _ => True
  have hstart : Unfinished [] := nofun
  refine Triple.bind
    (triple_servable hI (triple_demand_isInitialized hinit hI hall hstart) _ name window) ?_
  rintro served s' j' ⟨h', hserved⟩
  cases served with
  | none =>
    refine Triple.bind (Q := fun _ _ j => Finished j) ?_ fun _ _ _ h => Triple.pure ⟨h, fun _ => rfl⟩
    exact triple_observe (hrefusal _) (finished_concat _ _)
  | some x =>
    have hread := resolves_readWindow hI hrefusal (fun _ => trivial) (fun _ => trivial) name x
      (hids x (hserved x rfl))
    refine Triple.bind ((hread s' j' h').mono (fun _ _ _ h => h) fun _ _ _ h => h.2) ?_
    intro read s'' j'' hunfinished
    refine Triple.bind (Q := fun _ _ j =>
        j = j'' ++ [.metric (.query (if read.reached then .ok else .error))])
      (triple_observe (hrefusal _) rfl) ?_
    rintro _ s₃ _ rfl
    refine Triple.pure ⟨finished_concat _ _, fun hskip => ?_⟩
    rcases List.mem_append.mp hskip with hmem | hmem
    · obtain ⟨count, heq⟩ := hunfinished _ hmem
      cases heq
    · have heq := List.mem_singleton.mp hmem
      split at heq <;> cases heq

end

end Counter

-- ---------------------------------------------------------------------------
-- Typed values
-- ---------------------------------------------------------------------------

namespace KeyValue

def decoded (fallback : Value) (decode : Value → Except Fault Value) : Except Fault Value → Value
  | .ok .null => fallback
  | .ok value => match decode value with
    | .ok result => result
    | .error _ => fallback
  | .error _ => fallback

theorem decoded_value {value : Value} (h : value.isNull = false) (fallback : Value)
    (decode : Value → Except Fault Value) :
    decoded fallback decode (.ok value) = match decode value with
      | .ok result => result
      | .error _ => fallback := by
  cases value with
  | null => cases h
  | _ => rfl

def ReadFrom (key : Key) (fallback : Value) (decode : Value → Except Fault Value) (result : Value)
    (given : List (StoreCall × Except Fault Value)) : Prop :=
  given = [(.isInitialized, .ok (.bool false))] ∧ result = fallback ∨
    ∃ reply, given = [(.isInitialized, .ok (.bool true)), (.get key, reply)] ∧
      result = decoded fallback decode reply

section
variable {σ : Type} {w : Wiring σ} {key : Key}
variable (hinit : ∀ s, ∃ b, (w.store w.now .isInitialized s).reply = .ok (.bool b))
variable (hrefusal : ∀ metric, w.refusal metric = none)
variable (hkey : key.value.asText = .ok text)

include hkey in
theorem triple_complain (what : String) (fault : Fault) (hgrounded : Grounded fault j) :
    Triple (complain what key fault) s j (fun _ _ j' => answers j' = answers j)
      (fun halt _ j' => Unexplained halt j') := by
  unfold complain
  rw [hkey, orReject_ok, pure_bind]
  refine triple_explain (fun _ _ => ?_) fun hnone => ⟨rfl, ?_⟩
  · rw [answers_append]
    exact List.append_nil _
  · obtain ⟨call, hlast⟩ := hgrounded hnone
    exact ⟨call, fault, hlast, hnone⟩

include hrefusal in
theorem triple_finish (operation : KeyValueOperation) (status : Status) (result : Value) :
    Triple (read.finish w operation status result) s j
      (fun reply _ j' => reply = result ∧ Finished j' ∧ answers j' = answers j) E := by
  refine Triple.bind (Q := fun _ _ j' => Finished j' ∧ answers j' = answers j) ?_
    fun _ _ j' h => Triple.pure ⟨rfl, h⟩
  refine triple_observe (hrefusal _) ⟨finished_concat _ _, ?_⟩
  rw [answers_append]
  exact List.append_nil _

include hinit in
theorem triple_isInitialized (s : σ) :
    Triple (demand w .isInitialized) s []
      (fun reply _ j => ∃ b, reply = .bool b ∧ answers j = [(.isInitialized, .ok (.bool b))])
      (fun halt _ j => Unexplained halt j) := by
  obtain ⟨b, hb⟩ := hinit s
  refine triple_demand (fun reply hreply => ?_) fun fault hfault => ?_
  · rw [hb] at hreply
    cases hreply
    refine ⟨b, rfl, ?_⟩
    rw [List.nil_append, answers_callEntries, hb]
  · rw [hb] at hfault
    cases hfault

theorem grounded_callEntries {w : Wiring σ} {call : StoreCall}
    (hfault : (w.store w.now call s).reply = .error fault) : Grounded fault (j ++ callEntries w call s) := by
  intro _
  refine ⟨call, ?_⟩
  rw [getLast?_callEntries, hfault]

include hinit hrefusal hkey in
theorem triple_read (operation : KeyValueOperation) (fallback : Value)
    {decode : Value → Except Fault Value} (hdecode : ∀ value, Worded (decode value)) (s : σ) :
    Triple (read w operation key fallback decode) s []
      (fun result _ j => Finished j ∧ ReadFrom key fallback decode result (answers j))
      (fun halt _ j => Unexplained halt j) := by
  refine Triple.bind (triple_isInitialized hinit s) ?_
  rintro _ s' j' ⟨b, rfl, hanswers⟩
  cases b with
  | false =>
    refine (triple_finish hrefusal operation .skip fallback).mono ?_ fun _ _ _ h => h
    rintro result s'' j'' ⟨rfl, hfinished, hj''⟩
    exact ⟨hfinished, .inl ⟨by rw [hj'', hanswers], rfl⟩⟩
  | true =>
    have hread {reply : Except Fault Value} {j'' : List Event} {result : Value}
        (hj'' : answers j'' = answers j' ++ [(.get key, reply)])
        (hresult : result = decoded fallback decode reply) :
        ReadFrom key fallback decode result (answers j'') :=
      .inr ⟨reply, by rw [hj'', hanswers]; rfl, hresult⟩
    refine triple_rescue (E := fun halt _ j'' => ∃ fault reply, halt = .fault fault ∧
      Grounded fault j'' ∧ answers j'' = answers j' ++ [(.get key, reply)] ∧
      fallback = decoded fallback decode reply) ?_ ?_ ?_
    · refine Triple.bind (Q := fun value _ j'' =>
        answers j'' = answers j' ++ [(.get key, .ok value)]) ?_ ?_
      · refine triple_demand (fun value hvalue => ?_) fun fault hfault => ?_
        · rw [answers_append, answers_callEntries, hvalue]
        · refine ⟨fault, .error fault, rfl, grounded_callEntries hfault, ?_, rfl⟩
          rw [answers_append, answers_callEntries, hfault]
      · intro value s'' j'' hvalue
        have hfinish {result : Value} (hresult : result = decoded fallback decode (.ok value)) :
            Triple (read.finish w operation .ok result) s'' j''
              (fun result _ j => Finished j ∧ ReadFrom key fallback decode result (answers j))
              (fun halt _ j'' => ∃ fault reply, halt = .fault fault ∧ Grounded fault j'' ∧
                answers j'' = answers j' ++ [(.get key, reply)] ∧
                fallback = decoded fallback decode reply) := by
          refine (triple_finish hrefusal operation .ok result).mono ?_ fun _ _ _ h => h
          rintro _ s₃ j₃ ⟨rfl, hfinished, hj₃⟩
          exact ⟨hfinished, hread (hj₃.trans hvalue) hresult⟩
        split
        · rename_i hnull
          rw [pure_bind]
          cases value with
          | null => exact hfinish rfl
          | _ => cases hnull
        · rename_i hnull
          have hdecoded := decoded_value (Bool.eq_false_iff.mpr hnull) fallback decode
          cases hresult : decode value with
          | ok result =>
            rw [hresult] at hdecoded
            rw [orReject_ok, pure_bind]
            exact hfinish hdecoded.symm
          | error fault =>
            rw [hresult] at hdecoded
            exact Triple.bind (Q := fun _ _ _ => False) (Triple.fail ⟨fault, _, rfl,
              grounded_of_message (hdecode value fault hresult) j'', hvalue, hdecoded.symm⟩)
              fun _ _ _ h => h.elim
    · rintro fault s'' j'' ⟨fault', reply, heq, hgrounded, hj'', hfallback⟩
      cases heq
      refine Triple.bind (triple_complain hkey _ fault hgrounded) ?_
      intro _ s₃ j₃ hj₃
      refine (triple_finish (E := fun _ _ _ => False) hrefusal operation .error fallback).mono ?_
        fun _ _ _ h => h.elim
      rintro _ s₄ j₄ ⟨rfl, hfinished, hj₄⟩
      exact ⟨hfinished, hread (hj₄.trans (hj₃.trans hj'')) hfallback⟩
    · rintro s'' j'' ⟨fault, reply, heq, -⟩
      cases heq

include hinit hrefusal hkey in
theorem triple_set (value ttl : Value) (s : σ) :
    Triple (set w key value ttl) s [] (fun _ _ j => Finished j) (fun halt _ j => Unexplained halt j) := by
  have hfinish {j : List Event} {s : σ} (status : Status) :
      Triple (set.finish w status) s j (fun _ _ j => Finished j) (fun _ _ _ => False) :=
    triple_observe (hrefusal _) (finished_concat _ _)
  refine Triple.bind (triple_isInitialized hinit s) ?_
  rintro _ s' j' ⟨b, rfl, -⟩
  cases b with
  | false => exact (hfinish .skip).mono (fun _ _ _ h => h) fun _ _ _ h => h.elim
  | true =>
    refine triple_rescue (E := fun halt _ j => ∃ fault, halt = .fault fault ∧ Grounded fault j)
      ?_ ?_ ?_
    · refine Triple.bind (Q := fun _ _ _ => True) ?_ ?_
      · exact triple_demand (fun _ _ => trivial) fun fault hfault =>
          ⟨fault, rfl, grounded_callEntries hfault⟩
      · exact fun _ s'' j'' _ => (hfinish .ok).mono (fun _ _ _ h => h) fun _ _ _ h => h.elim
    · rintro fault s'' j'' ⟨fault', heq, hgrounded⟩
      cases heq
      refine Triple.bind (triple_complain hkey _ fault hgrounded) ?_
      exact fun _ s₃ j₃ _ => (hfinish .error).mono (fun _ _ _ h => h) fun _ _ _ h => h.elim
    · rintro s'' j'' ⟨fault, heq, -⟩
      cases heq

end

end KeyValue

-- ---------------------------------------------------------------------------
-- All requests
-- ---------------------------------------------------------------------------

namespace Request

def reading? : Request ω → Option (Key × Value × (Value → Except Fault Value))
  | .getText key fallback =>
    some (key, fallback.orDefault (.text ""), fun value => (Codec.text value).map .text)
  | .getInteger key fallback =>
    some (key, fallback.orDefault (.number .zero), fun value =>
      (Codec.integer key.value value).map .number)
  | .getFloat key fallback =>
    some (key, fallback.orDefault (.number .zero), fun value =>
      (Codec.float key.value value).map .number)
  | _ => none

/-- What the services are made for: a window that is refused or in reach of the clock, and a key
that can be written down. -/
def Sensible (now : Binary64) : Request Binary64 → Prop
  | .increment _ window _ =>
    window.isFinite = false ∨ Binary64.zero.lt window = false ∨ Bucket.InReach now window
  | .query _ window =>
    window.isFinite = false ∨ Binary64.zero.lt window = false ∨ Bucket.InReach now window
  | .getText key _ => key.value.toText?.isSome
  | .getInteger key _ => key.value.toText?.isSome
  | .getFloat key _ => key.value.toText?.isSome
  | .set key _ _ => key.value.toText?.isSome

def Fruitless (j : List Event) : Request ω → Prop
  | .increment _ _ _ =>
    .metric (.increment .skip) ∈ j ∨ .metric (.increment .error) ∈ j ∨ ¬Wrote j
  | .query _ _ => .metric (.query .skip) ∈ j
  | _ => False

end Request

/-- A read that has nothing better than its fallback: the store is not initialized, its call fails
or finds nothing, or the value cannot be read or reads as the fallback. -/
def Defaulted (key : Key) (fallback : Value) (decode : Value → Except Fault Value)
    (j : List Event) : Prop :=
  (.isInitialized, .ok (.bool false)) ∈ answers j ∨
  (∃ fault, (.get key, .error fault) ∈ answers j) ∨
  (.get key, .ok .null) ∈ answers j ∨
  ∃ value, (.get key, .ok value) ∈ answers j ∧ value.isNull = false ∧
    ((∃ fault, decode value = .error fault) ∨ decode value = .ok fallback)

/-- What a request may come to, whatever the store does. -/
structure Conforms (request : Request ω) (o : Outcome Event Halt σ Value) : Prop where
  rejects : (∃ halt, o.reply = .error halt) ↔ EndsUnworded o.journal
  halts : ∀ halt, o.reply = .error halt → halt = .fault .unwritable
  zero : ∀ value, o.reply = .ok value → request.Fruitless o.journal → value = .number 0
  fallback : ∀ key fallback decode value, request.reading? = some (key, fallback, decode) →
    o.reply = .ok value → (value = fallback ↔ Defaulted key fallback decode o.journal)
  nothing : ∀ key given ttl value, request = .set key given ttl → o.reply = .ok value →
    value = .undefined

theorem KeyValue.ReadFrom.defaulted_iff (h : ReadFrom key fallback decode result (answers j)) :
    result = fallback ↔ Defaulted key fallback decode j := by
  unfold Defaulted
  rcases h with ⟨hanswers, rfl⟩ | ⟨reply, hanswers, rfl⟩
  · rw [hanswers]
    simp
  · rw [hanswers]
    cases reply with
    | error fault => simp [decoded]
    | ok value =>
      cases hnull : value.isNull with
      | true =>
        cases value with
        | null => simp [decoded]
        | _ => cases hnull
      | false =>
        rw [decoded_value hnull]
        have hne : value ≠ .null := by
          rintro rfl
          cases hnull
        cases hdecode : decode value with
        | ok result => simp [hne.symm, hnull, hdecode]
        | error fault => simp [hne.symm, hnull, hdecode]

theorem conforms_of_triple {x : Service σ Value} {request : Request ω}
    {P : Value → List Event → Prop}
    (h : Triple x s [] (fun value _ j => Finished j ∧ P value j) fun halt _ j => Unexplained halt j)
    (hzero : ∀ value j, P value j → request.Fruitless j → value = .number 0)
    (hfallback : ∀ key fallback decode value j, request.reading? = some (key, fallback, decode) →
      P value j → (value = fallback ↔ Defaulted key fallback decode j))
    (hnothing : ∀ key given ttl value j, request = .set key given ttl → P value j →
      value = .undefined) : Conforms request (x s) := by
  unfold Triple at h
  rw [List.nil_append] at h
  split at h
  · rename_i value hvalue
    obtain ⟨hfinished, hP⟩ := h
    have hends := hfinished.not_endsUnworded
    refine ⟨⟨?_, fun hnot => absurd hnot hends⟩, ?_, ?_, ?_, ?_⟩
    · rintro ⟨halt, hhalt⟩
      rw [hvalue] at hhalt
      cases hhalt
    · intro halt hhalt
      rw [hvalue] at hhalt
      cases hhalt
    · intro other hother
      rw [hvalue] at hother
      cases hother
      exact hzero value _ hP
    · intro key fallback decode other hreading hother
      rw [hvalue] at hother
      cases hother
      exact hfallback key fallback decode value _ hreading hP
    · intro key given ttl other hset hother
      rw [hvalue] at hother
      cases hother
      exact hnothing key given ttl value _ hset hP
  · rename_i halt hhalt
    have hnone (value : Value) : (x s).reply ≠ .ok value := by
      rw [hhalt]
      nofun
    refine ⟨⟨fun _ => h.2, fun _ => ⟨halt, hhalt⟩⟩, ?_, ?_, ?_, ?_⟩
    · intro other hother
      rw [hhalt] at hother
      cases hother
      exact h.1
    · exact fun value hvalue => absurd hvalue (hnone value)
    · exact fun _ _ _ value _ hvalue => absurd hvalue (hnone value)
    · exact fun _ _ _ value _ hvalue => absurd hvalue (hnone value)

section
variable {σ : Type} {store : CounterStore σ}
variable (hinit : ∀ now s, ∃ b, (store now .isInitialized s).reply = .ok (.bool b))

include hinit

theorem conforms_reading {key : Key} (hkey : key.value.toText?.isSome = true)
    {fallback : Value} {decode : Value → Except Fault Value} (hdecode : ∀ value, Worded (decode value))
    {request : Request Binary64} (hreading : request.reading? = some (key, fallback, decode))
    (operation : KeyValueOperation) (now : Binary64) (s : σ) :
    Conforms request
      (KeyValue.read { store := store, now := now } operation key fallback decode s) := by
  obtain ⟨text, htext⟩ := Option.isSome_iff_exists.mp hkey
  have hasText : key.value.asText = .ok text := by simp [Value.asText, htext]
  have htriple := KeyValue.triple_read (w := { store := store, now := now }) (hinit now)
    (fun _ => rfl) hasText operation fallback hdecode s
  refine conforms_of_triple htriple ?_ ?_ ?_
  · intro value j _ hfruitless
    cases request with
    | increment name window maxTtl => cases hreading
    | query name window => cases hreading
    | _ => cases hfruitless
  · intro key' fallback' decode' value j hreading' hP
    rw [hreading] at hreading'
    cases hreading'
    exact hP.defaulted_iff
  · rintro key' given ttl value j rfl
    cases hreading

theorem conforms_serveAt {call : Binary64 × Request Binary64} (h : call.2.Sensible call.1) (s : σ) :
    Conforms call.2 (Request.serveAt store call s) := by
  obtain ⟨now, request⟩ := call
  have hreach {window : Binary64} (hwindow : window.isFinite = false ∨
      Binary64.zero.lt window = false ∨ Bucket.InReach now window) (x : Binary64)
      (hx : Counter.validWindow? (.number window) = some x) :
      (Bucket.ids? (Bucket.range (Counter.seconds now) x)).isSome = true := by
    obtain ⟨hnumber, hvalid⟩ := Option.filter_eq_some_iff.mp hx
    cases hnumber
    rw [Bool.and_eq_true] at hvalid
    rcases hwindow with hinfinite | hnegative | hreach
    · rw [hinfinite] at hvalid
      exact absurd hvalid.1 (by decide)
    · rw [hnegative] at hvalid
      exact absurd hvalid.2 (by decide)
    · exact hreach.ids?_isSome
  cases request with
  | increment name window maxTtl =>
    refine conforms_of_triple (Counter.triple_increment (w := { store := store, now := now })
      (hinit now) (fun _ => rfl) (hreach h) name maxTtl s) ?_ ?_ ?_
    · exact fun value j hzero hfruitless => hzero hfruitless
    · exact fun _ _ _ _ _ hreading => by cases hreading
    · exact fun _ _ _ _ _ hset => by cases hset
  | query name window =>
    refine conforms_of_triple (Counter.triple_query (w := { store := store, now := now })
      (hinit now) (fun _ => rfl) (hreach h) name s) ?_ ?_ ?_
    · exact fun value j hzero hfruitless => hzero hfruitless
    · exact fun _ _ _ _ _ hreading => by cases hreading
    · exact fun _ _ _ _ _ hset => by cases hset
  | getText key fallback =>
    exact conforms_reading hinit h (fun value => worded_map _ (worded_asText value)) rfl _ now s
  | getInteger key fallback =>
    exact conforms_reading hinit h (fun value => worded_map _ (Codec.worded_integer _ value)) rfl _
      now s
  | getFloat key fallback =>
    exact conforms_reading hinit h (fun value => worded_map _ (Codec.worded_float _ value)) rfl _
      now s
  | set key value ttl =>
    obtain ⟨text, htext⟩ := Option.isSome_iff_exists.mp h
    have hasText : key.value.asText = .ok text := by simp [Value.asText, htext]
    refine conforms_of_triple (P := fun result _ => result = .undefined) ?_
      (fun _ _ _ hfruitless => hfruitless.elim) (fun _ _ _ _ _ hreading => by cases hreading)
      fun _ _ _ _ _ _ hresult => hresult
    exact Triple.bind (KeyValue.triple_set (w := { store := store, now := now }) (hinit now)
      (fun _ => rfl) hasText value ttl s) fun _ _ _ hfinished => Triple.pure ⟨hfinished, rfl⟩

/-- Over any store that says whether it is initialized, every call of a run resolves unless it
ends with a store call that fails with a fault without a wording, and resolves to what it should. -/
theorem outcomes_conform (s : σ) (calls : List (Binary64 × Request Binary64))
    (h : ∀ call ∈ calls, call.2.Sensible call.1) :
    List.Forall₂ (fun call o => Conforms call.2 o) calls
      (Action.outcomes (Request.serveAt store) s calls) :=
  Action.forall_outcomes calls s fun call hmem s => conforms_serveAt hinit (h call hmem) s

end

def unwordedStore : CounterStore Unit := fun _ call =>
  match call with
  | .isInitialized => pure (.bool true)
  | _ => Action.fail (.thrown (.record [(Value.textField, .number 1)]))

theorem outcomes_conform_unworded :
    let calls : List (Binary64 × Request Binary64) :=
      [(0, .increment "a" 60 .undefined), (1, .query "a" .nan), (2, .getText (.text "a") .undefined)]
    List.Forall₂ (fun call o => Conforms call.2 o) calls
      (Action.outcomes (Request.serveAt unwordedStore) () calls) := by
  have hinit : ∀ now s, ∃ b, (unwordedStore now .isInitialized s).reply = .ok (.bool b) :=
    fun _ _ => ⟨true, rfl⟩
  refine outcomes_conform hinit () _ ?_
  rw [List.forall_mem_cons, List.forall_mem_cons, List.forall_mem_singleton]
  refine ⟨.inr (.inr ⟨?_, ?_, ?_, ?_⟩), .inl rfl, ?_⟩
  · decide +kernel
  · decide +kernel
  · decide +kernel
  · decide +kernel
  · exact congrArg Option.isSome (Value.toText?_text "a")

/-- A read does reject, whatever its fallback, when the store throws what cannot be written down. -/
theorem getText_unworded :
    ¬∃ value, (Request.serveAt unwordedStore (0, .getText (.text "a") (.text "d")) ()).reply =
      .ok value := by
  rintro ⟨value, h⟩
  have hreply : (Request.serveAt unwordedStore (0, .getText (.text "a") (.text "d")) ()).reply =
      .error (.fault .unwritable) := by
    rfl
  rw [hreply] at h
  cases h

end SlidingTally
