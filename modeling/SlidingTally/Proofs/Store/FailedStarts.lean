import SlidingTally.Proofs.Store.ClientFaults
import SlidingTally.Proofs.Store.Lifecycle

/-!
# Starts that fail

A start that fails disconnects the client of a Redis store and leaves the store as it was: one that
was initialized still is, and goes on to send commands to the client until it is closed. Main
statements: `Backend.isInitialized_failing` for a run and `initialized_after_failed_start`.
-/

namespace SlidingTally

open SlidingTally.Action (Preserves Triple stateAfter)

-- ---------------------------------------------------------------------------
-- What the client is sent
-- ---------------------------------------------------------------------------

theorem exchange_recorded {γ κ : Type} (send : Binary64 → γ → κ → Except Fault Value × κ)
    (now : Binary64) (commands : List γ) (s : κ × List γ) :
    exchange (recorded send) now commands s =
      ((exchange send now commands s.1).1, (exchange send now commands s.1).2,
        s.2 ++ commands) := by
  induction commands generalizing s with
  | nil => simp [exchange]
  | cons command rest ih => simp [exchange, ih, recorded]

namespace RedisStore

variable {κ : Type} {client : Client κ} {now : Binary64} {s : State (κ × List Command)}

theorem sent_data (client : Client κ) (scope : String) (now : Binary64) (call : DataCall)
    (hinit : s.initialized = true) :
    (store client.recorded ⟨.text scope⟩ now call.call s).state.client.2 =
      s.client.2 ++ commandsFor client.isCluster scope call := by
  cases call with
  | on key act =>
    rw [DataCall.call, run_on client.recorded scope now key act hinit]
    rfl
  | getMulti keys =>
    rw [DataCall.call]
    by_cases hne : keys = []
    · subst hne
      rw [List.map_nil, run_getMulti_nil client.recorded _ now hinit]
      cases client.isCluster <;> simp [commandsFor]
    · cases hcluster : client.isCluster with
      | false =>
        have hsome : ¬keys.isEmpty = true := by rwa [List.isEmpty_iff]
        rw [run_getMulti_single client.recorded scope now hinit hcluster hne, commandsFor,
          if_neg Bool.false_ne_true, if_neg hsome]
        rfl
      | true =>
        rw [run_getMulti_warning client.recorded scope now hinit hcluster hne]
        exact congrArg (·.2.2) (exchange_recorded client.send now _ s.client)

theorem triple_sent (command : Command) :
    Triple (send client.recorded now command) s j
      (fun _ s' _ => s'.client.2 = s.client.2 ++ [command])
      fun _ s' _ => s'.client.2 = s.client.2 ++ [command] := by
  unfold Triple
  split <;> rfl

theorem triple_start_failed (client : Client κ) (scope : String) (now : Binary64)
    (s : State (κ × List Command)) :
    Triple (start client.recorded ⟨.text scope⟩ now) s [] (fun _ _ _ => True)
      fun _ s' _ => ∃ sent, s'.client.2 = sent ++ [.disconnect] := by
  refine Triple.bind (Q := fun _ _ _ => True) (Triple.of_run (Action.run_attempt _ s) trivial) ?_
  intro reply s' j _
  cases reply with
  | ok _ =>
    rw [Value.asText_text]
    refine Triple.bind (Q := fun _ _ _ => True) (Triple.update trivial) fun _ _ _ _ => ?_
    refine Triple.bind (Q := fun _ _ _ => True) (Triple.pure trivial) fun _ _ _ _ => ?_
    exact Triple.bind (Q := fun _ _ _ => True) (Triple.record trivial) fun _ _ _ _ =>
      Triple.pure trivial
  | error fault =>
    refine Triple.bind ((triple_sent .disconnect).mono (fun _ _ _ h => h) fun _ _ _ h => ?_) ?_
    · exact ⟨s'.client.2, h⟩
    · exact fun _ _ _ h => Triple.fail ⟨s'.client.2, h⟩

end RedisStore

-- ---------------------------------------------------------------------------
-- Runs without a start that resolves
-- ---------------------------------------------------------------------------

namespace Backend

variable {backend : Backend σ} {s : σ}

def Failing (backend : Backend σ) (s : σ) (calls : List (Binary64 × StoreCall)) : Prop :=
  ∀ answer ∈ backend.answered s calls, answer.1 = .start → answer.2.toBool = false

/-- As long as no start resolves, a store is initialized until it is closed, if it was. -/
theorem isInitialized_failing {calls : List (Binary64 × StoreCall)} (h : backend.Failing s calls) :
    backend.isInitialized (stateAfter backend.serve s calls) = true ↔
      backend.isInitialized s = true ∧ .close ∉ calls.map Prod.snd := by
  induction calls using List.reverseRecOn with
  | nil => simp [stateAfter]
  | append_singleton before last ih =>
    obtain ⟨now, call⟩ := last
    unfold Failing at h
    rw [answered_append] at h
    have hbefore : backend.Failing s before := fun answer hmem => h answer (List.mem_append_left _ hmem)
    have hlast := h _ (List.mem_append_right _ (List.mem_singleton_self _))
    have hstep := isInitialized_step backend now call (stateAfter backend.serve s before)
    have hnone : ¬(call = .start ∧
        (backend.store now call (stateAfter backend.serve s before)).reply.toBool = true) := by
      rintro ⟨hstart, hresolved⟩
      simp [hlast hstart] at hresolved
    rw [or_iff_right hnone, ih hbefore] at hstep
    rw [Action.stateAfter_append]
    refine hstep.trans ?_
    simp only [List.map_append, List.map_singleton, List.mem_append, List.mem_singleton, not_or]
    exact ⟨fun h => ⟨h.2.1, h.2.2, Ne.symm h.1⟩, fun h => ⟨Ne.symm h.2.2, h.1, h.2.1⟩⟩

theorem isInitialized_start_failed {now : Binary64}
    (h : (backend.store now .start s).reply.toBool = false) :
    backend.isInitialized (backend.store now .start s).state = backend.isInitialized s := by
  have hstart := backend.triple_start now s
  unfold Triple at hstart
  split at hstart
  · rename_i value hreply
    simp [hreply, Except.toBool] at h
  · exact hstart

end Backend

/-- From a start that fails until a later one resolves, whatever a Redis store is asked for and
whatever its client does: the start has disconnected the client, and the store is initialized if and
only if some start resolved before it and nothing was closed, before or since. As long as it is not,
calls for data send nothing; as long as it is, they send what they come to to that client. -/
theorem initialized_after_failed_start {κ : Type} (client : RedisStore.Client κ) (scope : String)
    {s : RedisStore.State (κ × List RedisStore.Command)}
    (hs : (Backend.redis client scope).Constructed s) (before after : List (Binary64 × StoreCall))
    (now : Binary64) :
    let backend := Backend.redis client scope
    let start := backend.store now .start (stateAfter backend.serve s before)
    let final := stateAfter backend.serve start.state after
    start.reply.toBool = false → backend.Failing start.state after →
      (∃ sent, start.state.client.2 = sent ++ [.disconnect]) ∧
      ∃ initialized : Bool, (initialized = true ↔
          Started (backend.answered s before) ∧ .close ∉ after.map Prod.snd) ∧
        ∀ later, backend.store later .isInitialized final = ⟨.ok (.bool initialized), final, []⟩ ∧
          (initialized = false → ∀ call : StoreCall, call.isData = true →
            backend.store later call final = ⟨.error (.uninitialized backend.name), final, []⟩) ∧
          (initialized = true → ∀ call : DataCall,
            (backend.store later call.call final).state.client.2 =
              final.client.2 ++ RedisStore.commandsFor client.isCluster scope call) := by
  intro backend start final hfails hfailing
  constructor
  · have hstart := RedisStore.triple_start_failed client scope now (stateAfter backend.serve s before)
    rcases hstart.outcome with ⟨value, hreply, -⟩ | ⟨fault, -, hsent⟩
    · change start.reply = .ok value at hreply
      simp [hreply, Except.toBool] at hfails
    · exact hsent
  · refine ⟨backend.isInitialized final, ?_, fun later => ⟨?_, ?_, ?_⟩⟩
    · rw [Backend.isInitialized_failing hfailing, Backend.isInitialized_start_failed hfails,
        Backend.isInitialized_stateAfter (Backend.isInitialized_constructed hs)]
    · exact backend.run_isInitialized later final
    · exact fun h call hcall => Backend.run_data h hcall
    · exact fun h call => RedisStore.sent_data client scope later call h

def fadingServer : RedisStore.Client Nat where
  isCluster := false
  status _ := "ready"
  send _ command n :=
    match command with
    | .ping => if n = 0 then (.ok (.text "PONG"), n + 1) else (.error (.plain "ECONNREFUSED"), n + 1)
    | _ => (.ok .null, n)

theorem initialized_after_failed_start_closed :
    let backend := Backend.redis fadingServer "velocity:"
    let s : RedisStore.State (Nat × List RedisStore.Command) := { client := (0, [.onError]) }
    let start := backend.store 1 .start (stateAfter backend.serve s [(0, .start)])
    let closed := stateAfter backend.serve start.state [(2, .close), (3, .start)]
    backend.Constructed s ∧ start.reply.toBool = false ∧
      backend.store 4 (.get (.text "a")) closed =
        ⟨.error (.uninitialized backend.name), closed, []⟩ := by
  intro backend s start closed
  have hs : backend.Constructed s := ⟨0, (0, []), rfl⟩
  have hfailing : backend.Failing start.state [(2, .close), (3, .start)] := by
    intro answer hmem hstart
    have hanswers : backend.answered start.state [(2, .close), (3, .start)] =
        [(.close, .ok .undefined), (.start, .error (.plain "ECONNREFUSED"))] := rfl
    rw [hanswers] at hmem
    simp only [List.mem_cons, List.not_mem_nil, or_false] at hmem
    rcases hmem with rfl | rfl
    · cases hstart
    · rfl
  obtain ⟨-, initialized, hiff, hlater⟩ :=
    initialized_after_failed_start fadingServer "velocity:" hs [(0, .start)] _ 1 rfl hfailing
  have hclosed : initialized = false := by
    rw [← Bool.not_eq_true, hiff]
    simp
  exact ⟨hs, rfl, (hlater 4).2.1 hclosed _ rfl⟩

/-- A start that fails does not leave a store uninitialized that was initialized before it. -/
theorem initialized_disconnected :
    let backend := Backend.redis fadingServer "velocity:"
    let s : RedisStore.State (Nat × List RedisStore.Command) := { client := (0, [.onError]) }
    let start := backend.store 1 .start (stateAfter backend.serve s [(0, .start)])
    backend.Constructed s ∧ start.reply.toBool = false ∧
      start.state.client.2 = [.onError, .ping, .ping, .disconnect] ∧
      (backend.store 2 .isInitialized start.state).reply = .ok (.bool true) ∧
      (backend.store 2 (.get (.text "a")) start.state).state.client.2 =
        start.state.client.2 ++ [.get "velocity:a"] :=
  ⟨⟨0, (0, []), rfl⟩, rfl, rfl, rfl, rfl⟩

end SlidingTally
