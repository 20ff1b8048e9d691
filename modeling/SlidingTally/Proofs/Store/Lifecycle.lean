import SlidingTally.Proofs.Service.Dormancy
import SlidingTally.Proofs.Store.ExpiringMap

/-!
# Life cycles

A store is initialized from a start that resolves to the next close, whatever else it is asked
for and whatever its client does, also while it is closed. In between it answers, before and
after it fails every call for a key, sends nothing and changes nothing. Main statements:
`Backend.isInitialized_step` for one call and `lifecycle` for any sequence of them.
-/

namespace SlidingTally

open SlidingTally.Action (Preserves Triple outcomes replies stateAfter)

-- ---------------------------------------------------------------------------
-- Stores of each kind
-- ---------------------------------------------------------------------------

/-- A store of each kind; where it has a client, all that the client was sent is on record. -/
inductive Backend : Type → Type 1
  | memory (createsOnIncrement supportsTouch : Bool) : Backend MemoryStore.State
  | redis {κ : Type} (client : RedisStore.Client κ) (keyScope : String) :
    Backend (RedisStore.State (κ × List RedisStore.Command))
  | mongo {κ : Type} (client : MongoStore.Client κ) (settings : MongoStore.Settings) :
    Backend (MongoStore.State (κ × List MongoStore.Command))

namespace Backend

def store : Backend σ → CounterStore σ
  | .memory createsOnIncrement supportsTouch =>
    MemoryStore.store ⟨.bool createsOnIncrement, .bool supportsTouch⟩
  | .redis client keyScope => RedisStore.store client.recorded ⟨.text keyScope⟩
  | .mongo client settings => MongoStore.store client.recorded settings

def name : Backend σ → String
  | .memory _ _ => MemoryStore.storeName
  | .redis _ _ => RedisStore.storeName
  | .mongo _ _ => MongoStore.storeName

def isInitialized : Backend σ → σ → Bool
  | .memory _ _ => MemoryStore.State.initialized
  | .redis _ _ => RedisStore.State.initialized
  | .mongo _ _ => MongoStore.State.initialized

def Constructed : Backend σ → σ → Prop
  | .memory _ _, s => s = {}
  | .redis client _, s => ∃ now before,
    RedisStore.subscribe client.recorded now { client := before } = ⟨.ok (), s, []⟩
  | .mongo client settings, s => ∃ connection now before lines,
    MongoStore.attach client.recorded settings connection now { client := before } =
      ⟨.ok (), s, lines⟩

def serve (backend : Backend σ) : Binary64 × StoreCall → StoreAction σ Value
  | (now, call) => backend.store now call

def answered (backend : Backend σ) (s : σ) (calls : List (Binary64 × StoreCall)) :
    List (StoreCall × Except Fault Value) :=
  (calls.map Prod.snd).zip (replies backend.serve s calls)

end Backend

-- ---------------------------------------------------------------------------
-- Histories
-- ---------------------------------------------------------------------------

/-- Some start resolved, and nothing was closed since. -/
def Started (answers : List (StoreCall × Except Fault Value)) : Prop :=
  ∃ before value after, answers = before ++ (.start, .ok value) :: after ∧
    ∀ answer ∈ after, answer.1 ≠ .close

theorem not_started_nil : ¬Started [] := by
  rintro ⟨before, value, after, hanswers, -⟩
  simp at hanswers

theorem started_append {answers : List (StoreCall × Except Fault Value)} {call : StoreCall}
    {reply : Except Fault Value} :
    Started (answers ++ [(call, reply)]) ↔
      call = .start ∧ reply.toBool = true ∨ call ≠ .close ∧ Started answers := by
  constructor
  · rintro ⟨before, value, after, hanswers, hafter⟩
    rcases List.eq_nil_or_concat' after with rfl | ⟨after, last, rfl⟩
    · obtain ⟨-, hlast⟩ := List.append_inj' hanswers rfl
      cases hlast
      exact .inl ⟨rfl, rfl⟩
    · rw [← List.cons_append, ← List.append_assoc] at hanswers
      obtain ⟨hbefore, hlast⟩ := List.append_inj' hanswers rfl
      cases hlast
      refine .inr ⟨hafter (call, reply) (by simp), before, value, after, hbefore, ?_⟩
      exact fun answer hmem => hafter answer (List.mem_append_left _ hmem)
  · rintro (⟨rfl, hreply⟩ | ⟨hcall, before, value, after, rfl, hafter⟩)
    · cases reply with
      | ok value => exact ⟨answers, value, [], rfl, by simp⟩
      | error fault => cases hreply
    · refine ⟨before, value, after ++ [(call, reply)], by simp, fun answer hmem => ?_⟩
      rcases List.mem_append.mp hmem with hmem | hmem
      · exact hafter answer hmem
      · rw [List.mem_singleton.mp hmem]
        exact hcall

-- ---------------------------------------------------------------------------
-- What calls for keys leave alone
-- ---------------------------------------------------------------------------

namespace MemoryStore

variable {now : Binary64} {initialized : Bool}

theorem preserves_require : Preserves (State.initialized · = initialized) require :=
  Preserves.bind (Preserves.view _) fun _ => (Preserves.pure _).ite (Preserves.fail _)

theorem preserves_look (key : Key) : Preserves (State.initialized · = initialized) (look now key) :=
  fun s hs => (afterLook_initialized s now key).trans hs

theorem preserves_sweep : Preserves (State.initialized · = initialized)
    (Action.update fun s => s.sweep now : StoreAction State Unit) :=
  Preserves.update fun s hs => (sweep_initialized s now).trans hs

theorem preserves_write (key : Key) (value ttl : Value) :
    Preserves (State.initialized · = initialized) (write now key value ttl) :=
  Preserves.bind preserves_sweep fun _ =>
    Preserves.bind (Preserves.ofExcept _) fun _ => Preserves.update fun _ hs => hs

theorem preserves_collect (keys : List Key) :
    Preserves (State.initialized · = initialized) (collect now keys) := by
  induction keys with
  | nil => exact Preserves.pure _
  | cons key rest ih =>
    refine Preserves.bind (preserves_look key) fun entry => ?_
    cases entry with
    | none => exact ih
    | some entry => exact Preserves.bind ih fun _ => Preserves.pure _

theorem preserves_data (options : Options) (hcall : call.isData = true) :
    Preserves (State.initialized · = initialized) (store options now call) := by
  cases call with
  | increment key =>
    refine Preserves.bind preserves_require fun _ => Preserves.bind (preserves_look key) fun entry => ?_
    cases entry with
    | none =>
      refine Preserves.ite (Preserves.bind (Preserves.update fun s hs => ?_) fun _ => Preserves.pure _)
        (Preserves.pure _)
      exact (sweep_initialized s now).trans hs
    | some entry =>
      refine Preserves.bind (Preserves.ofExcept _) fun current => Preserves.ite ?_ ?_
      · exact Preserves.bind (Preserves.update fun _ hs => hs) fun _ => Preserves.pure _
      · exact Preserves.bind (Preserves.ofExcept _) fun _ => Preserves.fail _
  | addIfAbsent key value ttl =>
    refine Preserves.bind preserves_require fun _ => Preserves.bind (preserves_look key) fun entry => ?_
    cases entry with
    | none => exact Preserves.bind (preserves_write key value ttl) fun _ => Preserves.pure _
    | some entry => exact Preserves.pure _
  | touch key ttl =>
    refine Preserves.bind preserves_require fun _ =>
      Preserves.ite (Preserves.bind (preserves_look key) fun entry => ?_) (Preserves.pure _)
    cases entry with
    | none => exact Preserves.pure _
    | some entry =>
      exact Preserves.bind (Preserves.ofExcept _) fun _ =>
        Preserves.bind (Preserves.update fun _ hs => hs) fun _ => Preserves.pure _
  | set key value ttl =>
    exact Preserves.bind preserves_require fun _ =>
      Preserves.bind (preserves_write key value ttl) fun _ => Preserves.pure _
  | get key =>
    exact Preserves.bind preserves_require fun _ =>
      Preserves.bind (preserves_look key) fun _ => Preserves.pure _
  | getMulti keys =>
    exact Preserves.bind preserves_require fun _ => Preserves.bind (Preserves.ofExcept _) fun _ =>
      Preserves.bind (preserves_collect _) fun _ => Preserves.pure _
  | _ => cases hcall

end MemoryStore

namespace RedisStore

variable {κ : Type} {client : Client κ} {settings : Settings} {now : Binary64} {initialized : Bool}

theorem preserves_send (command : Command) :
    Preserves (State.initialized · = initialized) (send client now command) := fun _ hs => hs

theorem preserves_call (operation : String) (command : Except Fault Command) :
    Preserves (State.initialized · = initialized) (call client now operation command) :=
  (Preserves.bind (Preserves.ofExcept _) preserves_send).mapFault _

theorem preserves_require :
    Preserves (State.initialized · = initialized) (require : StoreAction (State κ) Unit) :=
  Preserves.bind (Preserves.view _) fun _ => (Preserves.pure _).ite (Preserves.fail _)

theorem preserves_readEach (keys : List Value) :
    Preserves (State.initialized · = initialized) (readEach client settings now keys) := by
  induction keys with
  | nil => exact Preserves.pure _
  | cons key rest ih =>
    exact Preserves.bind (Preserves.ofExcept _) fun _ =>
      Preserves.bind (preserves_send _).attempt fun _ => Preserves.bind ih fun _ => Preserves.pure _

theorem preserves_getMultiCluster (keys : Value) :
    Preserves (State.initialized · = initialized) (getMultiCluster client settings now keys) := by
  unfold getMultiCluster
  split
  · refine Preserves.bind (preserves_readEach _) fun replies => (Preserves.fail _).ite ?_
    exact (Preserves.bind (Preserves.record _) fun _ => Preserves.pure _).ite (Preserves.pure _)
  · exact Preserves.bind (preserves_readEach _) fun _ => Preserves.pure _
  · exact Preserves.fail _

theorem preserves_data (hcall : request.isData = true) :
    Preserves (State.initialized · = initialized) (store client settings now request) := by
  cases request with
  | increment key => exact Preserves.bind preserves_require fun _ => preserves_call _ _
  | addIfAbsent key value ttl =>
    exact Preserves.bind preserves_require fun _ =>
      Preserves.bind (preserves_call _ _) fun _ => Preserves.pure _
  | touch key ttl =>
    exact Preserves.bind preserves_require fun _ =>
      Preserves.bind (preserves_call _ _) fun _ => Preserves.pure _
  | set key value ttl =>
    exact Preserves.bind preserves_require fun _ => Preserves.bind (Preserves.ofExcept _) fun _ =>
      Preserves.bind (Preserves.ofExcept _) fun _ =>
        Preserves.bind (preserves_call _ _) fun _ => Preserves.pure _
  | get key => exact Preserves.bind preserves_require fun _ => preserves_call _ _
  | getMulti keys =>
    refine Preserves.bind preserves_require fun _ => Preserves.bind (Preserves.ofExcept _) fun length =>
      (Preserves.pure _).ite ((preserves_getMultiCluster keys).ite ?_)
    exact Preserves.bind (preserves_call _ _) fun _ =>
      Preserves.bind (Preserves.ofExcept _) fun _ => Preserves.pure _
  | _ => cases hcall

theorem preserves_connect :
    Preserves (State.initialized · = initialized) (connect client now) := by
  refine Preserves.bind (Preserves.view _) fun status => Preserves.ite ?_ ?_
  · exact Preserves.bind (preserves_send _) fun _ =>
      Preserves.bind (preserves_send _) fun _ => Preserves.pure _
  · exact Preserves.bind (preserves_send _) fun _ => Preserves.pure _

end RedisStore

namespace MongoStore

variable {κ : Type} {client : Client κ} {settings : Settings} {now : Binary64} {initialized : Bool}

theorem preserves_send (command : Command) :
    Preserves (State.initialized · = initialized) (send client now command) := fun _ hs => hs

theorem preserves_call (operation : String) (command : Except Fault Command) :
    Preserves (State.initialized · = initialized) (call client now operation command) :=
  (Preserves.bind (Preserves.ofExcept _) preserves_send).mapFault _

theorem preserves_require :
    Preserves (State.initialized · = initialized) (require : StoreAction (State κ) Unit) :=
  Preserves.bind (Preserves.view _) fun _ => (Preserves.pure _).ite (Preserves.fail _)

theorem preserves_addIfAbsent (key value ttl : Value) :
    Preserves (State.initialized · = initialized) (addIfAbsent client now key value ttl) := by
  refine Preserves.bind preserves_require fun _ => ?_
  refine Preserves.bind (Preserves.bind (Preserves.ofExcept _) fun _ => preserves_send _).attempt
    fun reply => ?_
  cases reply with
  | ok value => exact Preserves.pure _
  | error fault => exact (Preserves.pure _).ite (Preserves.fail _)

theorem preserves_data (hcall : request.isData = true) :
    Preserves (State.initialized · = initialized) (store client settings now request) := by
  cases request with
  | increment key =>
    refine Preserves.bind preserves_require fun _ => Preserves.bind (preserves_call _ _) fun document => ?_
    exact (Preserves.bind (Preserves.ofExcept _) fun _ => Preserves.pure _).ite (Preserves.pure _)
  | addIfAbsent key value ttl => exact preserves_addIfAbsent key.value value ttl
  | touch key ttl =>
    exact Preserves.bind preserves_require fun _ => Preserves.bind (preserves_call _ _) fun _ =>
      Preserves.bind (Preserves.ofExcept _) fun _ => Preserves.pure _
  | set key value ttl =>
    exact Preserves.bind preserves_require fun _ =>
      Preserves.bind (preserves_call _ _) fun _ => Preserves.pure _
  | get key =>
    exact Preserves.bind preserves_require fun _ =>
      Preserves.bind (preserves_call _ _) fun _ => Preserves.pure _
  | getMulti keys =>
    refine Preserves.bind preserves_require fun _ => Preserves.bind (Preserves.ofExcept _) fun length => ?_
    exact (Preserves.pure _).ite (Preserves.bind (preserves_call _ _) fun _ =>
      Preserves.bind (Preserves.ofExcept _) fun _ => Preserves.pure _)
  | _ => cases hcall

end MongoStore

-- ---------------------------------------------------------------------------
-- One call
-- ---------------------------------------------------------------------------

namespace Backend

variable {backend : Backend σ} {now : Binary64} {s : σ}

theorem run_isInitialized (backend : Backend σ) (now : Binary64) (s : σ) :
    backend.store now .isInitialized s = ⟨.ok (.bool (backend.isInitialized s)), s, []⟩ := by
  cases backend <;> rfl

theorem run_flag {f : τ → Bool} {t : τ} (h : f t = false) (fault : Fault) :
    (Action.view f >>= fun set => if set then pure () else Action.fail fault :
      StoreAction τ Unit) t = ⟨.error fault, t, []⟩ := by
  rw [Action.run_bind_ok (Action.run_view f t), h]
  rfl

theorem run_data (h : backend.isInitialized s = false) (hcall : call.isData = true) :
    backend.store now call s = ⟨.error (.uninitialized backend.name), s, []⟩ := by
  cases backend with
  | memory createsOnIncrement supportsTouch =>
    have hrequire : MemoryStore.require s = _ := run_flag h (.uninitialized MemoryStore.storeName)
    cases call <;> first | exact Action.run_bind_error hrequire _ | cases hcall
  | redis client keyScope =>
    have hrequire : RedisStore.require s = _ := run_flag h (.uninitialized RedisStore.storeName)
    cases call <;> first | exact Action.run_bind_error hrequire _ | cases hcall
  | mongo client settings =>
    have hflag : (s.initialized && s.hasModel) = false := by
      rw [show s.initialized = false from h, Bool.false_and]
    have hrequire : MongoStore.require s = _ :=
      run_flag (f := fun s => MongoStore.State.initialized s && s.hasModel) hflag
        (.uninitialized MongoStore.storeName)
    cases call <;> first | exact Action.run_bind_error hrequire _ | cases hcall

theorem isInitialized_data (hcall : call.isData = true) :
    backend.isInitialized (backend.store now call s).state = backend.isInitialized s := by
  cases backend with
  | memory createsOnIncrement supportsTouch =>
    exact MemoryStore.preserves_data _ hcall s rfl
  | redis client keyScope => exact RedisStore.preserves_data hcall s rfl
  | mongo client settings => exact MongoStore.preserves_data hcall s rfl

theorem triple_start (backend : Backend σ) (now : Binary64) (s : σ) :
    Triple (backend.store now .start) s [] (fun _ s' _ => backend.isInitialized s' = true)
      fun _ s' _ => backend.isInitialized s' = backend.isInitialized s := by
  cases backend with
  | memory createsOnIncrement supportsTouch =>
    cases createsOnIncrement <;> cases supportsTouch <;> exact rfl
  | redis client keyScope =>
    refine Triple.bind (Q := fun _ s' _ => s'.initialized = s.initialized) ?_ ?_
    · exact Triple.of_run (Action.run_attempt _ s) (RedisStore.preserves_connect s rfl)
    · intro reply s' j hs'
      cases reply with
      | ok _ =>
        rw [Value.asText_text]
        exact Triple.bind (Q := fun _ s' _ => s'.initialized = true) (Triple.update rfl)
          fun _ _ _ h => Triple.bind (Triple.pure h) fun _ _ _ h =>
            Triple.bind (Triple.record h) fun _ _ _ h => Triple.pure h
      | error fault =>
        exact Triple.bind ((RedisStore.preserves_send .disconnect).triple hs')
          fun _ _ _ h => Triple.fail h
  | mongo client settings =>
    refine Triple.bind (Q := fun _ s' _ => s'.initialized = s.initialized) (Triple.view rfl) ?_
    intro hasModel s' j hs'
    split
    · refine Triple.bind ((MongoStore.preserves_send .createIndex).triple hs') fun _ _ _ _ => ?_
      exact Triple.bind (Q := fun _ s' _ => s'.initialized = true) (Triple.update rfl)
        fun _ _ _ h => Triple.bind (Triple.record h) fun _ _ _ h => Triple.pure h
    · exact Triple.bind (Triple.record hs') fun _ _ _ h => Triple.fail h

/-- A close counts at once, before the client is asked to quit. -/
theorem isInitialized_close (backend : Backend σ) (now : Binary64) (s : σ) :
    backend.isInitialized (backend.store now .close s).state = false := by
  cases backend with
  | memory createsOnIncrement supportsTouch => rfl
  | redis client keyScope =>
    refine Triple.always (P := fun s' _ => RedisStore.State.initialized s' = false) ?_
    refine Triple.bind (Q := fun initialized s' _ => s'.initialized = initialized)
      (Triple.view rfl) fun initialized s' j hs' => ?_
    cases initialized with
    | true =>
      refine Triple.bind (Q := fun _ s' _ => s'.initialized = false) (Triple.update rfl) ?_
      exact fun _ _ _ h => Triple.bind ((RedisStore.preserves_send .quit).triple h)
        fun _ _ _ h => Triple.pure h
    | false =>
      exact Triple.bind ((RedisStore.preserves_send .disconnect).triple hs')
        fun _ _ _ h => Triple.pure h
  | mongo client settings => rfl

theorem isInitialized_step (backend : Backend σ) (now : Binary64) (call : StoreCall) (s : σ) :
    backend.isInitialized (backend.store now call s).state = true ↔
      call = .start ∧ (backend.store now call s).reply.toBool = true ∨
        call ≠ .close ∧ backend.isInitialized s = true := by
  by_cases hdata : call.isData = true
  · have hcall : call ≠ .start ∧ call ≠ .close := by
      constructor <;> (rintro rfl; cases hdata)
    rw [isInitialized_data hdata]
    simp [hcall]
  · cases call with
    | start =>
      have hstart := backend.triple_start now s
      unfold Triple at hstart
      split at hstart
      · rename_i value hreply
        simp [hstart, hreply, Except.toBool]
      · rename_i fault hreply
        simp [hstart, hreply, Except.toBool]
    | close => simp [isInitialized_close]
    | isInitialized => simp [run_isInitialized]
    | _ => exact absurd rfl hdata

end Backend

-- ---------------------------------------------------------------------------
-- Any sequence of calls
-- ---------------------------------------------------------------------------

theorem Backend.isInitialized_constructed {backend : Backend σ} (h : backend.Constructed s) :
    backend.isInitialized s = false := by
  cases backend with
  | memory createsOnIncrement supportsTouch =>
    cases h
    rfl
  | redis client keyScope =>
    obtain ⟨now, before, hrun⟩ := h
    have hkept : Preserves (RedisStore.State.initialized · = false)
        (RedisStore.subscribe client.recorded now) :=
      Preserves.bind (RedisStore.preserves_send _) fun _ => Preserves.pure _
    have hafter := hkept { client := before } rfl
    rwa [hrun] at hafter
  | mongo client settings =>
    obtain ⟨connection, now, before, lines, hrun⟩ := h
    have hkept : Preserves (MongoStore.State.initialized · = false)
        (MongoStore.attach client.recorded settings connection now) := by
      cases connection with
      | none => exact Preserves.record _
      | fresh =>
        exact Preserves.bind (MongoStore.preserves_send _) fun _ => Preserves.update fun _ hs => hs
      | existing => exact Preserves.update fun _ hs => hs
    have hafter := hkept { client := before } rfl
    rwa [hrun] at hafter

theorem Backend.answered_append (backend : Backend σ) (s : σ) (calls : List (Binary64 × StoreCall))
    (now : Binary64) (call : StoreCall) :
    backend.answered s (calls ++ [(now, call)]) = backend.answered s calls ++
      [(call, (backend.store now call (stateAfter backend.serve s calls)).reply)] := by
  have hlength : (calls.map Prod.snd).length = (replies backend.serve s calls).length := by
    rw [List.length_map, Action.length_replies]
  rw [answered, List.map_append, Action.replies_append, List.zip_append hlength]
  rfl

theorem Backend.isInitialized_stateAfter {backend : Backend σ} (h : backend.isInitialized s = false)
    (calls : List (Binary64 × StoreCall)) :
    backend.isInitialized (stateAfter backend.serve s calls) = true ↔
      Started (backend.answered s calls) := by
  induction calls using List.reverseRecOn with
  | nil => simp [stateAfter, answered, h, not_started_nil]
  | append_singleton before last ih =>
    obtain ⟨now, call⟩ := last
    rw [Action.stateAfter_append, answered_append, started_append, ← ih]
    exact isInitialized_step backend now call _

/-- Whatever a store is asked for and whatever its client does: it is initialized if and only if
some start resolved since the last close, and as long as it is not, every call for a key fails for
that reason, sends nothing and changes nothing. In memory, a close leaves a store that shows just
what a new one does. -/
theorem lifecycle (backend : Backend σ) {s : σ} (hs : backend.Constructed s)
    (calls : List (Binary64 × StoreCall)) :
    let after := stateAfter backend.serve s calls
    (∃ initialized : Bool, (initialized = true ↔ Started (backend.answered s calls)) ∧
      ∀ now, backend.store now .isInitialized after = ⟨.ok (.bool initialized), after, []⟩ ∧
        ∀ call, call.isData = true → initialized = false →
          backend.store now call after = ⟨.error (.uninitialized backend.name), after, []⟩) ∧
    ∀ (options : MemoryStore.Options) (before later : List (Binary64 × MemoryStore.Operation))
      (now : Binary64),
      outcomes (MemoryStore.perform options)
          (stateAfter (MemoryStore.perform options) {} (before ++ [(now, .call .close)])) later =
        outcomes (MemoryStore.perform options) {} later := by
  intro after
  refine ⟨⟨backend.isInitialized after, ?_, fun now => ?_⟩, fun options before later now => ?_⟩
  · exact Backend.isInitialized_stateAfter (Backend.isInitialized_constructed hs) calls
  · exact ⟨backend.run_isInitialized now after, fun call hcall h => Backend.run_data h hcall⟩
  · rw [Action.stateAfter_append]
    rfl

def moodyServer : RedisStore.Client Nat where
  isCluster := false
  status n := if n = 0 then "wait" else "ready"
  send _ command n :=
    match command with
    | .ping => if n = 1 then (.error (.plain "LOADING"), n + 1) else (.ok (.text "PONG"), n + 1)
    | .quit => (.error (.plain "Connection is closed."), n)
    | _ => (.ok .undefined, n + 1)

theorem lifecycle_quitFails :
    let backend := Backend.redis moodyServer "velocity:"
    let s : RedisStore.State (Nat × List RedisStore.Command) := { client := (1, [.onError]) }
    let calls := [(0, .start), (1, .start), (2, .increment (.text "a")), (3, .close)]
    let after := stateAfter backend.serve s calls
    backend.Constructed s ∧ ¬Started (backend.answered s calls) ∧
      backend.store 4 (.get (.text "a")) after =
        ⟨.error (.uninitialized backend.name), after, []⟩ := by
  intro backend s calls after
  have hs : backend.Constructed s := ⟨0, (0, []), rfl⟩
  obtain ⟨⟨initialized, hiff, hanswers⟩, -⟩ := lifecycle backend hs calls
  have hclosed : (backend.store 4 .isInitialized after).reply = .ok (.bool false) := rfl
  rw [(hanswers 4).1] at hclosed
  cases hclosed
  refine ⟨hs, fun hstarted => ?_, (hanswers 4).2 (.get (.text "a")) rfl rfl⟩
  cases hiff.mpr hstarted

end SlidingTally
