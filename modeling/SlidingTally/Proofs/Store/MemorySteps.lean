import SlidingTally.Proofs.Store.ExpiringMap

/-!
# Steps of the in-memory store

Whatever an operation does comes down to a few steps: it looks at keys, it writes over an entry that is
there, or it sweeps and stores a new entry. `Step` says which of them an operation takes and what the
state is after it, so that what holds of states is shown for one step at a time. Main statement:
`step_perform`.
-/

namespace SlidingTally.MemoryStore

-- ---------------------------------------------------------------------------
-- Operations
-- ---------------------------------------------------------------------------

/-- A time to live that is written at a reading runs out after it, if ever. -/
def Timely (now ttl : Binary64) : Prop :=
  ∀ instant, expiry now ttl = some instant → now.lt instant = true

namespace Operation

def ttl? : Operation → Option Value
  | .call (.addIfAbsent _ _ ttl) => some ttl
  | .call (.touch _ ttl) => some ttl
  | .call (.set _ _ ttl) => some ttl
  | _ => none

def key? : Operation → Option Key
  | .call (.increment key) => some key
  | .call (.addIfAbsent key _ _) => some key
  | .call (.touch key _) => some key
  | .call (.set key _ _) => some key
  | _ => none

def IsTimely (now : Binary64) (operation : Operation) : Prop :=
  ∀ ttl ∈ operation.ttl?, ∀ seconds, ttl.asNumber = .ok seconds → Timely now seconds

/-- The operation gets as far as storing a new entry, before which it sweeps. -/
def Stores (options : Options) (now : Binary64) (s : State) : Operation → Prop
  | .call (.set _ _ _) => s.initialized = true
  | .call (.addIfAbsent key _ _) => s.initialized = true ∧ s.live? now key = none
  | .call (.increment key) =>
    s.initialized = true ∧ s.live? now key = none ∧ options.createsOnIncrement.truthy = true
  | _ => False

/-- The entry is one that the operation may write: it is not expired unless the time to live is at
fault. -/
def MayWrite (operation : Operation) (now : Binary64) (entry : Entry) : Prop :=
  operation.IsTimely now → entry.isExpired now = false

end Operation

-- ---------------------------------------------------------------------------
-- What an operation does
-- ---------------------------------------------------------------------------

inductive Looked (now : Binary64) (s : State) : State → Prop
  | refl : Looked now s s
  | look (h : Looked now s s') (key : Key) : Looked now s (s'.afterLook now key)

/-- What an operation makes of a state. -/
inductive Step (options : Options) (now : Binary64) (s : State) (operation : Operation) : State → Prop
  | closed (h : operation = .call .close) : Step options now s operation {}
  | started (h : operation = .call .start) : Step options now s operation { s with initialized := true }
  | looked (hnot : ¬operation.Stores options now s) (hopen : operation ≠ .call .close)
      (h : Looked now s s') : Step options now s operation s'
  | rewritten (hnot : ¬operation.Stores options now s) (hkey : operation.key? = some key)
      (hlive : s.live? now key = some entry) (hfresh : operation.MayWrite now fresh) :
      Step options now s operation (s.put key fresh)
  | stored (h : operation.Stores options now s) (hlooked : Looked now s s')
      (hkey : operation.key? = some key) (hfresh : operation.MayWrite now fresh) :
      Step options now s operation ((s'.sweep now).put key fresh)
  | refused (h : operation.Stores options now s) (hlooked : Looked now s s') :
      Step options now s operation (s'.sweep now)

section
variable {options : Options} {now : Binary64} {s s' : State} {operation : Operation} {key : Key}
  {value ttl : Value}

theorem isExpired_of_timely (h : Timely now seconds) :
    Entry.isExpired ⟨stored, value, expiry now seconds⟩ now = false := by
  unfold Entry.isExpired
  cases hexpiry : expiry now seconds with
  | none => rfl
  | some instant =>
    obtain ⟨hnow, hinstant, hlt⟩ := Binary64.lt_iff.mp (h instant hexpiry)
    exact (Binary64.not_le hinstant hnow).mpr (h instant hexpiry)

theorem isExpired_of_live (h : s.live? now key = some entry) : entry.isExpired now = false := by
  simpa using (Option.filter_eq_some_iff.mp h).2

theorem state_bind_pure {α β : Type} (x : StoreAction State α) (f : α → β) (s : State) :
    ((x >>= fun a => pure (f a)) s).state = (x s).state := by
  rw [Action.run_bind]
  split <;> rfl

theorem run_look (now : Binary64) (key : Key) (s : State) :
    look now key s = ⟨.ok (s.live? now key), s.afterLook now key, []⟩ := rfl

theorem run_require_error (h : s.initialized = false) :
    require s = ⟨.error (.uninitialized storeName), s, []⟩ := by
  unfold require
  rw [Action.run_bind_ok (Action.run_view State.initialized s), h]
  rfl

theorem step_require {α : Type} {f : Unit → StoreAction State α}
    (hstores : operation.Stores options now s → s.initialized = true)
    (hopen : operation ≠ .call .close)
    (h : s.initialized = true → Step options now s operation (f () s).state) :
    Step options now s operation ((require >>= f) s).state := by
  cases hs : s.initialized with
  | true =>
    rw [Action.run_bind_quiet (run_require hs)]
    exact h hs
  | false =>
    rw [Action.run_bind_error (run_require_error hs)]
    refine .looked (fun hnot => ?_) hopen .refl
    rw [hstores hnot] at hs
    cases hs

theorem state_write : (write now key value ttl s).state = match ttl.asNumber with
    | .ok seconds => (s.sweep now).put key ⟨key.inTable, value, expiry now seconds⟩
    | .error _ => s.sweep now := by
  unfold write
  simp only [Action.run_bind, Action.run_update, Action.run_ofExcept]
  cases ttl.asNumber <;> rfl

theorem step_write (h : operation.Stores options now s) (hkey : operation.key? = some key)
    (httl : operation.ttl? = some ttl) (hlooked : Looked now s s') :
    Step options now s operation (write now key value ttl s').state := by
  rw [state_write]
  split
  · rename_i seconds hseconds
    exact .stored h hlooked hkey fun htimely =>
      isExpired_of_timely (htimely ttl httl seconds hseconds)
  · exact .refused h hlooked

theorem step_set :
    Step options now s (.call (.set key value ttl)) (set now key value ttl s).state := by
  refine step_require id nofun fun hs => ?_
  rw [state_bind_pure]
  exact step_write hs rfl rfl .refl

theorem step_addIfAbsent :
    Step options now s (.call (.addIfAbsent key value ttl)) (addIfAbsent now key value ttl s).state := by
  refine step_require And.left nofun fun hs => ?_
  rw [Action.run_bind_quiet (run_look now key s)]
  cases hlive : s.live? now key with
  | some entry => exact .looked (fun hnot => nomatch hlive.symm.trans hnot.2) nofun (.look .refl key)
  | none =>
    dsimp only
    rw [state_bind_pure]
    exact step_write ⟨hs, hlive⟩ rfl rfl (.look .refl key)

theorem step_increment :
    Step options now s (.call (.increment key)) (increment options now key s).state := by
  refine step_require And.left nofun fun hs => ?_
  rw [Action.run_bind_quiet (run_look now key s)]
  cases hlive : s.live? now key with
  | none =>
    dsimp only
    split
    · rename_i hcreates
      rw [state_bind_pure]
      exact .stored ⟨hs, hlive, hcreates⟩ (.look .refl key) rfl fun _ => rfl
    · rename_i hcreates
      exact .looked (fun hnot => hcreates hnot.2.2) nofun (.look .refl key)
  | some entry =>
    have hnot : ¬(Operation.call (.increment key)).Stores options now s :=
      fun hnot => nomatch hlive.symm.trans hnot.2.1
    rw [afterLook_of_live hlive]
    dsimp only
    rw [Action.run_bind, Action.run_ofExcept]
    cases entry.value.asNumber with
    | error fault => exact .looked hnot nofun .refl
    | ok current =>
      dsimp only
      split
      · have hkept := isExpired_of_live hlive
        exact .rewritten hnot rfl hlive fun _ => hkept
      · rw [Action.run_bind, Action.run_ofExcept]
        cases key.value.asText with
        | error fault => exact .looked hnot nofun .refl
        | ok written => exact .looked hnot nofun .refl

theorem step_touch :
    Step options now s (.call (.touch key ttl)) (touch options now key ttl s).state := by
  refine step_require False.elim nofun fun hs => ?_
  split
  · rw [Action.run_bind_quiet (run_look now key s)]
    cases hlive : s.live? now key with
    | none => exact .looked id nofun (.look .refl key)
    | some entry =>
      rw [afterLook_of_live hlive]
      dsimp only
      rw [Action.run_bind, Action.run_ofExcept]
      cases hseconds : ttl.asNumber with
      | error fault => exact .looked id nofun .refl
      | ok seconds =>
        exact .rewritten id rfl hlive fun htimely =>
          isExpired_of_timely (htimely ttl rfl seconds hseconds)
  · exact .looked id nofun .refl

theorem state_start : (start options s).state = { s with initialized := true } := by
  unfold start
  simp only [Action.run_bind, Action.run_update, Action.run_ofExcept]
  cases options.createsOnIncrement.asText with
  | error fault => rfl
  | ok creates => cases options.supportsTouch.asText <;> rfl

theorem looked_collect {keys : List Key} (h : Looked now s s') :
    Looked now s (collect now keys s').state := by
  induction keys generalizing s' with
  | nil => exact h
  | cons key rest ih =>
    unfold collect
    rw [Action.run_bind_quiet (run_look now key s')]
    cases s'.live? now key with
    | none => exact ih (h.look key)
    | some entry =>
      dsimp only
      rw [state_bind_pure]
      exact ih (h.look key)

theorem step_perform :
    Step options now s operation (perform options (now, operation) s).state := by
  cases operation with
  | remainingTtl key =>
    rw [perform, map_eq_pure_bind, state_bind_pure]
    exact .looked id nofun (.look .refl key)
  | call call =>
    have hstate : (perform options (now, .call call) s).state = (store options now call s).state := by
      rw [perform, map_eq_pure_bind, state_bind_pure]
    rw [hstate]
    cases call with
    | start =>
      have hstart : (store options now .start s).state = _ := state_start
      rw [hstart]
      exact .started rfl
    | close => exact .closed rfl
    | isInitialized => exact .looked id nofun .refl
    | increment key => exact step_increment
    | addIfAbsent key value ttl => exact step_addIfAbsent
    | touch key ttl => exact step_touch
    | set key value ttl => exact step_set
    | get key => exact step_require False.elim nofun fun _ => .looked id nofun (.look .refl key)
    | getMulti keys =>
      refine step_require False.elim nofun fun _ => ?_
      rw [Action.run_bind, Action.run_ofExcept]
      cases keys.iterate "keys" with
      | error fault => exact .looked id nofun .refl
      | ok items =>
        dsimp only
        rw [state_bind_pure]
        exact .looked id nofun (looked_collect .refl)

end

-- ---------------------------------------------------------------------------
-- Looks
-- ---------------------------------------------------------------------------

section
variable {options : Options} {now : Binary64} {s s' : State} {operation : Operation}

@[simp] theorem afterLook_lastSweepAt (s : State) (now : Binary64) (key : Key) :
    (s.afterLook now key).lastSweepAt = s.lastSweepAt := by
  unfold State.afterLook
  split
  · split <;> rfl
  · rfl

theorem Looked.lastSweepAt (h : Looked now s s') : s'.lastSweepAt = s.lastSweepAt := by
  induction h with
  | refl => rfl
  | look _ key ih => rw [afterLook_lastSweepAt, ih]

theorem Looked.live? (h : Looked now s s') (key : Key) : s'.live? now key = s.live? now key := by
  induction h with
  | refl => rfl
  | look _ looked ih => rw [live?_afterLook (fun _ => id), ih]

theorem Looked.all {P : Key.Identity → Entry → Prop} (h : Looked now s s') (hall : s.All P) :
    s'.All P := by
  induction h with
  | refl => exact hall
  | look _ key ih => exact ih.afterLook now key

end

-- ---------------------------------------------------------------------------
-- Answers
-- ---------------------------------------------------------------------------

inductive Answered (options : Options) (now : Binary64) (s : State) : Operation → Prop
  | set (h : (store options now (.set key value ttl) s).reply = .ok reply) :
      Answered options now s (.call (.set key value ttl))
  | added (h : (store options now (.addIfAbsent key value ttl) s).reply = .ok (.bool true)) :
      Answered options now s (.call (.addIfAbsent key value ttl))
  | created (habsent : s.live? now key = none)
      (h : (store options now (.increment key) s).reply = .ok (.number 1)) :
      Answered options now s (.call (.increment key))

theorem Answered.stores {options : Options} {now : Binary64} {s : State} {operation : Operation}
    (h : Answered options now s operation) : operation.Stores options now s := by
  have hinit {α : Type} {f : Unit → StoreAction State α} {a : α}
      (h : ((require >>= f) s).reply = .ok a) : s.initialized = true ∧ (f () s).reply = .ok a := by
    cases hs : s.initialized with
    | true =>
      rw [Action.run_bind_quiet (run_require hs)] at h
      exact ⟨rfl, h⟩
    | false =>
      rw [Action.run_bind_error (run_require_error hs)] at h
      cases h
  cases h with
  | set h => exact (hinit h).1
  | @added key value ttl h =>
    obtain ⟨hs, hreply⟩ := hinit h
    refine ⟨hs, ?_⟩
    rw [Action.run_bind_quiet (run_look now key s)] at hreply
    cases hlive : s.live? now key with
    | none => rfl
    | some entry =>
      rw [hlive] at hreply
      cases hreply
  | @created key habsent h =>
    obtain ⟨hs, hreply⟩ := hinit h
    refine ⟨hs, habsent, ?_⟩
    rw [Action.run_bind_quiet (run_look now key s), habsent] at hreply
    by_contra hcreates
    dsimp only at hreply
    rw [if_neg hcreates] at hreply
    cases hreply

end SlidingTally.MemoryStore
