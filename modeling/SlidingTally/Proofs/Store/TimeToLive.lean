import SlidingTally.Proofs.Number.Exact
import SlidingTally.Proofs.Store.ClientCalls
import SlidingTally.Proofs.Store.Lifecycle
import SlidingTally.Proofs.Window.Lifetime

/-!
# Times to live

The expiry that a call gives its key, in stores of each kind: in memory and over documents it is an
instant, and a Redis server is told how long the key is to live. Main statements:
`written_of_nonpositive` for times to live of zero or less and `deadline_le_written` for all others.
-/

namespace SlidingTally

open SlidingTally.Action (Triple)
open Binary64 (ofNat is_ofNat unitsPerOne_cast_pos)

-- ---------------------------------------------------------------------------
-- Calls that take effect
-- ---------------------------------------------------------------------------

namespace KeyCall

def ttl? : KeyCall → Option Binary64
  | .addIfAbsent _ ttl => some ttl
  | .touch ttl => some ttl
  | .set _ ttl => some ttl
  | _ => none

def isSet : KeyCall → Bool
  | .set _ _ => true
  | _ => false

def effect? : KeyCall → Option Value
  | .addIfAbsent _ _ => some (.bool true)
  | .touch _ => some TouchResult.touched.value
  | .set _ _ => some .undefined
  | _ => none

end KeyCall

-- ---------------------------------------------------------------------------
-- Expiries
-- ---------------------------------------------------------------------------

/-- When a key is to expire: at an instant, or so many milliseconds after the reading that it was
written at. -/
inductive Expiry where
  | at (instant : Binary64)
  | after (milliseconds : Binary64)

def Expiry.units (now : Binary64) : Expiry → Int
  | .at instant => instant.units
  | .after milliseconds => now.units + milliseconds.units

def RedisStore.Command.written (fullKey : String) : RedisStore.Command → Option (Option Expiry)
  | .set key _ milliseconds _ => if key = fullKey then some (milliseconds.map .after) else none
  | .pexpire key milliseconds => if key = fullKey then some (some (.after milliseconds)) else none
  | _ => none

def MongoStore.Command.written (key : String) : MongoStore.Command → Option (Option Expiry)
  | .create (.text id) _ expiresAt =>
    if id = key then some (expiresAt.map fun instant => .at instant.toNumber) else none
  | .updateOne ⟨.one (.text id), _⟩ change _ _ =>
    if id = key then some (change.expiresAt.map fun instant => .at instant.toNumber) else none
  | _ => none

namespace Backend

def isRedis : Backend σ → Bool
  | .redis _ _ => true
  | _ => false

def isMongo : Backend σ → Bool
  | .mongo _ _ => true
  | _ => false

/-- The expiry that a key has in memory, or that the last command to the client gave it; none
inside for no expiry. -/
def written : Backend σ → String → σ → Option (Option Expiry)
  | .memory _ _, key, s => (s.stored? (.text key)).map fun entry => entry.expiresAt.map .at
  | .redis _ keyScope, key, s => s.client.2.getLast?.bind (·.written (keyScope ++ key))
  | .mongo _ _, key, s => s.client.2.getLast?.bind (·.written key)

structure Writes (backend : Backend σ) (now : Binary64) (key : String) (act : KeyCall)
    (ttl : Binary64) (s : σ) : Prop where
  ttl : act.ttl? = some ttl
  effect : ∃ reply, act.effect? = some reply ∧ (backend.store now (act.call key) s).reply = .ok reply

def expiry : Backend σ → KeyCall → Binary64 → Binary64 → Option Expiry
  | .memory _ _, _, now, ttl => (MemoryStore.expiry now ttl).map .at
  | .redis _ _, act, _, ttl =>
    if act.isSet && !Binary64.zero.lt ttl then none else some (.after (RedisStore.milliseconds ttl))
  | .mongo _ _, _, now, ttl => (MongoStore.expiry now ttl).map fun instant => .at instant.toNumber

end Backend

theorem RedisStore.written_commandFor {act : KeyCall} {ttl : Binary64} (httl : act.ttl? = some ttl)
    (client : Client κ) (keyScope fullKey : String) (now : Binary64) :
    (commandFor fullKey act).written fullKey =
      some ((Backend.redis client keyScope).expiry act now ttl) := by
  cases act with
  | addIfAbsent value ttl' =>
    cases httl
    exact if_pos rfl
  | touch ttl' =>
    cases httl
    exact if_pos rfl
  | set value ttl' =>
    cases httl
    refine (if_pos rfl).trans ?_
    cases hpos : Binary64.zero.lt ttl with
    | true => simp [Backend.expiry, hpos]
    | false => simp [Backend.expiry, KeyCall.isSet, hpos]
  | _ => cases httl

theorem MongoStore.written_commandFor {act : KeyCall} {ttl : Binary64} (httl : act.ttl? = some ttl)
    (client : Client κ) (settings : Settings) (key : String) (now : Binary64) :
    (commandFor settings now key act).written key =
      some ((Backend.mongo client settings).expiry act now ttl) := by
  cases act with
  | addIfAbsent value ttl' =>
    cases httl
    exact if_pos rfl
  | touch ttl' =>
    cases httl
    exact if_pos rfl
  | set value ttl' =>
    cases httl
    exact if_pos rfl
  | _ => cases httl

-- ---------------------------------------------------------------------------
-- In memory
-- ---------------------------------------------------------------------------

namespace MemoryStore

variable {now : Binary64} {s : State}

theorem stored?_put (s : State) (key : Key) (entry : Entry) :
    (s.put key entry).stored? key = some entry := by
  rw [State.stored?, State.put, Table.get?_insert, if_pos rfl]

def Expires (now : Binary64) (key : String) (ttl : Binary64) (s : State) : Prop :=
  ∃ entry, s.stored? (.text key) = some entry ∧ entry.expiresAt = expiry now ttl

theorem expires_put {key : String} {entry : Entry} {ttl seconds : Binary64}
    (hexpiry : entry.expiresAt = expiry now seconds)
    (hseconds : (Value.number ttl).asNumber = .ok seconds) :
    Expires now key ttl (s.put (.text key) entry) := by
  cases hseconds
  exact ⟨entry, stored?_put s _ entry, hexpiry⟩

theorem stable_true (now : Binary64) : Stable now fun _ => True := ⟨fun _ _ h => h, fun _ h => h⟩

theorem triple_effect (options : Options) (key : String) {act : KeyCall} {ttl : Binary64}
    (httl : act.ttl? = some ttl) :
    Triple (store options now (act.call key)) s []
      (fun reply s' _ => act.effect? = some reply → Expires now key ttl s') fun _ _ _ => True := by
  cases act with
  | addIfAbsent value ttl' =>
    cases httl
    refine (triple_addIfAbsent (stable_true now) trivial (.number ttl)
      fun s seconds _ _ hseconds => expires_put rfl hseconds).mono ?_ fun _ _ _ _ => trivial
    rintro reply s' j' (⟨-, h⟩ | ⟨rfl, -⟩) heffect
    · exact h
    · cases heffect
  | touch ttl' =>
    cases httl
    -- A key that is not there, or a store that cannot touch, gives another result than `touched`.
    have hother {result : TouchResult} (h : result ≠ .touched) :
        (KeyCall.touch ttl).effect? ≠ some result.value := by
      cases result <;> simp_all [KeyCall.effect?, TouchResult.value, TouchResult.name]
    refine Triple.bind (triple_require (A := fun _ => True) trivial) fun _ s₁ j₁ _ => ?_
    split
    · refine Triple.bind (triple_look (stable_true now) trivial) ?_
      rintro entry s₂ j₂ -
      cases entry with
      | none => exact Triple.pure fun heffect => absurd heffect (hother (by simp))
      | some entry =>
        refine Triple.bind (triple_ofExcept trivial) ?_
        rintro seconds s₃ j₃ ⟨hseconds, -⟩
        refine Triple.bind (Q := fun _ s' _ => Expires now key ttl s')
          (Triple.update (expires_put rfl hseconds)) fun _ s₄ j₄ h₄ => ?_
        exact Triple.pure fun _ => h₄
    · exact Triple.pure fun heffect => absurd heffect (hother (by simp))
  | set value ttl' =>
    cases httl
    refine Triple.bind (triple_require (A := fun _ => True) trivial) fun _ s₁ j₁ _ => ?_
    refine Triple.bind (triple_write (B := Expires now key ttl) (stable_true now) trivial (.number ttl)
      fun s seconds _ hseconds => expires_put rfl hseconds) fun _ s₂ j₂ h₂ => ?_
    exact Triple.pure fun _ => h₂
  | _ => cases httl

end MemoryStore

-- ---------------------------------------------------------------------------
-- Over a client
-- ---------------------------------------------------------------------------

theorem Backend.flag_of_reply {f : τ → Bool} {t : τ} {fault : Fault}
    {rest : Unit → StoreAction τ Value}
    (h : (((Action.view f >>= fun set => if set then pure () else Action.fail fault) >>= rest :
      StoreAction τ Value) t).reply = .ok reply) : f t = true := by
  by_contra hnot
  rw [Action.run_bind_error (run_flag (Bool.eq_false_iff.mpr hnot) fault)] at h
  cases h

theorem RedisStore.initialized_of_reply {client : Client κ} {settings : Settings} {key : String}
    {act : KeyCall} {s : State κ}
    (h : (store client settings now (act.call key) s).reply = .ok reply) :
    s.initialized = true := by
  cases act <;> exact Backend.flag_of_reply h

theorem MongoStore.initialized_of_reply {client : Client κ} {settings : Settings} {key : String}
    {act : KeyCall} {s : State κ}
    (h : (store client settings now (act.call key) s).reply = .ok reply) :
    (s.initialized && s.hasModel) = true := by
  cases act <;> exact Backend.flag_of_reply (f := fun s => State.initialized s && s.hasModel) h

namespace Backend

variable {backend : Backend σ} {now ttl : Binary64} {key : String} {act : KeyCall} {s : σ}

theorem Writes.written (h : backend.Writes now key act ttl s) :
    backend.written key (backend.store now (act.call key) s).state =
      some (backend.expiry act now ttl) := by
  obtain ⟨httl, reply, heffect, hreply⟩ := h
  cases backend with
  | memory createsOnIncrement supportsTouch =>
    obtain ⟨entry, hstored, hexpiry⟩ :=
      (MemoryStore.triple_effect _ key httl).of_reply hreply heffect
    simp only [Backend.written, store, hstored, Option.map_some, hexpiry, expiry]
  | redis client keyScope =>
    have hrun := RedisStore.run_on client.recorded keyScope now key act
      (RedisStore.initialized_of_reply hreply)
    have hsent : (RedisStore.store client.recorded ⟨.text keyScope⟩ now (act.call key) s).state.client.2 =
        s.client.2 ++ [RedisStore.commandFor (keyScope ++ key) act] := by
      rw [hrun]
      rfl
    simp only [Backend.written, store, hsent, List.getLast?_concat, Option.bind_some]
    exact RedisStore.written_commandFor httl client keyScope _ now
  | mongo client settings =>
    have hrun := MongoStore.run_on client.recorded settings now key act
      (MongoStore.initialized_of_reply hreply)
    have hsent : (MongoStore.store client.recorded settings now (act.call key) s).state.client.2 =
        s.client.2 ++ [MongoStore.commandFor settings now key act] := by
      rw [hrun]
      rfl
    simp only [Backend.written, store, hsent, List.getLast?_concat, Option.bind_some]
    exact MongoStore.written_commandFor httl client settings key now

end Backend

-- ---------------------------------------------------------------------------
-- Times to live of zero or less
-- ---------------------------------------------------------------------------

theorem RedisStore.milliseconds_of_nonpositive {ttl : Binary64} (hfinite : ttl.isFinite = true)
    (hle : ttl.le .zero = true) : milliseconds ttl = 1 := by
  have hproduct : (ttl * 1000).Nonpositive :=
    (Binary64.nonpositive_iff_le.mpr hle).mul hfinite Binary64.thousand_is.1 (Binary64.isNegative_ofInt _)
  exact Binary64.max_one_of_nonpositive hproduct.ceil

/-- A finite time to live of zero or less keeps a key without expiry in every store and by every
call, but for `addIfAbsent` and `touch` over Redis, which give it one millisecond. -/
theorem written_of_nonpositive (backend : Backend σ) {now ttl : Binary64} {key : String}
    {act : KeyCall} {s : σ} (hfinite : ttl.isFinite = true) (hle : ttl.le .zero = true)
    (h : backend.Writes now key act ttl s) :
    backend.written key (backend.store now (act.call key) s).state =
      some (if backend.isRedis && !act.isSet then some (.after 1) else none) := by
  have hnot := (Binary64.nonpositive_iff_le.mpr hle).lt_eq_false
  rw [h.written]
  cases backend with
  | memory createsOnIncrement supportsTouch =>
    simp [Backend.expiry, MemoryStore.expiry, hnot, Backend.isRedis]
  | redis client keyScope =>
    rw [Backend.expiry, RedisStore.milliseconds_of_nonpositive hfinite hle]
    cases hset : act.isSet with
    | true => simp [hnot]
    | false => simp [Backend.isRedis]
  | mongo client settings =>
    simp [Backend.expiry, MongoStore.expiry, hnot, Backend.isRedis]

def obliging : RedisStore.Client Unit where
  isCluster := false
  status _ := "ready"
  send _ _ s := (.ok (.text "OK"), s)

theorem writes_obliging (now ttl : Binary64) (value : Value) {act : KeyCall}
    (hact : act = .set value ttl ∨ act = .addIfAbsent value ttl) :
    (Backend.redis obliging "velocity:").Writes now "a" act ttl
      { initialized := true, client := ((), []) } := by
  have hrun := RedisStore.run_on obliging.recorded "velocity:" now "a" act
    (s := { initialized := true, client := ((), []) }) rfl
  obtain rfl | rfl := hact
  · exact ⟨rfl, _, rfl, congrArg Outcome.reply hrun⟩
  · exact ⟨rfl, _, rfl, congrArg Outcome.reply hrun⟩

theorem written_of_nonpositive_set :
    let backend := Backend.redis obliging "velocity:"
    let s : RedisStore.State (Unit × List RedisStore.Command) :=
      { initialized := true, client := ((), []) }
    let act := KeyCall.set (.text "v") (-1)
    (-1 : Binary64).isFinite = true ∧ (-1 : Binary64).le .zero = true ∧
      backend.Writes 0 "a" act (-1) s ∧
      backend.written "a" (backend.store 0 (act.call "a") s).state = some none := by
  intro backend s act
  have hfinite : (-1 : Binary64).isFinite = true := by decide +kernel
  have hle : (-1 : Binary64).le .zero = true := by decide +kernel
  have hwrites : backend.Writes 0 "a" act (-1) s :=
    writes_obliging 0 (-1) (.text "v") (.inl rfl)
  exact ⟨hfinite, hle, hwrites, written_of_nonpositive backend hfinite hle hwrites⟩

/-- What is created in Redis with no time to live expires at once. -/
theorem addIfAbsent_expires :
    let backend := Backend.redis obliging "velocity:"
    let s : RedisStore.State (Unit × List RedisStore.Command) :=
      { initialized := true, client := ((), []) }
    let act := KeyCall.addIfAbsent (.number 1) .zero
    Binary64.zero.isFinite = true ∧ Binary64.zero.le .zero = true ∧
      backend.Writes 0 "a" act .zero s ∧
      backend.written "a" (backend.store 0 (act.call "a") s).state = some (some (.after 1)) := by
  intro backend s act
  have hle : Binary64.zero.le .zero = true := by decide +kernel
  have hwrites : backend.Writes 0 "a" act .zero s :=
    writes_obliging 0 .zero (.number 1) (.inr rfl)
  refine ⟨rfl, hle, hwrites, hwrites.written.trans ?_⟩
  rw [Backend.expiry, RedisStore.milliseconds_of_nonpositive rfl hle]
  rfl

-- ---------------------------------------------------------------------------
-- Positive times to live
-- ---------------------------------------------------------------------------

/-- A positive time to live within bounds whose deadline, counted from a reading in whole
milliseconds, is computed without rounding. -/
structure Exact (c : Nat) (ttl : Binary64) : Prop where
  early : c ≤ 10 ^ 14
  positive : Binary64.zero.lt ttl = true
  bounded : ttl.le (ofNat (10 ^ 10)) = true
  sum : (ofNat c + ttl * 1000).units = (ofNat c).units + 1000 * ttl.units

namespace Exact

variable {c : Nat} {ttl : Binary64}

theorem within (h : Exact c ttl) : ttl.Within 0 ((10 ^ 10 : Nat) * unitsPerOne) := by
  have hmost : (ofNat (10 ^ 10)).Is (10 ^ 10 : Nat) := is_ofNat (by decide)
  have hzero : Binary64.zero.le ttl = true := by
    rw [Binary64.le, h.positive]
    rfl
  have hwithin : ttl.Within Binary64.zero.units (ofNat (10 ^ 10)).units :=
    Binary64.within_of_le rfl hmost.1 hzero h.bounded
  rwa [hmost.2] at hwithin

theorem units_pos (h : Exact c ttl) : 0 < ttl.units :=
  (Binary64.lt_iff_units (x := .zero) rfl h.within.finite).mp h.positive

theorem units_ofNat (h : Exact c ttl) : (ofNat c).units = c * unitsPerOne :=
  (is_ofNat (Nat.le_trans h.early (by decide))).2

theorem reading_nonneg (c : Nat) : (0 : Int) ≤ c * unitsPerOne :=
  Int.mul_nonneg (Int.natCast_nonneg c) (Int.le_of_lt unitsPerOne_cast_pos)

theorem lt_limit (h : Exact c ttl) : c * unitsPerOne + 1000 * ttl.units < 2 ^ 50 * unitsPerOne := by
  have hone := unitsPerOne_cast_pos
  have hearly : (c : Int) * unitsPerOne ≤ 10 ^ 14 * unitsPerOne := by
    have := h.early
    gcongr
    exact_mod_cast this
  have hmost := h.within.le
  push_cast at hmost
  omega

theorem deadline (h : Exact c ttl) :
    (ofNat c + ttl * 1000).Within (c * unitsPerOne + 1000 * ttl.units)
      (c * unitsPerOne + 1000 * ttl.units) := by
  have hsum := h.sum
  rw [h.units_ofNat] at hsum
  have hreading := reading_nonneg c
  have hpos := h.units_pos
  rw [← hsum]
  exact Binary64.within_units (Binary64.isFinite_of_units_pos (by omega))

theorem milliseconds (h : Exact c ttl) :
    (ttl * 1000).Within (1000 * ttl.units) (1000 * ttl.units) := by
  have hone := unitsPerOne_cast_pos
  have hpos := h.units_pos
  have hsum := (ofNat c + ttl * 1000).representable_units
  rw [h.sum, h.units_ofNat] at hsum
  -- The sum is a double, and so then is what it adds to the reading; a product that is a double
  -- is not rounded.
  have hrepresentable : Representable (1000 * ttl.units) :=
    Binary64.representable_addend (by omega) hsum (h.lt_limit.trans (by omega))
  have hproduct : ttl.units * (1000 : Binary64).units = 1000 * ttl.units * unitsPerOne := by
    rw [Binary64.thousand_is.2]
    ring
  exact Binary64.mul_within h.within.finite Binary64.thousand_is.1 hrepresentable hrepresentable
    (Int.le_of_eq hproduct.symm) (Int.le_of_eq hproduct)

end Exact

/-- Redis is told the milliseconds rounded up. -/
theorem RedisStore.milliseconds_is {c : Nat} {ttl : Binary64} (h : Exact c ttl) :
    ∃ k : Int, (milliseconds ttl).Is k ∧ 1000 * ttl.units ≤ k * unitsPerOne ∧
      (k - 1) * unitsPerOne < 1000 * ttl.units := by
  have hone := unitsPerOne_cast_pos
  have hpos := h.units_pos
  have hlimit := h.lt_limit
  have hreading := Exact.reading_nonneg c
  have hunits : (ttl * 1000).units = 1000 * ttl.units :=
    Int.le_antisymm h.milliseconds.le h.milliseconds.ge
  obtain ⟨k, hle, hlt⟩ := Binary64.exists_ceil (1000 * ttl.units)
  have hsmall : k - 1 < 2 ^ 50 :=
    Int.lt_of_mul_lt_mul_right (Int.lt_trans hlt (by omega)) (Int.le_of_lt hone)
  have hleast : 0 < k := by
    refine Int.lt_of_mul_lt_mul_right (a := unitsPerOne) ?_ (Int.le_of_lt hone)
    omega
  have hceil : (ttl * 1000).ceil.Is k := by
    apply Binary64.ceil_is
    · omega
    · omega
    · omega
    · omega
  obtain ⟨hfinite, hmax⟩ := Binary64.units_max Binary64.one_is.1 hceil.1
  refine ⟨k, ⟨hfinite, ?_⟩, hle, hlt⟩
  rw [milliseconds, hmax, Binary64.one_is.2, hceil.2]
  exact Int.max_eq_right (Int.mul_le_mul_of_nonneg_right hleast (Int.le_of_lt hone))

theorem Instant.ofNumber_of_trunc {x : Binary64} {k : Int} (h : x.trunc.Is k)
    (hk : k.natAbs ≤ limit) : ofNumber x = .at k := by
  have hrange : -limit ≤ k ∧ k ≤ limit := by omega
  simp only [ofNumber, h.toInt?, if_pos hrange]

/-- A date has the milliseconds of the deadline rounded down. -/
theorem MongoStore.expiry_is {c : Nat} {ttl : Binary64} (h : Exact c ttl) :
    ∃ k : Int, expiry (ofNat c) ttl = some (.at k) ∧ (Instant.at k).toNumber.Is k ∧
      k * unitsPerOne ≤ c * unitsPerOne + 1000 * ttl.units ∧
      c * unitsPerOne + 1000 * ttl.units < (k + 1) * unitsPerOne := by
  have hone := unitsPerOne_cast_pos
  have hpos := h.units_pos
  have hlimit := h.lt_limit
  have hreading := Exact.reading_nonneg c
  have hunits : (ofNat c + ttl * 1000).units = c * unitsPerOne + 1000 * ttl.units :=
    Int.le_antisymm h.deadline.le h.deadline.ge
  obtain ⟨k, hle, hlt⟩ := Binary64.exists_floor (c * unitsPerOne + 1000 * ttl.units)
  have hleast : 0 < k + 1 := by
    refine Int.lt_of_mul_lt_mul_right (a := unitsPerOne) ?_ (Int.le_of_lt hone)
    omega
  have hsmall : k < 2 ^ 50 :=
    Int.lt_of_mul_lt_mul_right (Int.lt_of_le_of_lt hle hlimit) (Int.le_of_lt hone)
  have htrunc : (ofNat c + ttl * 1000).trunc.Is k := by
    apply Binary64.trunc_is
    · omega
    · omega
    · omega
    · omega
  have hdates : Instant.limit = 8640000000000000 := rfl
  have hdate := Instant.ofNumber_of_trunc htrunc (by omega)
  refine ⟨k, ?_, Binary64.is_ofInt (by omega), hle, hlt⟩
  rw [expiry, if_pos h.positive, hdate]

theorem deadline_le_iff_dvd {c : Nat} {k units : Int} (hle : k * unitsPerOne ≤ c * unitsPerOne + units)
    (hlt : c * unitsPerOne + units < (k + 1) * unitsPerOne) :
    c * unitsPerOne + units ≤ k * unitsPerOne ↔ (unitsPerOne : Int) ∣ units := by
  have hone := unitsPerOne_cast_pos
  constructor
  · intro hdeadline
    refine ⟨k - c, ?_⟩
    rw [Int.mul_comm, Int.sub_mul]
    omega
  · rintro ⟨m, rfl⟩
    rw [Int.mul_comm (unitsPerOne : Int) m, ← Int.add_mul] at hlt ⊢
    have hwhole := Int.lt_of_mul_lt_mul_right hlt (Int.le_of_lt hone)
    exact Int.mul_le_mul_of_nonneg_right (by omega) (Int.le_of_lt hone)

/-- Where the deadline that a time to live asks for is computed without rounding, every store keeps
the key to within a millisecond of it, and none ends before it but a store over documents, which
does so whenever the time to live is not in whole milliseconds. -/
theorem deadline_le_written (backend : Backend σ) {c : Nat} {ttl : Binary64} {key : String}
    {act : KeyCall} {s : σ} (hexact : Exact c ttl) (h : backend.Writes (ofNat c) key act ttl s) :
    ∃ expiry, backend.written key (backend.store (ofNat c) (act.call key) s).state =
        some (some expiry) ∧
      ((ofNat c).units + 1000 * ttl.units ≤ expiry.units (ofNat c) ↔
        backend.isMongo = false ∨ (unitsPerOne : Int) ∣ 1000 * ttl.units) ∧
      (ofNat c).units + 1000 * ttl.units - unitsPerOne < expiry.units (ofNat c) ∧
      expiry.units (ofNat c) < (ofNat c).units + 1000 * ttl.units + unitsPerOne := by
  have hone := unitsPerOne_cast_pos
  rw [h.written]
  cases backend with
  | memory createsOnIncrement supportsTouch =>
    refine ⟨.at (ofNat c + ttl * 1000), ?_, ?_⟩
    · simp [Backend.expiry, MemoryStore.expiry, hexact.positive]
    · rw [Expiry.units, hexact.sum]
      exact ⟨iff_of_true (Int.le_refl _) (.inl rfl), by omega, by omega⟩
  | redis client keyScope =>
    obtain ⟨k, hk, hle, hlt⟩ := RedisStore.milliseconds_is hexact
    rw [Int.sub_mul, Int.one_mul] at hlt
    refine ⟨.after (RedisStore.milliseconds ttl), ?_, ?_⟩
    · simp [Backend.expiry, hexact.positive]
    · rw [Expiry.units, hk.2]
      exact ⟨iff_of_true (by omega) (.inl rfl), by omega, by omega⟩
  | mongo client settings =>
    obtain ⟨k, hexpiry, hk, hle, hlt⟩ := MongoStore.expiry_is hexact
    refine ⟨.at (Instant.at k).toNumber, ?_, ?_⟩
    · simp [Backend.expiry, hexpiry]
    · rw [Expiry.units, hk.2, hexact.units_ofNat, deadline_le_iff_dvd hle hlt]
      rw [Int.add_mul, Int.one_mul] at hlt
      exact ⟨by simp [Backend.isMongo], by omega, by omega⟩

def moment : Binary64 := 1 / 1024

theorem exact_moment : Exact 1000 moment where
  early := by decide
  positive := by decide +kernel
  bounded := by decide +kernel
  sum := by decide +kernel

theorem deadline_le_written_moment :
    let backend := Backend.redis obliging "velocity:"
    let s : RedisStore.State (Unit × List RedisStore.Command) :=
      { initialized := true, client := ((), []) }
    let act := KeyCall.set (.text "v") moment
    Exact 1000 moment ∧ backend.Writes (ofNat 1000) "a" act moment s ∧
      ∃ expiry, backend.written "a" (backend.store (ofNat 1000) (act.call "a") s).state =
          some (some expiry) ∧
        (ofNat 1000).units + 1000 * moment.units ≤ expiry.units (ofNat 1000) := by
  intro backend s act
  have hwrites : backend.Writes (ofNat 1000) "a" act moment s :=
    writes_obliging (ofNat 1000) moment (.text "v") (.inl rfl)
  obtain ⟨expiry, hwritten, hiff, -⟩ := deadline_le_written backend exact_moment hwrites
  exact ⟨exact_moment, hwrites, expiry, hwritten, hiff.mpr (.inl rfl)⟩

def obligingModel : MongoStore.Client Unit where
  collection := "counters"
  send _ _ s := (.ok (.record [("matchedCount", .number 1)]), s)

/-- Over documents a key with such a time to live is past its expiry when it is written. -/
theorem written_lt_deadline :
    let backend := Backend.mongo obligingModel {}
    let s : MongoStore.State (Unit × List MongoStore.Command) :=
      { initialized := true, hasModel := true, client := ((), []) }
    let act := KeyCall.set (.text "v") moment
    Exact 1000 moment ∧ backend.Writes (ofNat 1000) "a" act moment s ∧
      ∃ expiry, backend.written "a" (backend.store (ofNat 1000) (act.call "a") s).state =
          some (some expiry) ∧
        expiry.units (ofNat 1000) < (ofNat 1000).units + 1000 * moment.units := by
  intro backend s act
  have hrun := MongoStore.run_on obligingModel.recorded {} (ofNat 1000) "a" act (s := s) rfl
  have hwrites : backend.Writes (ofNat 1000) "a" act moment s :=
    ⟨rfl, _, rfl, congrArg Outcome.reply hrun⟩
  have hdate : MongoStore.expiry (ofNat 1000) moment = some (.at 1000) := by decide +kernel
  refine ⟨exact_moment, hwrites, .at (Instant.at 1000).toNumber, ?_, by decide +kernel⟩
  rw [hwrites.written]
  simp only [backend, Backend.expiry, hdate, Option.map_some]

end SlidingTally
