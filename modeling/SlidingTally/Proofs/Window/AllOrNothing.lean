import SlidingTally.Proofs.Store.Faulty
import SlidingTally.Proofs.Store.MemoryView
import SlidingTally.Proofs.Window.ExactCount

/-!
# Increments are all or nothing

Whichever store calls fail, an increment over the in-memory store writes its occurrence once or not
at all, and its status says which. An `Attempt` is what an increment starts from. Up to one store
call every state that is passed is `Unwritten`, from that call on every state is `Written`, and what
is left to do keeps it so. Main statement: `increment_allOrNothing`.
-/

namespace SlidingTally

open SlidingTally.Action (Triple)
open Binary64 (ofNat is_ofNat)
open MemoryStore (State Entry Options Stable)

namespace MemoryStore

def State.shown (s : State) (now : Binary64) (key : Key) : Value :=
  ((s.live? now key).map Entry.value).getD (.number (ofNat 0))

/-- Under the keys of buckets there are counts, of which none is more than `most`. -/
def Counted (most : Nat) (s : State) : Prop :=
  s.All fun identity entry => ∀ text, Bucket.IsKey text → identity = .text text →
    ∃ n, 1 ≤ n ∧ n ≤ most ∧ entry.value = .number (ofNat n)

theorem counted_empty (started : Bool) : Counted 0 { initialized := started } := by
  intro identity entry hentry
  cases hentry

theorem Counted.mono (h : Counted most s) (hle : most ≤ most') : Counted most' s := by
  intro identity entry hentry text htext heq
  obtain ⟨n, hpos, hn, hvalue⟩ := h identity entry hentry text htext heq
  exact ⟨n, hpos, Nat.le_trans hn hle, hvalue⟩

theorem Counted.put_spared (h : Counted most s)
    (hkey : ∀ text, Bucket.IsKey text → key.identity ≠ .text text) (entry : Entry) :
    Counted most (s.put key entry) :=
  State.All.put h fun text htext heq => absurd heq (hkey text htext)

theorem stable_counted (now : Binary64) (most : Nat) : Stable now (Counted most) :=
  stable_all now _

theorem Stable.keeps_read {A : State → Prop} (hA : Stable now A) (options : Options) :
    ∀ call, StoreCall.isRead call = true → Keeps (store options) now A call := by
  intro call hcall s hs
  cases call with
  | isInitialized => exact hs
  | get key => exact Triple.spec (P := fun _ s => A s) (j := []) (triple_get hA hs)
  | getMulti keys => exact Triple.spec (P := fun _ s => A s) (j := []) (triple_getMulti hA keys hs)
  | _ => cases hcall

end MemoryStore

open MemoryStore (Counted stable_counted)

-- ---------------------------------------------------------------------------
-- Attempts
-- ---------------------------------------------------------------------------

/-- A bucket that is about to be incremented. -/
structure Attempt where
  base : State
  now : Binary64
  bucket : String
  /-- The time to live that the bucket gets if it is new. -/
  ttl : Binary64
  /-- What is to be seen of the bucket, zero if it is new. -/
  count : Nat
  most : Nat
  few : most < 2 ^ 53
  isKey : Bucket.IsKey bucket
  counted : Counted most base
  seen : base.live? now (.text bucket) = none ∧ count = 0 ∨
    ∃ entry, base.live? now (.text bucket) = some entry ∧ entry.value = .number (ofNat count) ∧
      1 ≤ count ∧ count ≤ most

theorem exists_attempt (hfew : most < 2 ^ 53) (hkey : Bucket.IsKey bucket) (h : Counted most s)
    (now ttl : Binary64) : ∃ a : Attempt, a.base = s ∧ a.now = now ∧ a.bucket = bucket ∧
      a.ttl = ttl ∧ a.most = most := by
  cases hentry : s.live? now (.text bucket) with
  | none => exact ⟨⟨s, now, bucket, ttl, 0, most, hfew, hkey, h, .inl ⟨hentry, rfl⟩⟩,
      rfl, rfl, rfl, rfl, rfl⟩
  | some entry =>
    obtain ⟨n, hpos, hn, hvalue⟩ := State.All.live? h hentry bucket hkey rfl
    exact ⟨⟨s, now, bucket, ttl, n, most, hfew, hkey, h, .inr ⟨entry, hentry, hvalue, hpos, hn⟩⟩,
      rfl, rfl, rfl, rfl, rfl⟩

namespace Attempt

def Lasting (a : Attempt) : Prop :=
  a.base.live? a.now (.text a.bucket) = none → (a.now + a.ttl * 1000).le a.now = false

structure Unwritten (a : Attempt) (s : State) : Prop where
  view : ∀ key, s.live? a.now key = a.base.live? a.now key
  counted : Counted a.most s

structure Kept (a : Attempt) (s : State) : Prop where
  beside : ∀ key : Key, key.identity ≠ .text a.bucket → s.live? a.now key = a.base.live? a.now key
  counted : Counted (a.most + 1) s

structure Written (a : Attempt) (s : State) : Prop extends a.Kept s where
  value : ∀ entry, s.live? a.now (.text a.bucket) = some entry →
    entry.value = .number (ofNat (a.count + 1))
  present : a.Lasting → (s.live? a.now (.text a.bucket)).isSome = true

section
variable {a : Attempt} {s s' : State}

theorem unwritten_base (a : Attempt) : a.Unwritten a.base := ⟨fun _ => rfl, a.counted⟩

theorem Unwritten.kept (h : a.Unwritten s) : a.Kept s :=
  ⟨fun key _ => h.view key, h.counted.mono (Nat.le_succ _)⟩

theorem Unwritten.of_view (h : a.Unwritten s)
    (hview : ∀ key, s'.live? a.now key = s.live? a.now key) (hcounted : Counted a.most s') :
    a.Unwritten s' :=
  ⟨fun key => (hview key).trans (h.view key), hcounted⟩

theorem Written.of_view (h : a.Written s) (hview : ∀ key, s'.live? a.now key = s.live? a.now key)
    (hcounted : Counted (a.most + 1) s') : a.Written s' := by
  refine ⟨⟨fun key hkey => (hview key).trans (h.beside key hkey), hcounted⟩, ?_, ?_⟩
  · rw [hview]
    exact h.value
  · rw [hview]
    exact h.present

theorem stable_unwritten (a : Attempt) : Stable a.now a.Unwritten := by
  have hcounted := stable_counted a.now a.most
  refine ⟨fun s looked h => h.of_view ?_ (hcounted.afterLook s looked h.counted),
    fun s h => h.of_view ?_ (hcounted.sweep s h.counted)⟩
  · exact MemoryStore.live?_afterLook (fun _ => id) s looked
  · exact MemoryStore.live?_sweep (fun _ => id) s

theorem stable_written (a : Attempt) : Stable a.now a.Written := by
  have hcounted := stable_counted a.now (a.most + 1)
  refine ⟨fun s looked h => h.of_view ?_ (hcounted.afterLook s looked h.counted),
    fun s h => h.of_view ?_ (hcounted.sweep s h.counted)⟩
  · exact MemoryStore.live?_afterLook (fun _ => id) s looked
  · exact MemoryStore.live?_sweep (fun _ => id) s

theorem count_le (a : Attempt) : a.count ≤ a.most := by
  obtain ⟨-, hcount⟩ | ⟨entry, -, -, -, hle⟩ := a.seen
  · omega
  · exact hle

theorem count_eq_zero (h : a.base.live? a.now (.text a.bucket) = none) : a.count = 0 := by
  obtain ⟨-, hcount⟩ | ⟨entry, hentry, -⟩ := a.seen
  · exact hcount
  · rw [h] at hentry
    cases hentry

theorem live?_eq_none (h : a.count = 0) : a.base.live? a.now (.text a.bucket) = none := by
  obtain ⟨hnone, -⟩ | ⟨entry, -, -, hpos, -⟩ := a.seen
  · exact hnone
  · omega

theorem value_eq (h : a.base.live? a.now (.text a.bucket) = some entry) :
    entry.value = .number (ofNat a.count) := by
  obtain ⟨hnone, -⟩ | ⟨entry', hentry, hvalue, -⟩ := a.seen
  · rw [hnone] at h
    cases h
  · rw [hentry] at h
    cases h
    exact hvalue

theorem shown_base (a : Attempt) :
    a.base.shown a.now (.text a.bucket) = .number (ofNat a.count) := by
  unfold State.shown
  obtain ⟨hnone, hcount⟩ | ⟨entry, hentry, hvalue, -⟩ := a.seen
  · rw [hnone, hcount]
    rfl
  · rw [hentry]
    exact hvalue

theorem Written.shown (h : a.Written s) (hlasting : a.Lasting) :
    s.shown a.now (.text a.bucket) = .number (ofNat (a.count + 1)) := by
  obtain ⟨entry, hentry⟩ := Option.isSome_iff_exists.mp (h.present hlasting)
  unfold State.shown
  rw [hentry]
  exact h.value entry hentry

theorem Kept.put (h : a.Kept s) (hvalue : entry.value = .number (ofNat (a.count + 1)))
    (hpresent : a.Lasting → entry.isExpired a.now = false) :
    a.Written (s.put (.text a.bucket) entry) := by
  have hle := a.count_le
  refine ⟨⟨fun key hkey => ?_, ?_⟩, fun other hother => ?_, fun hlasting => ?_⟩
  · rw [MemoryStore.live?_put, Key.identity_text, if_neg hkey, h.beside key hkey]
  · exact h.counted.put fun _ _ _ => ⟨a.count + 1, by omega, by omega, hvalue⟩
  · rw [MemoryStore.live?_put, if_pos rfl] at hother
    obtain ⟨heq, -⟩ := Option.filter_eq_some_iff.mp hother
    cases heq
    exact hvalue
  · rw [MemoryStore.live?_put, if_pos rfl]
    simp [Option.filter, hpresent hlasting]

theorem Lasting.isExpired {key value : Value} (hlasting : a.Lasting) (hcount : a.count = 0) :
    Entry.isExpired ⟨key, value, MemoryStore.expiry a.now a.ttl⟩ a.now = false := by
  unfold Entry.isExpired MemoryStore.expiry
  split
  · rename_i instant hinstant
    dsimp only at hinstant
    split at hinstant
    · cases hinstant
      exact hlasting (live?_eq_none hcount)
    · cases hinstant
  · rfl

end

-- ---------------------------------------------------------------------------
-- The store calls
-- ---------------------------------------------------------------------------

def Incremented (a : Attempt) : Except Fault Value → State → Prop
  | .ok reply, s => reply = .null ∧ a.Unwritten s ∨
      reply = .number (ofNat (a.count + 1)) ∧ a.Written s
  | .error _, s => a.Unwritten s

def Added (a : Attempt) : Except Fault Value → State → Prop
  | .ok reply, s => reply = .bool true ∧ a.count = 0 ∧ a.Written s ∨
      reply = .bool false ∧ a.Unwritten s
  | .error _, s => a.Unwritten s

section
variable {a : Attempt} {s : State} {options : Options}

theorem triple_increment (h : a.Unwritten s) :
    Triple (MemoryStore.store options a.now (.increment (.text a.bucket))) s []
      (fun reply s' _ => a.Incremented (.ok reply) s')
      (fun fault s' _ => a.Incremented (.error fault) s') := by
  have hle := a.count_le
  have hfew := a.few
  refine (MemoryStore.triple_increment (B := fun x s' => x = ofNat (a.count + 1) ∧ a.Written s')
    a.stable_unwritten h ?_ ?_).mono ?_ fun _ _ _ h' => h'
  · intro s' h' hnone
    rw [h'.view] at hnone
    have hcount := count_eq_zero hnone
    refine ⟨by rw [hcount]; rfl, h'.kept.put ?_ fun _ => rfl⟩
    rw [hcount]
    rfl
  · intro s' entry x h' hentry hx
    have hfresh : entry.isExpired a.now = false := by
      simpa using (Option.filter_eq_some_iff.mp hentry).2
    have hnext : ofNat a.count + 1 = ofNat (a.count + 1) := Binary64.ofNat_add (n := 1) (by omega)
    rw [h'.view] at hentry
    rw [value_eq hentry, Value.asNumber_number] at hx
    cases hx
    rw [hnext]
    exact ⟨rfl, h'.kept.put rfl fun _ => hfresh⟩
  · rintro reply s' _ (⟨rfl, h'⟩ | ⟨x, rfl, rfl, h'⟩)
    · exact .inl ⟨rfl, h'⟩
    · exact .inr ⟨rfl, h'⟩

theorem triple_addIfAbsent (h : a.Unwritten s) :
    Triple (MemoryStore.store options a.now (.addIfAbsent (.text a.bucket) (.number 1) (.number a.ttl)))
      s [] (fun reply s' _ => a.Added (.ok reply) s')
      (fun fault s' _ => a.Added (.error fault) s') := by
  refine (MemoryStore.triple_addIfAbsent (B := fun s' => a.count = 0 ∧ a.Written s')
    a.stable_unwritten h (.number a.ttl) ?_).mono (fun _ _ _ h' => h') fun _ _ _ h' => h'
  intro s' seconds h' hnone hseconds
  rw [h'.view] at hnone
  cases hseconds
  have hcount := count_eq_zero hnone
  refine ⟨hcount, h'.kept.put ?_ fun hlasting => hlasting.isExpired hcount⟩
  rw [hcount]
  rfl

theorem keeps_touch (hcount : a.count = 0) :
    Keeps (MemoryStore.store options) a.now a.Written (.touch (.text a.bucket) (.number a.ttl)) := by
  intro s hs
  refine Triple.spec (P := fun _ s' => a.Written s') (j := [])
    (MemoryStore.triple_touch a.stable_written hs (.number a.ttl) ?_)
  intro s' entry seconds h' hentry hseconds
  cases hseconds
  exact h'.toKept.put (h'.value entry hentry) fun hlasting => hlasting.isExpired hcount

theorem keeps_set (hcount : a.count = 0) :
    Keeps (MemoryStore.store options) a.now a.Written
      (.set (.text a.bucket) (.number 1) (.number a.ttl)) := by
  intro s hs
  refine Triple.spec (P := fun _ s' => a.Written s') (j := [])
    (MemoryStore.triple_set a.stable_written hs (.number a.ttl) ?_)
  intro s' seconds h' hseconds
  cases hseconds
  refine h'.toKept.put ?_ fun hlasting => hlasting.isExpired hcount
  rw [hcount]
  rfl

end

-- ---------------------------------------------------------------------------
-- Writing the bucket
-- ---------------------------------------------------------------------------

abbrev wiring (a : Attempt) (options : Options) : Wiring (State × FaultPlan) :=
  { store := faulty (MemoryStore.store options), now := a.now }

section
variable {a : Attempt} {s : State × FaultPlan} {j : List Event} {options : Options}

theorem closed_unwritten (a : Attempt) (options : Options) : Closed (a.wiring options)
    (Keeps (MemoryStore.store options) a.now a.Unwritten) fun s j => a.Unwritten s.1 ∧ Unfinished j :=
  closed_faulty

theorem closed_written (a : Attempt) (options : Options) : Closed (a.wiring options)
    (Keeps (MemoryStore.store options) a.now a.Written) fun s j => a.Written s.1 ∧ Unfinished j :=
  closed_faulty

theorem triple_writeFailed (bucket : String) (fault : Fault) (h : a.Unwritten s.1 ∧ Unfinished j) :
    Triple (Counter.writeFailed bucket fault) s j
      (fun written s' j' => a.Incremented (.ok written) s'.1 ∧ Unfinished j')
      (fun _ s' j' => a.Unwritten s'.1 ∧ Unfinished j') := by
  have hI := closed_unwritten a {}
  refine Triple.bind (Q := fun _ s' j' => a.Unwritten s'.1 ∧ Unfinished j') ?_
    fun _ s' j' h' => Triple.pure ⟨.inl ⟨rfl, h'.1⟩, h'.2⟩
  exact triple_explain (fun _ _ => hI.log _ s j h) fun _ => h

theorem triple_createBucket (h : a.Unwritten s.1 ∧ Unfinished j) :
    Triple (Counter.createBucket (a.wiring options) a.bucket a.ttl) s j
      (fun written s' j' => a.Incremented (.ok written) s'.1 ∧ Unfinished j')
      (fun _ s' j' => a.Unwritten s'.1 ∧ Unfinished j') := by
  have hI := closed_unwritten a options
  refine triple_rescue (E := fun _ s' j' => a.Unwritten s'.1 ∧ Unfinished j') ?_
    (fun fault _ _ h' => triple_writeFailed a.bucket fault h') fun _ _ h' => h'
  refine Triple.bind ((triple_demand_faulty (P := a.Added) (fun _ => h.1)
    (triple_addIfAbsent h.1) h.2).mono (fun _ _ _ h' => h') ?_) ?_
  · rintro _ s' j' ⟨⟨fault, -, h'⟩, hj'⟩
    exact ⟨h', hj'⟩
  rintro _ s' j' ⟨⟨rfl, hcount, h'⟩ | ⟨rfl, h'⟩, hj'⟩
  -- the bucket is new
  · refine Triple.pure ⟨.inr ⟨?_, h'⟩, hj'⟩
    rw [hcount]
    rfl
  -- it is there after all, and is incremented once more
  · refine Triple.bind ((triple_demand_faulty (P := a.Incremented) (fun _ => h')
      (triple_increment h') hj').mono (fun _ _ _ h'' => h'') ?_) ?_
    · rintro _ s'' j'' ⟨⟨fault, -, h''⟩, hj''⟩
      exact ⟨h'', hj''⟩
    rintro _ s'' j'' ⟨⟨rfl, h''⟩ | ⟨rfl, h''⟩, hj''⟩
    · refine Triple.bind (Q := fun _ s' j' => a.Unwritten s'.1 ∧ Unfinished j') ?_
        fun _ _ _ h₃ => Triple.pure ⟨.inl ⟨rfl, h₃.1⟩, h₃.2⟩
      exact triple_say (hI.log _ _ _ ⟨h'', hj''⟩)
    · exact Triple.pure ⟨.inr ⟨rfl, h''⟩, hj''⟩

theorem triple_incrementBucket (h : a.Unwritten s.1 ∧ Unfinished j) :
    Triple (Counter.incrementBucket (a.wiring options) a.bucket a.ttl) s j
      (fun written s' j' => a.Incremented (.ok written) s'.1 ∧ Unfinished j')
      (fun _ s' j' => (a.Unwritten s'.1 ∨ a.Written s'.1) ∧ Unfinished j') := by
  have hle := a.count_le
  have hfew := a.few
  refine Triple.bind (triple_ask_faulty (P := a.Incremented) (fun _ => h.1)
    (triple_increment h.1) h.2) ?_
  rintro reply s' j' ⟨hreply, hj'⟩
  match reply, hreply with
  -- the store does not create it
  | .ok _, .inl ⟨rfl, h'⟩ =>
    exact (triple_createBucket ⟨h', hj'⟩).mono (fun _ _ _ h'' => h'') fun _ _ _ h'' =>
      ⟨.inl h''.1, h''.2⟩
  -- it is written, and only a new one is written again, with its time to live
  | .ok _, .inr ⟨rfl, h'⟩ =>
    dsimp only
    split
    · rename_i hone
      have hcount : a.count = 0 := by
        have := (isNumber_one (by omega)).mp hone
        omega
      have hassign := Counter.resolves_assignTtl (closed_written a options) _ _
        (keeps_touch hcount) (keeps_set hcount)
      refine Triple.bind ((hassign s' j' ⟨h', hj'⟩).mono (fun _ _ _ h'' => h'') ?_) ?_
      · exact fun _ _ _ h'' => ⟨.inr h''.1.1, h''.1.2⟩
      · exact fun _ s'' j'' h'' => Triple.pure ⟨.inr ⟨rfl, h''.1⟩, h''.2⟩
    · exact Triple.pure ⟨.inr ⟨rfl, h'⟩, hj'⟩
  -- the call did not reach the store
  | .error fault, h' =>
    dsimp only
    split
    · exact (triple_createBucket ⟨h', hj'⟩).mono (fun _ _ _ h'' => h'') fun _ _ _ h'' =>
        ⟨.inl h''.1, h''.2⟩
    · exact (triple_writeFailed a.bucket fault ⟨h', hj'⟩).mono (fun _ _ _ h'' => h'') fun _ _ _ h'' =>
        ⟨.inl h''.1, h''.2⟩

/-- Reading the window back changes nothing, not even where it never ends. -/
theorem triple_readWindow (name : String) (window : Binary64) (h : a.Written s.1 ∧ Unfinished j) :
    Triple (Counter.readWindow (a.wiring options) (.text name) window) s j
      (fun _ s' j' => a.Written s'.1 ∧ Unfinished j')
      (fun _ s' j' => a.Written s'.1 ∧ Unfinished j') := by
  have hread := a.stable_written.keeps_read options
  cases hids : Bucket.ids? (Bucket.range (Counter.seconds a.now) window) with
  | none =>
    unfold Counter.readWindow
    rw [hids]
    exact Triple.fail h
  | some ids =>
    have hwindow := Counter.resolves_readWindow (closed_written a options) (fun _ => rfl)
      (fun _ => hread _ rfl) (fun _ => hread _ rfl) name window (by rw [hids]; rfl)
    exact (hwindow s j h).mono (fun _ _ _ h' => h') fun _ _ _ h' => h'.1

end

-- ---------------------------------------------------------------------------
-- The whole increment
-- ---------------------------------------------------------------------------

structure Settled (a : Attempt) (s : State) (j : List Event) : Prop where
  kept : a.Kept s
  once : .metric (.increment .ok) ∈ j → a.Written s
  unchanged : .metric (.increment .skip) ∈ j ∨ .metric (.increment .error) ∈ j → a.Unwritten s

section
variable {a : Attempt} {s : State} {j : List Event}

theorem Settled.of_unfinished (h : a.Unwritten s ∨ a.Written s) (hj : Unfinished j) :
    a.Settled s j := by
  have hnone (status : Status) : .metric (.increment status) ∉ j := by
    intro hmem
    obtain ⟨count, heq⟩ := hj _ hmem
    cases heq
  refine ⟨h.elim Unwritten.kept Written.toKept, fun hok => absurd hok (hnone _), ?_⟩
  rintro (hskip | herror)
  · exact absurd hskip (hnone _)
  · exact absurd herror (hnone _)

theorem Settled.of_status (hj : Unfinished j) (hok : status = .ok → a.Written s)
    (hfailed : status ≠ .ok → a.Unwritten s) :
    a.Settled s (j ++ [.metric (.increment status)]) := by
  have hstatus (other : Status)
      (hmem : .metric (.increment other) ∈ j ++ [.metric (.increment status)]) : other = status := by
    rcases List.mem_append.mp hmem with hmem | hmem
    · obtain ⟨count, heq⟩ := hj _ hmem
      cases heq
    · cases List.mem_singleton.mp hmem
      rfl
  refine ⟨?_, fun hmem => hok (hstatus _ hmem).symm, ?_⟩
  · by_cases h : status = .ok
    · exact (hok h).toKept
    · exact (hfailed h).kept
  · rintro (hskip | herror)
    · exact hfailed (by rw [← hstatus _ hskip]; nofun)
    · exact hfailed (by rw [← hstatus _ herror]; nofun)

theorem validWindow?_number (h : Counter.validWindow? (.number window) = some x) : x = window := by
  cases (Option.filter_eq_some_iff.mp h).1
  rfl

theorem triple_whole (options : Options) (hbucket : a.bucket = Counter.currentBucket a.now name window)
    (httl : a.ttl = Bucket.ttl window maxTtl) (plan : FaultPlan) :
    Triple (Counter.increment (a.wiring options) (.text name) (.number window) maxTtl) (a.base, plan) []
      (fun _ s' j' => a.Settled s'.1 j') (fun _ s' j' => a.Settled s'.1 j') := by
  have hI := closed_unwritten a options
  have hdemand := raises_demand hI (a.stable_unwritten.keeps_read options .isInitialized rfl) (a.base, plan) []
    ⟨a.unwritten_base, nofun⟩
  refine Triple.bind (Counter.triple_servable hI (hdemand.mono (fun _ _ _ h => h) fun _ _ _ h =>
    .of_unfinished (.inl h.1.1) h.1.2) _ name window) ?_
  rintro served s' j' ⟨h', hserved⟩
  cases served with
  | none =>
    refine Triple.bind (Q := fun _ s' j' => a.Settled s'.1 j') ?_ fun _ _ _ h => Triple.pure h
    exact triple_observe rfl (.of_status h'.2 nofun fun _ => h'.1)
  | some x =>
    cases validWindow?_number (hserved x rfl)
    dsimp only
    rw [Value.asText_text, orReject_ok, pure_bind, ← hbucket, ← httl]
    refine Triple.bind ((triple_incrementBucket h').mono (fun _ _ _ h => h) fun _ _ _ h =>
      .of_unfinished h.1 h.2) ?_
    rintro _ s'' j'' ⟨⟨rfl, h''⟩ | ⟨rfl, h''⟩, hj''⟩
    · refine Triple.bind (Q := fun _ s' j' => a.Settled s'.1 j') ?_ fun _ _ _ h => Triple.pure h
      exact triple_observe rfl (.of_status hj'' nofun fun _ => h'')
    · refine Triple.bind ((triple_readWindow name window ⟨h'', hj''⟩).mono (fun _ _ _ h => h)
        fun _ _ _ h => .of_unfinished (.inr h.1) h.2) ?_
      rintro read s₃ j₃ ⟨h₃, hj₃⟩
      refine Triple.bind (Q := fun _ s' j' => a.Settled s'.1 j') ?_ fun _ _ _ h => Triple.pure h
      exact triple_observe rfl (.of_status hj₃ (fun _ => h₃) fun hne => absurd rfl hne)

end

end Attempt

-- ---------------------------------------------------------------------------
-- Runs
-- ---------------------------------------------------------------------------

/-- An increment has written its occurrence once or not at all, and its status says which. Where the
bucket is new, its time to live has to take the clock reading further. -/
structure AllOrNothing (now : Binary64) (bucket : String) (ttl : Binary64) (s s' : State)
    (j : List Event) : Prop where
  beside : ∀ key : Key, key.identity ≠ .text bucket → s'.live? now key = s.live? now key
  once : .metric (.increment .ok) ∈ j →
    (s.live? now (.text bucket) = none → (now + ttl * 1000).le now = false) →
    ∃ n < 2 ^ 53, s.shown now (.text bucket) = .number (ofNat n) ∧
      s'.shown now (.text bucket) = .number (ofNat (n + 1))
  unchanged : .metric (.increment .skip) ∈ j ∨ .metric (.increment .error) ∈ j →
    ∀ key, s'.live? now key = s.live? now key

open Request (serveFaulty)

section
variable {options : Options} {s : State}

theorem increment_step (h : Counted most s) (hfew : most < 2 ^ 53) (now : Binary64) (name : String)
    (window : Binary64) (maxTtl : Value) (plan : FaultPlan) :
    let outcome := serveFaulty (MemoryStore.store options) ⟨now, .increment name window maxTtl, plan⟩ s
    Counted (most + 1) outcome.state ∧
      AllOrNothing now (Counter.currentBucket now name window) (Bucket.ttl window maxTtl) s
        outcome.state outcome.journal := by
  have hkey : Bucket.IsKey (Counter.currentBucket now name window) := ⟨name, window, _, rfl⟩
  obtain ⟨a, rfl, rfl, hbucket, httl, rfl⟩ :=
    exists_attempt hfew hkey h now (Bucket.ttl window maxTtl)
  have hsettled := (a.triple_whole options hbucket httl plan).always
  have hle := a.count_le
  rw [← hbucket, ← httl]
  refine ⟨hsettled.kept.counted, hsettled.kept.beside, fun hok hlasting => ?_, fun hfailed => ?_⟩
  · exact ⟨a.count, by omega, a.shown_base, (hsettled.once hok).shown hlasting⟩
  · exact (hsettled.unchanged hfailed).view

theorem counted_set (h : Counted most s)
    (hkey : ∀ text, Bucket.IsKey text → key.identity ≠ .text text) (now : Binary64) (value ttl : Value)
    (plan : FaultPlan) :
    Counted most (serveFaulty (MemoryStore.store options) ⟨now, .set key value ttl, plan⟩ s).state := by
  have hstable := stable_counted now most
  refine Action.Alike.preserves (I := fun s => Counted most s.1) (x := (Request.set key value ttl).serve
    { store := faulty (MemoryStore.store options), now := now }) (s := (s, plan)) ?_ h
  refine Action.Alike.bind (KeyValue.alike_set rfl key value ttl ?_ fun ttl => ?_) fun _ => Action.Alike.pure _
  · exact Action.Alike.of_preserves (keeps_faulty (hstable.keeps_read options _ rfl))
  · refine Action.Alike.of_preserves (keeps_faulty fun s hs => ?_)
    exact Triple.spec (P := fun _ s => Counted most s) (j := [])
      (MemoryStore.triple_set hstable hs ttl fun _ _ h _ => h.put_spared hkey _)

theorem counted_step {call : FaultyRequest} (h : Counted most s)
    (hfew : most + (if call.request.isIncrement then 1 else 0) ≤ 2 ^ 53)
    (hspares : call.request.SparesBuckets) :
    Counted (most + if call.request.isIncrement then 1 else 0)
      (serveFaulty (MemoryStore.store options) call s).state := by
  obtain ⟨now, request, plan⟩ := call
  have hread := (stable_counted now most).keeps_read options
  cases request with
  | increment name window maxTtl =>
    dsimp only at hfew ⊢
    rw [Request.isIncrement_increment, if_pos rfl] at hfew ⊢
    exact (increment_step h (by omega) now name window maxTtl plan).1
  | set key value ttl => exact counted_set h hspares now value ttl plan
  | _ => exact serveFaulty_keeps hread rfl h plan

end

theorem counted_stateAfter (options : Options) (started : Bool) (before : List FaultyRequest)
    (hfew : (before.countP fun call => call.request.isIncrement) ≤ 2 ^ 53)
    (hspares : ∀ call ∈ before, call.request.SparesBuckets) :
    Counted (before.countP fun call => call.request.isIncrement)
      (Action.stateAfter (serveFaulty (MemoryStore.store options)) { initialized := started } before) := by
  refine Action.stateAfter_induct (I := fun before s =>
    (before.countP fun call => call.request.isIncrement) ≤ 2 ^ 53 →
    (∀ call ∈ before, call.request.SparesBuckets) →
    Counted (before.countP fun call => call.request.isIncrement) s)
    (fun _ _ => MemoryStore.counted_empty started) ?_ before hfew hspares
  intro before call s ih hfew hspares
  rw [List.countP_append, List.countP_singleton] at hfew ⊢
  have h := ih (by omega) fun other hmem => hspares other (List.mem_append_left _ hmem)
  exact counted_step h hfew (hspares call (List.mem_append_right _ List.mem_cons_self))

/-- After any run over the in-memory store, with faults at any calls of it, an increment with faults
at any of its own calls is all or nothing. The time to live of a new bucket takes every clock reading
from 0 to 2^63 further, whatever the window is and whatever time to live is asked for. -/
theorem increment_allOrNothing (options : Options) (started : Bool) {before : List FaultyRequest}
    (hfew : (before.countP fun call => call.request.isIncrement) < 2 ^ 53)
    (hspares : ∀ call ∈ before, call.request.SparesBuckets)
    (now : Binary64) (name : String) (window : Binary64) (maxTtl : Value) (plan : FaultPlan) :
    let s := Action.stateAfter (serveFaulty (MemoryStore.store options)) { initialized := started } before
    let outcome := serveFaulty (MemoryStore.store options) ⟨now, .increment name window maxTtl, plan⟩ s
    AllOrNothing now (Counter.currentBucket now name window) (Bucket.ttl window maxTtl) s
        outcome.state outcome.journal ∧
      (Binary64.zero.le now = true → now.lt (ofNat (2 ^ 63)) = true → Binary64.zero.lt window = true →
        (now + Bucket.ttl window maxTtl * 1000).le now = false) := by
  have hcounted := counted_stateAfter options started before (Nat.le_of_lt hfew) hspares
  refine ⟨(increment_step hcounted hfew now name window maxTtl plan).2, fun hnow hsmall hpos => ?_⟩
  have hlt := Bucket.lt_add_ttl hpos hnow hsmall maxTtl
  obtain ⟨hnan, hsum, -⟩ := Binary64.lt_iff.mp hlt
  exact (Binary64.not_le hsum hnan).mpr hlt

/-- A bucket whose time to live could not be set, a typed value, and an increment whose first store
call fails and is made again. -/
theorem increment_allOrNothing_retried :
    let s := Action.stateAfter (serveFaulty (MemoryStore.store {})) { initialized := true }
      [⟨0, .increment "a" 1 .undefined, [none, none, some (.plain "down")]⟩,
        ⟨500, .set (.text "a") (.number 9) .null, []⟩]
    let outcome := serveFaulty (MemoryStore.store {})
      ⟨900, .increment "a" 1 .undefined, [none, some (.plain "down")]⟩ s
    outcome.journal.filterMap Event.metric? = [.reads 2, .increment .ok] ∧
      ∃ n < 2 ^ 53, s.shown 900 (.text "a:w1:b0") = .number (ofNat n) ∧
        outcome.state.shown 900 (.text "a:w1:b0") = .number (ofNat (n + 1)) := by
  intro s outcome
  have hmetrics : outcome.journal.filterMap Event.metric? = [.reads 2, .increment .ok] := by
    decide +kernel
  have hbucket : Counter.currentBucket 900 "a" 1 = "a:w1:b0" := by decide +kernel
  have hspares : ∀ call ∈ ([⟨0, .increment "a" 1 .undefined, [none, none, some (.plain "down")]⟩,
      ⟨500, .set (.text "a") (.number 9) .null, []⟩] : List FaultyRequest),
      call.request.SparesBuckets := by
    simp only [List.forall_mem_cons, List.not_mem_nil, false_implies, implies_true, and_true,
      Request.SparesBuckets, true_and]
    intro text htext heq
    have hcolon := Bucket.colon_mem_of_isKey htext
    rw [Key.identity_text, Key.Identity.text.injEq] at heq
    rw [← heq] at hcolon
    exact absurd hcolon (by decide)
  have h := increment_allOrNothing {} true (by decide) hspares 900 "a" 1 .undefined
    [none, some (.plain "down")]
  refine ⟨hmetrics, ?_⟩
  rw [← hbucket]
  refine h.1.once ?_ fun _ => h.2 (by decide +kernel) (by decide +kernel) (by decide +kernel)
  obtain ⟨event, hmem, hevent⟩ := List.mem_filterMap.mp
    (hmetrics ▸ List.mem_cons_of_mem _ List.mem_cons_self :
      Metric.increment .ok ∈ outcome.journal.filterMap Event.metric?)
  cases event with
  | metric observed =>
    cases hevent
    exact hmem
  | _ => cases hevent

/-- At a reading that a second makes no difference to, a bucket that is new expires at once, and the
occurrence is reported as written and shows nowhere. -/
theorem increment_expired_at_once :
    let now := ofNat 9300000000000002000
    let outcome := serveFaulty (MemoryStore.store {}) ⟨now, .increment "a" (1 / 100) .undefined, []⟩
      { initialized := true }
    outcome.journal.filterMap Event.metric? = [.reads 1, .increment .ok] ∧
      ¬∃ n < 2 ^ 53, State.shown { initialized := true } now (.text "a:w0.01:b9300000000000002") =
          .number (ofNat n) ∧
        outcome.state.shown now (.text "a:w0.01:b9300000000000002") = .number (ofNat (n + 1)) := by
  intro now outcome
  have hmetrics : outcome.journal.filterMap Event.metric? = [.reads 1, .increment .ok] := by
    decide +kernel
  have hnone : (outcome.state.live? now (.text "a:w0.01:b9300000000000002")).isNone = true := by
    decide +kernel
  refine ⟨hmetrics, ?_⟩
  rintro ⟨n, hn, -, hafter⟩
  rw [State.shown, Option.isNone_iff_eq_none.mp hnone] at hafter
  have heq : ofNat 0 = ofNat (n + 1) := Value.number.inj hafter
  have hzero := is_ofNat (n := 0) (by omega)
  have hnext := is_ofNat (n := n + 1) (by omega)
  rw [← heq] at hnext
  have := hzero.eq hnext
  omega

end SlidingTally
