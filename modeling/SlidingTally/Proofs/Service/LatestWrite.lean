import SlidingTally.Proofs.Service.Composite
import SlidingTally.Proofs.Service.FailOpen
import SlidingTally.Proofs.Store.ExpiringCalls

/-!
# Typed values read back

Over the in-memory store, a typed read sees the latest write of its key until that expires, and
nothing older ever again, whatever else is written, counted or read in between. `latestWrite?` is
that write as a function of the calls so far, `KeepsLatest` ties what an expiring map holds to it,
and one call preserves that. Main statement: `reply_eq_latest`.
-/

namespace SlidingTally

open SlidingTally.Action (Alike Evaluates Preserves Rising Triple stateAfter)

-- ---------------------------------------------------------------------------
-- Writes
-- ---------------------------------------------------------------------------

/-- What was written under a key, when and with which time to live in seconds. -/
structure Write where
  madeAt : Binary64
  value : Value
  ttl : Binary64

namespace Write

/-- A write with a positive time to live is over from the instant on at which that has passed. -/
def isOver (write : Write) (now : Binary64) : Bool :=
  Binary64.zero.lt write.ttl && (write.madeAt + write.ttl * 1000).le now

def held (write : Write) : ExpiringMap.Held :=
  ⟨write.value, ExpiringMap.expiry write.madeAt write.ttl⟩

theorem isPresent_held {write : Write} (hclock : write.madeAt.BoundedBelow) (hnow : now.isNaN = false) :
    write.held.isPresent now = !write.isOver now := by
  unfold ExpiringMap.Held.isPresent held isOver ExpiringMap.expiry
  cases hpos : Binary64.zero.lt write.ttl with
  | false => rfl
  | true =>
    have hexpiry : MemoryStore.expiry write.madeAt write.ttl = some (write.madeAt + write.ttl * 1000) :=
      if_pos hpos
    have hiff := Binary64.not_le (MemoryStore.expiry_isNaN hclock hexpiry) hnow
    show now.lt (write.madeAt + write.ttl * 1000) = !(write.madeAt + write.ttl * 1000).le now
    cases hle : (write.madeAt + write.ttl * 1000).le now with
    | true =>
      rw [hle] at hiff
      simpa using hiff
    | false => exact hiff.mp hle

end Write

def secondsOf (ttl : Value) : Binary64 := ((ttl.orDefault KeyValue.defaultTtl).number?).getD .zero

def Request.write? (key : String) : Binary64 × Request Binary64 → Option Write
  | (now, .set written value ttl) =>
    if written.identity = .text key then some ⟨now, value, secondsOf ttl⟩ else none
  | _ => none

def latestWrite? (key : String) (calls : List (Binary64 × Request Binary64)) : Option Write :=
  (calls.filterMap (Request.write? key)).getLast?

theorem latestWrite?_append (key : String) (before : List (Binary64 × Request Binary64))
    (call : Binary64 × Request Binary64) :
    latestWrite? key (before ++ [call]) = (Request.write? key call).or (latestWrite? key before) := by
  unfold latestWrite?
  rw [List.filterMap_append, List.getLast?_append]
  cases h : Request.write? key call with
  | none => simp [h]
  | some write => simp [h]

/-- Values as the services are made to write them, with a time to live or without one. -/
structure Storable (value ttl : Value) : Prop where
  plain : (∃ text, value = .text text) ∨ ∃ x, value = .number x
  timed : ttl = .undefined ∨ ∃ seconds, ttl = .number seconds

theorem Storable.orDefault (h : Storable value ttl) :
    ttl.orDefault KeyValue.defaultTtl = .number (secondsOf ttl) := by
  rcases h.timed with rfl | ⟨seconds, rfl⟩
  · rfl
  · rfl

/-- Writes texts and numbers only, and increments no bucket under the key. -/
def Request.Spares (key : String) : Binary64 × Request Binary64 → Prop
  | (_, .set _ value ttl) => Storable value ttl
  | (now, .increment name window _) => Counter.validWindow? (.number window) = some window →
    Counter.currentBucket now name window ≠ key
  | _ => True

/-- What a read at a clock reading is to reply, by the latest write of its key. -/
def readBack (now : Binary64) (fallback : Value) (decode : Value → Except Fault Value) :
    Option Write → Value
  | none => fallback
  | some write =>
    if write.isOver now then fallback
    else match decode write.value with
      | .ok result => result
      | .error _ => fallback

-- ---------------------------------------------------------------------------
-- Requests over stores that answer
-- ---------------------------------------------------------------------------

namespace Counter

/-- An increment preserves what reads and the calls for its bucket do. -/
theorem preserves_increment {w : Wiring σ} {I : σ → Prop} (name : String) (maxTtl : Value)
    (hread : ∀ call, call.isRead = true → Preserves I (w.store w.now call))
    (hbucket : validWindow? (.number window) = some window → ∀ call,
      call.key? = some (.text (currentBucket w.now name window)) → Preserves I (w.store w.now call)) :
    Preserves I (increment w (.text name) (.number window) maxTtl) := by
  have hP := composite_preserves w I
  refine Preserves.bind_reply (Q := fun served => ∀ x, served = some x →
    validWindow? (.number window) = some x) (hP.servable (hread _ rfl) _ _ _) ?_ ?_
  · intro s
    refine (triple_servable (closed_true w) (E := fun _ _ _ => True) ?_ "increment" name window).mono
      (fun _ _ _ h => h.2) fun _ _ _ _ => trivial
    exact triple_demand (fun _ _ => trivial) fun _ _ => trivial
  · intro served hserved
    cases served with
    | none => exact hP.bind (preserves_observe I _) fun _ => hP.pure _
    | some x =>
      have hvalid := hserved x rfl
      cases (Option.filter_eq_some_iff.mp hvalid).1
      dsimp only
      rw [Value.asText_text, orReject_ok, pure_bind]
      refine hP.bind (hP.incrementBucket _ _ (hbucket hvalid)) fun written => ?_
      split
      · exact hP.bind (preserves_observe I _) fun _ => hP.pure _
      · refine hP.bind (hP.readWindow (fun _ => hread _ rfl) (fun _ => hread _ rfl)
          (fun _ => preserves_observe I _) _ _) fun read => ?_
        exact hP.bind (preserves_observe I _) fun _ => hP.pure _

end Counter

namespace KeyValue

section
variable {w : Wiring σ} {s : σ} (hinit : Evaluates (w.store w.now .isInitialized) s (.bool true) s)
variable (hrefusal : ∀ metric, w.refusal metric = none)

include hinit hrefusal

theorem evaluates_set {key : Key} {value ttl : Value}
    (hset : Evaluates (w.store w.now (.set key value (ttl.orDefault defaultTtl))) s reply s') :
    Evaluates (set w key value ttl) s () s' := by
  have htrue : (Value.bool true).truthy = true := rfl
  refine (evaluates_demand hinit).bind ?_
  rw [if_pos htrue]
  refine evaluates_rescue ?_ _
  exact (evaluates_demand hset).bind (evaluates_observe (hrefusal _) s')

theorem evaluates_read (operation : KeyValueOperation) {key : Key} (fallback : Value)
    {decode : Value → Except Fault Value} (hkey : key.value.asText = .ok text)
    (hdecode : ∀ value, Worded (decode value))
    (hget : Evaluates (w.store w.now (.get key)) s value s) :
    Evaluates (read w operation key fallback decode) s (decoded fallback decode (.ok value)) s := by
  have htrue : (Value.bool true).truthy = true := rfl
  have hfinish (status : Status) (result : Value) :
      Evaluates (read.finish w operation status result) s result s :=
    (evaluates_observe (hrefusal _) s).bind (Evaluates.pure _ _)
  have hread {result : Value}
      (h : Evaluates (rescue (read.look w operation key fallback decode)
        (read.failed w operation key fallback)) s result s) :
      Evaluates (read w operation key fallback decode) s result s := by
    refine (evaluates_demand hinit).bind ?_
    rw [if_pos htrue]
    exact h
  cases hnull : value.isNull with
  | true =>
    cases value with
    | null =>
      refine hread (evaluates_rescue ?_ _)
      exact (evaluates_demand hget).bind ((Evaluates.pure fallback s).bind (hfinish .ok fallback))
    | _ => cases hnull
  | false =>
    rw [decoded_value hnull]
    cases hresult : decode value with
    | ok result =>
      refine hread (evaluates_rescue ((evaluates_demand hget).bind ?_) _)
      rw [if_neg (by simp [hnull]), hresult]
      exact (Evaluates.pure result s).bind (hfinish .ok result)
    | error fault =>
      obtain ⟨entries, hrun⟩ := evaluates_demand hget
      have hfailed : read.look w operation key fallback decode s =
          ⟨.error (.fault fault), s, entries⟩ := by
        rw [read.look, Action.run_bind_ok hrun]
        simp [hnull, hresult, Action.run_bind]
      have hcomplain (what : String) : Evaluates (complain what key fault) s () s := by
        unfold complain
        rw [hkey, orReject_ok, pure_bind]
        exact evaluates_explain (hdecode value fault hresult) _ _ _ s
      exact hread (evaluates_rescue_fault hfailed ((hcomplain _).bind (hfinish .error fallback)))

end

end KeyValue

-- ---------------------------------------------------------------------------
-- The latest write, kept
-- ---------------------------------------------------------------------------

namespace ExpiringMap

/-- An initialized map that holds the latest write of a key, expired or not, and nothing without
one. -/
structure KeepsLatest (key : String) (calls : List (Binary64 × Request Binary64)) (m : State) :
    Prop where
  initialized : m.initialized = true
  held : m.held (.text key) = (latestWrite? key calls).map Write.held

section
variable {key : String} {m : State}
variable {before : List (Binary64 × Request Binary64)} {call : Binary64 × Request Binary64}

theorem keepsLatest_empty (key : String) : KeepsLatest key [] { initialized := true } := ⟨rfl, rfl⟩

theorem KeepsLatest.put_other (h : KeepsLatest key before m) {other : Key}
    (hother : other.identity ≠ .text key) (held : Held) : KeepsLatest key before (m.put other held) :=
  ⟨h.initialized, (if_neg (Ne.symm hother)).trans h.held⟩

theorem KeepsLatest.append (h : KeepsLatest key before m) (hcall : Request.write? key call = none) :
    KeepsLatest key (before ++ [call]) m := by
  refine ⟨h.initialized, ?_⟩
  rw [latestWrite?_append, hcall, Option.none_or, h.held]

theorem KeepsLatest.set (h : KeepsLatest key before m) (now : Binary64) (other : Key)
    (value ttl : Value) :
    KeepsLatest key (before ++ [(now, .set other value ttl)])
      (m.put other ⟨value, expiry now (secondsOf ttl)⟩) := by
  by_cases hsame : other.identity = .text key
  · refine ⟨h.initialized, ?_⟩
    have hwrite : Request.write? key (now, .set other value ttl) =
        some ⟨now, value, secondsOf ttl⟩ := if_pos hsame
    rw [latestWrite?_append, hwrite]
    simp [State.put, hsame, Write.held]
  · exact (h.put_other hsame _).append (if_neg hsame)

theorem KeepsLatest.step (options : MemoryStore.Options) (h : KeepsLatest key before m)
    (hcall : Request.Spares key call) :
    KeepsLatest key (before ++ [call]) (Request.serveAt (store options) call m).state := by
  obtain ⟨now, request⟩ := call
  cases request with
  | increment name window maxTtl =>
    refine KeepsLatest.append (Counter.preserves_increment
      (w := { store := store options, now := now }) (I := KeepsLatest key before) name maxTtl
      (fun _ => preserves_read) (fun hvalid call hbucket => ?_) m h) rfl
    refine preserves_key (fun m held hm => hm.put_other ?_ held) hbucket
    simpa using hcall hvalid
  | set other value ttl =>
    have hset : Evaluates (KeyValue.set { store := store options, now := now } other value ttl) m ()
        (m.put other ⟨value, expiry now (secondsOf ttl)⟩) := by
      have hput := evaluates_set options now other value (secondsOf ttl) h.initialized
      rw [← Storable.orDefault hcall] at hput
      exact KeyValue.evaluates_set (w := { store := store options, now := now })
        (evaluates_isInitialized options now h.initialized) (fun _ => rfl) hput
    have hserve : (Request.serveAt (store options) (now, .set other value ttl) m).state =
        m.put other ⟨value, expiry now (secondsOf ttl)⟩ :=
      (hset.bind (Evaluates.pure Value.undefined _)).state
    rw [hserve]
    exact h.set now other value ttl
  | _ =>
    refine KeepsLatest.append (serve_preserves (w := { store := store options, now := now })
      (I := KeepsLatest key before) (fun _ => preserves_read) rfl h) rfl

end

end ExpiringMap

-- ---------------------------------------------------------------------------
-- Reading it back
-- ---------------------------------------------------------------------------

theorem mem_of_latestWrite? (h : latestWrite? key calls = some write) :
    ∃ call ∈ calls, Request.write? key call = some write :=
  List.mem_filterMap.mp (List.mem_of_getLast? h)

theorem Request.Spares.isGiven (hcall : Request.Spares key call)
    (h : Request.write? key call = some write) :
    write.madeAt = call.1 ∧ write.value.isGiven = true := by
  obtain ⟨now, request⟩ := call
  cases request with
  | set written value ttl =>
    simp only [Request.write?] at h
    split at h
    · cases h
      rcases Storable.plain hcall with ⟨text, rfl⟩ | ⟨x, rfl⟩
      · exact ⟨rfl, rfl⟩
      · exact ⟨rfl, rfl⟩
    · cases h
  | _ => cases h

theorem Request.evaluates_reading {w : Wiring σ} {request : Request Binary64}
    (hreading : request.reading? = some (key, fallback, decode)) (hkey : key.value.asText = .ok text)
    (hinit : Evaluates (w.store w.now .isInitialized) s (.bool true) s)
    (hrefusal : ∀ metric, w.refusal metric = none)
    (hget : Evaluates (w.store w.now (.get key)) s value s) :
    Evaluates (request.serve w) s (KeyValue.decoded fallback decode (.ok value)) s := by
  cases request with
  | getText key fallback =>
    cases hreading
    exact KeyValue.evaluates_read hinit hrefusal _ _ hkey (fun value => worded_map _ (worded_asText value))
      hget
  | getInteger key fallback =>
    cases hreading
    exact KeyValue.evaluates_read hinit hrefusal _ _ hkey
      (fun value => worded_map _ (Codec.worded_integer _ value)) hget
  | getFloat key fallback =>
    cases hreading
    exact KeyValue.evaluates_read hinit hrefusal _ _ hkey
      (fun value => worded_map _ (Codec.worded_float _ value)) hget
  | _ => cases hreading

theorem ExpiringMap.KeepsLatest.decoded_eq {m : State} (h : KeepsLatest key before m)
    (hwrite : ∀ write, latestWrite? key before = some write →
      write.madeAt.BoundedBelow ∧ write.value.isGiven = true)
    (hnow : now.isNaN = false) (fallback : Value) (decode : Value → Except Fault Value) :
    KeyValue.decoded fallback decode (.ok (valueOf (m.find? now (.text key)))) =
      readBack now fallback decode (latestWrite? key before) := by
  rw [State.find?, Key.identity_text, h.held]
  cases hlatest : latestWrite? key before with
  | none => rfl
  | some write =>
    obtain ⟨hclock, hgiven⟩ := hwrite write hlatest
    rw [Option.map_some, Option.filter_some, Write.isPresent_held hclock hnow]
    cases hover : write.isOver now with
    | true => simp [readBack, hover, valueOf, KeyValue.decoded, Value.orElse, Value.isGiven]
    | false =>
      have hvalue : valueOf (some write.held) = write.value := if_pos hgiven
      have hnull : write.value.isNull = false := by
        cases hkind : write.value with
        | null =>
          rw [hkind] at hgiven
          cases hgiven
        | _ => rfl
      rw [Bool.not_false, if_pos rfl, hvalue, KeyValue.decoded_value hnull]
      cases hresult : decode write.value <;> simp [readBack, hover, hresult]

-- ---------------------------------------------------------------------------
-- Whole runs
-- ---------------------------------------------------------------------------

open ExpiringMap (KeepsLatest keepsLatest_empty)

theorem alike_serveAt (options : MemoryStore.Options) (call : Binary64 × Request Binary64) :
    Alike (MemoryStore.Mirrors call.1) (Request.serveAt (MemoryStore.store options) call)
      (Request.serveAt (ExpiringMap.store options) call) :=
  alike_serve { store := MemoryStore.store options, now := call.1 }
    { store := ExpiringMap.store options, now := call.1 } (MemoryStore.alike_store options) rfl rfl _

theorem keepsLatest_stateAfter (options : MemoryStore.Options) (key : String)
    (calls : List (Binary64 × Request Binary64)) (hspares : ∀ call ∈ calls, Request.Spares key call) :
    KeepsLatest key calls
      (stateAfter (Request.serveAt (ExpiringMap.store options)) { initialized := true } calls) := by
  refine Action.stateAfter_induct (I := fun calls m =>
    (∀ call ∈ calls, Request.Spares key call) → KeepsLatest key calls m)
    (fun _ => keepsLatest_empty key) ?_ calls hspares
  intro before call m ih hall
  have hbefore := ih fun other hmem => hall other (List.mem_append_left _ hmem)
  exact hbefore.step options (hall call (List.mem_append_right _ List.mem_cons_self))

/-- Over a fresh in-memory store, started, a typed read replies by the latest write of its key: with
the value that it wrote, decoded, and with its default if there is none, if its time to live has
passed or if the value cannot be decoded. -/
theorem reply_eq_latest (options : MemoryStore.Options) {start now : Binary64} {key : String}
    {before : List (Binary64 × Request Binary64)} {request : Request Binary64}
    (hstart : start.isFinite = true) (hrising : Rising Prod.fst start (before ++ [(now, request)]))
    (hspares : ∀ call ∈ before, Request.Spares key call)
    (hreading : request.reading? = some (.text key, fallback, decode)) :
    (Request.serveAt (MemoryStore.store options) (now, request)
      (stateAfter (Request.serveAt (MemoryStore.store options))
        (MemoryStore.start options {}).state before)).reply =
      .ok (readBack now fallback decode (latestWrite? key before)) := by
  have hbounded := Binary64.boundedBelow_of_isFinite hstart
  have hclock := Rising.forall (P := Binary64.BoundedBelow) (fun _ _ hle h => h.of_le hle)
    (before ++ [(now, request)]) start hbounded hrising
  have hmirrors := Alike.stateAfter (fun _ _ _ _ hle h => h.mono hle) (alike_serveAt options)
    (now, request) before start { initialized := true } { initialized := true }
    ⟨hbounded, rfl, fun _ _ _ => rfl⟩ hrising
  have hkeeps := keepsLatest_stateAfter options key before hspares
  rw [start_state, (alike_serveAt options (now, request) _ _ hmirrors).1]
  have hget := ExpiringMap.evaluates_get options now (.text key) hkeeps.initialized
  have hread := Request.evaluates_reading (w := { store := ExpiringMap.store options, now := now })
    hreading (Value.asText_text key)
    (ExpiringMap.evaluates_isInitialized options now hkeeps.initialized) (fun _ => rfl) hget
  refine hread.reply.trans (congrArg Except.ok (hkeeps.decoded_eq (fun write hlatest => ?_) ?_ _ _))
  · obtain ⟨call, hmem, hwrite⟩ := mem_of_latestWrite? hlatest
    obtain ⟨hmade, hgiven⟩ := (hspares call hmem).isGiven hwrite
    exact ⟨hmade ▸ hclock call (List.mem_append_left _ hmem), hgiven⟩
  · exact (hclock (now, request) (List.mem_append_right _ List.mem_cons_self)).isNaN

/-- At the instant at which the latest write is over; the write before it was to stay for good. -/
theorem reply_eq_latest_over :
    (Request.serveAt (MemoryStore.store {}) (1500, .getText (.text "a") (.text "d"))
      (stateAfter (Request.serveAt (MemoryStore.store {})) (MemoryStore.start {} {}).state
        [(0, .set (.text "a") (.text "old") (.number 0)),
          (500, .set (.text "a") (.number 7) (.number 1)),
          (1000, .increment "a" 60 .undefined)])).reply = .ok (.text "d") := by
  have hstart : (0 : Binary64).isFinite = true := by decide +kernel
  refine (reply_eq_latest {} hstart ?_ ?_ rfl).trans ?_
  · exact ⟨by decide +kernel, by decide +kernel, by decide +kernel, by decide +kernel, trivial⟩
  · rw [List.forall_mem_cons, List.forall_mem_cons, List.forall_mem_singleton]
    refine ⟨⟨.inl ⟨_, rfl⟩, .inr ⟨_, rfl⟩⟩, ⟨.inr ⟨_, rfl⟩, .inr ⟨_, rfl⟩⟩, fun _ => ?_⟩
    decide +kernel
  · have hover : Write.isOver ⟨500, .number 7, 1⟩ 1500 = true := by decide +kernel
    exact congrArg Except.ok (if_pos hover)

end SlidingTally
