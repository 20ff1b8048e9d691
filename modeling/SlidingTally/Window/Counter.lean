import SlidingTally.Codec
import SlidingTally.Store
import SlidingTally.Window.Bucket

/-!
# The sliding-window counter

Counts occurrences of a name over a trailing window, on any counter store. A failing store
never makes a call fail: an increment or query then replies with zero or the best total
that could be read, and leaves a log line and a metric. Only a store that fails to say
whether it is initialized, a sink that refuses and a fault without a wording make a call
reject, and only a window with endlessly many buckets keeps one from returning.
-/

namespace SlidingTally.Counter

variable {σ : Type}

-- ---------------------------------------------------------------------------
-- Writing
-- ---------------------------------------------------------------------------

/-- Gives a time to live to a bucket that the store has just created without one. A store
that cannot do so has the value written again with it. -/
def assignTtl (w : Wiring σ) (bucket : String) (ttl : Binary64) : Service σ Unit :=
  rescue refresh (explain .warn .counter s!"TTL refresh failed for {bucket}: ")
where
  refresh : Service σ Unit := do
    match TouchResult.ofValue? (← demand w (.touch (.text bucket) (.number ttl))) with
    | some .unsupported =>
      let _ ← demand w (.set (.text bucket) (.number 1) (.number ttl))
      return ()
    | some .notFound => say .warn .counter s!"Bucket {bucket} expired before its TTL was set"
    | _ => return ()

def writeFailed (bucket : String) (fault : Fault) : Service σ Value := do
  explain .error .counter s!"Increment failed for {bucket}: " fault
  return .null

/-- The first write to a bucket that the store did not increment. Whoever loses the race to
create it increments what the winner created. -/
def createBucket (w : Wiring σ) (bucket : String) (ttl : Binary64) : Service σ Value :=
  rescue create (writeFailed bucket)
where
  create : Service σ Value := do
    if (← demand w (.addIfAbsent (.text bucket) (.number 1) (.number ttl))).truthy then
      return .number 1
    let count ← demand w (.increment (.text bucket))
    if count.isNull then
      say .error .counter
        s!"Increment failed for {bucket}: bucket vanished after losing the create race"
    return count

/-- Increments a bucket, creating it with a time to live where needed. The reply is the
count after it as the store gives it, or null when the write failed. -/
def incrementBucket (w : Wiring σ) (bucket : String) (ttl : Binary64) : Service σ Value := do
  match ← ask w (.increment (.text bucket)) with
  | .ok .null => createBucket w bucket ttl
  | .ok count =>
    if count.isNumber 1 then assignTtl w bucket ttl
    return count
  | .error fault =>
    if fault.action = .retryOnce then createBucket w bucket ttl else writeFailed bucket fault

-- ---------------------------------------------------------------------------
-- Reading
-- ---------------------------------------------------------------------------

structure WindowRead where
  total : Binary64
  reached : Bool
deriving DecidableEq

def skipBucket (bucket : Value) (fault : Fault) : Service σ Unit := do
  explain .debug .counter ("Skipping bucket " ++ (← orReject bucket.asText) ++ ": ") fault

def decodeBucket (bucket value : Value) : Service σ Binary64 :=
  match Codec.integer bucket value with
  | .ok count => return count
  | .error fault => do
    if fault.action = .skip then
      skipBucket bucket fault
      return 0
    Action.fail (.fault fault)

def sumBuckets : Binary64 → List Value → Service σ Binary64
  | total, [] => return total
  | total, item :: rest => do
    let (bucket, value) ← orReject item.pair
    sumBuckets (total + (← decodeBucket bucket value)) rest

def addBucket (total : Binary64) (bucket value : Value) : Service σ Binary64 :=
  rescue (return total + (← decodeBucket bucket value)) fun fault => do
    skipBucket bucket fault
    return total

def readOneByOne (w : Wiring σ) : WindowRead → List String → Service σ WindowRead
  | read, [] => return read
  | read, bucket :: rest => do
    match ← ask w (.get (.text bucket)) with
    | .ok .null => readOneByOne w { read with reached := true } rest
    | .ok value =>
      let total ← addBucket read.total (.text bucket) value
      readOneByOne w ⟨total, true⟩ rest
    | .error fault =>
      skipBucket (.text bucket) fault
      readOneByOne w read rest

/-- Reads the buckets of a window: all at once, and one at a time if that fails with a
fault worth another attempt. `name` stands for the window in the log. -/
def readBuckets (w : Wiring σ) (name : Value) (buckets : List String) :
    Service σ WindowRead := do
  observe w (.reads buckets.length)
  rescue together apart
where
  together : Service σ WindowRead := do
    let found ← demand w (.getMulti (.list (buckets.map .text)))
    return ⟨← sumBuckets 0 (← orReject (found.iterate "values")), true⟩
  apart (fault : Fault) : Service σ WindowRead := do
    explain .error .counter ("Multi-get failed for " ++ (← orReject name.asText) ++ ": ") fault
    if fault.action = .retryOnce then readOneByOne w ⟨0, false⟩ buckets
    else return ⟨0, false⟩

def seconds (now : Binary64) : Binary64 := now / 1000

def bucketKeys (name : Value) (window : Binary64) (ids : List Binary64) :
    Except Fault (List String) :=
  if ids.isEmpty then .ok []
  else name.asText.map fun text => ids.map (Bucket.key text window)

theorem bucketKeys_text (name : String) (window : Binary64) (ids : List Binary64) :
    bucketKeys (.text name) window ids = .ok (ids.map (Bucket.key name window)) := by
  unfold bucketKeys
  split
  · rename_i hempty
    rw [List.isEmpty_iff.mp hempty]
    rfl
  · rw [Value.asText_text]
    rfl

def readWindow (w : Wiring σ) (name : Value) (window : Binary64) : Service σ WindowRead :=
  match Bucket.ids? (Bucket.range (seconds w.now) window) with
  | some ids => do readBuckets w name (← orReject (bucketKeys name window ids))
  | none => Action.fail .endless

-- ---------------------------------------------------------------------------
-- The two operations
-- ---------------------------------------------------------------------------

/-- The window length in seconds that a caller asks for, if it is finite and positive. -/
def validWindow? (window : Value) : Option Binary64 :=
  window.number?.filter fun seconds => seconds.isFinite && Binary64.zero.lt seconds

def servable (w : Wiring σ) (operation : String) (name window : Value) :
    Service σ (Option Binary64) := do
  if (← demand w .isInitialized).truthy then
    match validWindow? window with
    | some seconds => return some seconds
    | none =>
      say .warn .counter <| "Invalid window " ++ (← orReject window.asText) ++ "s for " ++
        (← orReject name.asText) ++ s!", {operation} skipped"
      return none
  else
    say .debug .counter s!"Counter store not initialized, {operation} skipped"
    return none

def currentBucket (now : Binary64) (name : String) (window : Binary64) : String :=
  Bucket.key name window (Bucket.id (seconds now) (Bucket.width window))

/-- Records one occurrence of `name` now and replies with the total of the window with it.
When the window cannot be read back, that is the count of the bucket just written.
`maxTtl` asks for a time to live of the bucket in seconds. -/
def increment (w : Wiring σ) (name window maxTtl : Value) : Service σ Value := do
  match ← servable w "increment" name window with
  | none =>
    observe w (.increment .skip)
    return .number 0
  | some seconds =>
    let bucket := currentBucket w.now (← orReject name.asText) seconds
    match ← incrementBucket w bucket (Bucket.ttl seconds maxTtl) with
    | .null =>
      observe w (.increment .error)
      return .number 0
    | written =>
      let read ← readWindow w name seconds
      observe w (.increment .ok)
      return if read.reached then .number read.total else written

def query (w : Wiring σ) (name window : Value) : Service σ Value := do
  match ← servable w "query" name window with
  | none =>
    observe w (.query .skip)
    return .number 0
  | some seconds =>
    let read ← readWindow w name seconds
    observe w (.query (if read.reached then .ok else .error))
    return .number read.total

end SlidingTally.Counter
