import SlidingTally.Proofs.Service.Request
import SlidingTally.Proofs.Window.IdealCounter
import SlidingTally.Proofs.Window.Lifetime

/-!
# Exact counts over the in-memory store

At clock readings in whole milliseconds and for windows of whole seconds, every total over the
in-memory store is the number of increments in the buckets that the window covers. `Tallied` ties
what an expiring map holds to the calls so far; one call preserves it, and the in-memory store
mirrors the map. Main statement: `reply_eq_occurrences`.
-/

namespace SlidingTally

open SlidingTally.Action (Alike Evaluates)
open Binary64 (ofNat is_ofNat Is)
open Bucket (wholeId wholeKey covered Outlasts)

-- ---------------------------------------------------------------------------
-- Calls in whole numbers
-- ---------------------------------------------------------------------------

namespace Request

def counter? : Request ω → Option (String × ω)
  | .increment name window _ => some (name, window)
  | .query name window => some (name, window)
  | _ => none

def increments (name : String) (window : Nat) : Request Nat → Bool
  | .increment name' window' _ => name' = name && window' = window
  | _ => false

/-- No typed value is written under a key that is the key of some bucket. -/
def SparesBuckets : Request ω → Prop
  | .set key _ _ => ∀ text, Bucket.IsKey text → key.identity ≠ .text text
  | _ => True

def serveWhole (store : CounterStore σ) (call : Nat × Request Nat) : Service σ Value :=
  serveAt store (ofNat call.1, call.2.map ofNat)

end Request

open Request (serveWhole)

/-- Calls in the order of their times, with not too many increments and none too late, for windows
of at most a billion seconds. -/
structure Regular (calls : List (Nat × Request Nat)) : Prop where
  few : (calls.countP fun call => call.2.isIncrement) < 2 ^ 53
  sorted : (calls.map Prod.fst).Pairwise (· ≤ ·)
  early : ∀ call ∈ calls, call.1 ≤ 10 ^ 14
  windows : ∀ call ∈ calls, ∀ name window, call.2.counter? = some (name, window) →
    1 ≤ window ∧ window ≤ 10 ^ 9
  spares : ∀ call ∈ calls, call.2.SparesBuckets

theorem Regular.init (h : Regular (before ++ [last])) : Regular before := by
  have hsub : ∀ call ∈ before, call ∈ before ++ [last] := fun call => List.mem_append_left _
  have hsorted := h.sorted
  rw [List.map_append, List.pairwise_append] at hsorted
  have hfew := h.few
  rw [List.countP_append] at hfew
  exact ⟨by omega, hsorted.1, fun call hmem => h.early call (hsub call hmem),
    fun call hmem => h.windows call (hsub call hmem),
    fun call hmem => h.spares call (hsub call hmem)⟩

theorem Regular.early_last (h : Regular (before ++ [last])) : last.1 ≤ 10 ^ 14 :=
  h.early last (List.mem_append_right _ List.mem_cons_self)

-- ---------------------------------------------------------------------------
-- Counting
-- ---------------------------------------------------------------------------

def tally (calls : List (Nat × Request Nat)) (name : String) (window : Nat) (bucket : Int) : Nat :=
  calls.countP fun call => call.2.increments name window && wholeId window call.1 = bucket

/-- The increments among some calls in the buckets from the one that the window begins in to the
current one. -/
def occurrences (calls : List (Nat × Request Nat)) (name : String) (window T : Nat) : Nat :=
  calls.countP fun call => call.2.increments name window &&
    (wholeId window (T - 1000 * window) ≤ wholeId window call.1 &&
      wholeId window call.1 ≤ wholeId window T)

theorem tally_append (calls : List (Nat × Request Nat)) (call : Nat × Request Nat) :
    tally (calls ++ [call]) name window bucket = tally calls name window bucket +
      if call.2.increments name window = true ∧ wholeId window call.1 = bucket then 1 else 0 := by
  simp [tally, List.countP_append, List.countP_singleton]

theorem tally_increment (calls : List (Nat × Request Nat)) (name : String) (window T : Nat)
    (maxTtl : Value) :
    tally (calls ++ [(T, .increment name window maxTtl)]) name window (wholeId window T) =
      tally calls name window (wholeId window T) + 1 := by
  rw [tally_append, if_pos (by simp [Request.increments])]

theorem tally_increment_of_ne {name name' : String} {window window' T : Nat} {bucket : Int}
    (hkey : wholeKey name' window' bucket ≠ wholeKey name window (wholeId window T))
    (calls : List (Nat × Request Nat)) (maxTtl : Value) :
    tally (calls ++ [(T, .increment name window maxTtl)]) name' window' bucket =
      tally calls name' window' bucket := by
  rw [tally_append, if_neg, Nat.add_zero]
  rintro ⟨hincrements, rfl⟩
  obtain ⟨rfl, rfl⟩ : name = name' ∧ window = window' := by
    simpa [Request.increments] using hincrements
  exact hkey rfl

theorem countP_or {p q : α → Bool} (h : ∀ a, p a = true → q a = false) (l : List α) :
    l.countP (fun a => p a || q a) = l.countP p + l.countP q := by
  induction l with
  | nil => rfl
  | cons a rest ih =>
    simp only [List.countP_cons, ih]
    cases hp : p a with
    | true =>
      simp only [h a hp, Bool.true_or, reduceIte, Bool.false_eq_true]
      omega
    | false =>
      simp only [Bool.false_or, Bool.false_eq_true, reduceIte]
      omega

theorem sum_countP {marks : List Int} (hnodup : marks.Nodup) (p : α → Bool) (mark : α → Int)
    (l : List α) :
    (marks.map fun m => l.countP fun a => p a && mark a = m).sum =
      l.countP fun a => p a && mark a ∈ marks := by
  induction marks with
  | nil => simp
  | cons m rest ih =>
    obtain ⟨hm, hrest⟩ := List.nodup_cons.mp hnodup
    rw [List.map_cons, List.sum_cons, ih hrest, ← countP_or]
    · congr
      funext a
      by_cases ha : mark a = m
      · cases p a <;> simp [ha]
      · simp [ha]
    · intro a ha
      simp only [Bool.and_eq_true, decide_eq_true_eq] at ha
      simp [ha.2, hm]

theorem sum_tally (calls : List (Nat × Request Nat)) (name : String) (window T : Nat) :
    ((covered window T).map (tally calls name window)).sum = occurrences calls name window T := by
  unfold tally occurrences
  rw [sum_countP Bucket.nodup_covered]
  congr
  funext call
  simp only [covered, Bucket.mem_between, Bool.decide_and]

theorem isIncrement_of_increments {request : Request Nat}
    (h : request.increments name window = true) : request.isIncrement = true := by
  cases request with
  | increment name' window' maxTtl => rfl
  | _ => cases h

theorem tally_le (calls : List (Nat × Request Nat)) (name : String) (window : Nat) (bucket : Int) :
    tally calls name window bucket ≤ calls.countP fun call => call.2.isIncrement :=
  List.countP_mono_left fun _ _ h => isIncrement_of_increments (Bool.and_eq_true_iff.mp h).1

theorem occurrences_le (calls : List (Nat × Request Nat)) (name : String) (window T : Nat) :
    occurrences calls name window T ≤ calls.countP fun call => call.2.isIncrement :=
  List.countP_mono_left fun _ _ h => isIncrement_of_increments (Bool.and_eq_true_iff.mp h).1

-- ---------------------------------------------------------------------------
-- The invariant
-- ---------------------------------------------------------------------------

def Holds (window : Nat) (bucket : Int) (n : Nat) (held : Option ExpiringMap.Held) : Prop :=
  n = 0 ∧ held = none ∨ 0 < n ∧
    ∃ instant, held = some ⟨.number (ofNat n), some instant⟩ ∧ Outlasts window bucket instant

structure Tallied (calls : List (Nat × Request Nat)) (m : ExpiringMap.State) : Prop where
  initialized : m.initialized = true
  held : ∀ name window bucket, window ≤ 10 ^ 9 → bucket.natAbs ≤ 10 ^ 15 →
    Holds window bucket (tally calls name window bucket)
      (m.held (.text (wholeKey name window bucket)))

theorem tallied_empty : Tallied [] { initialized := true } :=
  ⟨rfl, fun _ _ _ _ _ => .inl ⟨rfl, rfl⟩⟩

section
variable {m : ExpiringMap.State} {name : String} {window T n : Nat} {bucket : Int}

theorem find?_of_outlasts (hheld : m.held (.text (wholeKey name window bucket)) =
      some ⟨value, some instant⟩) (h : Outlasts window bucket instant) (hT : T ≤ 10 ^ 14)
    (hcovers : wholeId window (T - 1000 * window) ≤ bucket) :
    m.find? (ofNat T) (.text (wholeKey name window bucket)) = some ⟨value, some instant⟩ := by
  rw [ExpiringMap.State.find?, Key.identity_text, hheld, Option.filter_some]
  exact if_pos (h.lt hT hcovers)

theorem Holds.counts (h : Holds window bucket n (m.held (.text (wholeKey name window bucket))))
    (hT : T ≤ 10 ^ 14) (hcovers : wholeId window (T - 1000 * window) ≤ bucket) :
    Counter.Counts n (m.find? (ofNat T) (.text (wholeKey name window bucket))) := by
  rcases h with ⟨hzero, hnone⟩ | ⟨hpos, instant, hsome, houtlasts⟩
  · refine .inl ⟨hzero, ?_⟩
    rw [ExpiringMap.State.find?, Key.identity_text, hnone]
    rfl
  · exact .inr ⟨hpos, some instant, find?_of_outlasts hsome houtlasts hT hcovers⟩

theorem Tallied.other {call : Nat × Request Nat} (h : Tallied before m)
    (hcall : ∀ name window, call.2.increments name window = false) {m' : ExpiringMap.State}
    (hinit : m'.initialized = true)
    (hheld : ∀ text, Bucket.IsKey text → m'.held (.text text) = m.held (.text text)) :
    Tallied (before ++ [call]) m' := by
  refine ⟨hinit, fun name window bucket hw hb => ?_⟩
  rw [tally_append, hcall, hheld _ (Bucket.isKey_wholeKey (by omega) (by omega) name)]
  simpa using h.held name window bucket hw hb

theorem Tallied.increment (h : Tallied before m) (name : String)
    (houtlasts : Outlasts window (wholeId window T) instant) (maxTtl : Value) :
    Tallied (before ++ [(T, .increment name window maxTtl)])
      (m.put (.text (wholeKey name window (wholeId window T)))
        ⟨.number (ofNat (tally before name window (wholeId window T) + 1)), some instant⟩) := by
  refine ⟨h.initialized, fun name' window' bucket' hw' hb' => ?_⟩
  by_cases hkey : wholeKey name' window' bucket' = wholeKey name window (wholeId window T)
  · obtain ⟨rfl, rfl, rfl⟩ := Bucket.wholeKey_inj hkey
    rw [tally_increment]
    refine .inr ⟨by omega, instant, ?_, houtlasts⟩
    simp [ExpiringMap.State.put]
  · have hheld := h.held name' window' bucket' hw' hb'
    rw [tally_increment_of_ne hkey]
    simpa [ExpiringMap.State.put, hkey] using hheld

end

-- ---------------------------------------------------------------------------
-- One call
-- ---------------------------------------------------------------------------

theorem validWindow?_ofNat {window : Nat} (hpos : 1 ≤ window) (hw : window ≤ 10 ^ 9) :
    Counter.validWindow? (.number (ofNat window)) = some (ofNat window) := by
  have hwindow : (ofNat window).Is window := is_ofNat (by omega)
  have hlt : Binary64.zero.lt (ofNat window) = true :=
    (Binary64.zero_is.lt_iff hwindow).mpr (by omega)
  simp [Counter.validWindow?, Value.number?, hwindow.1, hlt]

theorem currentBucket_ofNat {T window : Nat} (hT : T ≤ 10 ^ 14) (hw : window ≤ 10 ^ 9)
    (name : String) :
    Counter.currentBucket (ofNat T) name (ofNat window) = wholeKey name window (wholeId window T) := by
  have hbound := Bucket.natAbs_wholeId_le window T
  exact Bucket.key_of_is (Bucket.id_is hT hw) (by omega) (by omega) name

section
variable {m : ExpiringMap.State} {name : String} {window T : Nat} {maxTtl : Value}

theorem Tallied.evaluates_incrementBucket (options : MemoryStore.Options) (name : String)
    (maxTtl : Value) (h : Tallied before m) (hpos : 1 ≤ window) (hw : window ≤ 10 ^ 9) (hT : T ≤ 10 ^ 14)
    (hfew : (before.countP fun call => call.2.isIncrement) + 1 ≤ 2 ^ 53) :
    ∃ instant, Outlasts window (wholeId window T) instant ∧
      Evaluates (Counter.incrementBucket { store := ExpiringMap.store options, now := ofNat T }
          (wholeKey name window (wholeId window T)) (Bucket.ttl (ofNat window) maxTtl)) m
        (.number (ofNat (tally before name window (wholeId window T) + 1)))
        (m.put (.text (wholeKey name window (wholeId window T)))
          ⟨.number (ofNat (tally before name window (wholeId window T) + 1)), some instant⟩) := by
  have hbound := Bucket.natAbs_wholeId_le window T
  have hcovers : wholeId window (T - 1000 * window) ≤ wholeId window T :=
    Bucket.wholeId_mono (by omega)
  have htally := tally_le before name window (wholeId window T)
  rcases h.held name window (wholeId window T) hw (by omega) with
    ⟨hzero, hnone⟩ | ⟨hcount, instant, hsome, houtlasts⟩
  · obtain ⟨instant, hexpiry, houtlasts⟩ := Bucket.expiry_outlasts hpos hw hT maxTtl
    have hfind : m.find? (ofNat T) (.text (wholeKey name window (wholeId window T))) = none := by
      rw [ExpiringMap.State.find?, Key.identity_text, hnone]
      rfl
    have hrun := Counter.evaluates_incrementBucket_absent options
      (Bucket.ttl (ofNat window) maxTtl) h.initialized hfind
    rw [show ExpiringMap.expiry _ _ = some instant from hexpiry] at hrun
    rw [hzero]
    exact ⟨instant, houtlasts, hrun⟩
  · have hfind := find?_of_outlasts hsome houtlasts hT hcovers
    exact ⟨instant, houtlasts, Counter.evaluates_incrementBucket_present h.initialized hcount
      (by omega) hfind⟩

theorem Tallied.evaluates_readWindow (options : MemoryStore.Options) (name : String)
    (h : Tallied calls m) (hw : window ≤ 10 ^ 9) (hT : T ≤ 10 ^ 14)
    (hfew : (calls.countP fun call => call.2.isIncrement) ≤ 2 ^ 53) :
    Evaluates (Counter.readWindow { store := ExpiringMap.store options, now := ofNat T }
        (.text name) (ofNat window)) m
      ⟨ofNat (occurrences calls name window T), true⟩ m := by
  rw [← sum_tally]
  apply Counter.evaluates_readWindow h.initialized hT hw
  · rw [sum_tally]
    exact Nat.le_trans (occurrences_le _ _ _ _) hfew
  · intro bucket hmem
    have hbound := Bucket.natAbs_of_mem_covered hT hw hmem
    exact (h.held name window bucket hw hbound).counts hT (Bucket.mem_between.mp hmem).1

theorem Tallied.evaluates_increment (options : MemoryStore.Options) (h : Tallied before m)
    (hr : Regular (before ++ [(T, .increment name window maxTtl)])) :
    ∃ m', Evaluates (serveWhole (ExpiringMap.store options) (T, .increment name window maxTtl)) m
        (.number (ofNat (occurrences (before ++ [(T, .increment name window maxTtl)]) name window T)))
        m' ∧
      Tallied (before ++ [(T, .increment name window maxTtl)]) m' := by
  obtain ⟨hpos, hw⟩ := hr.windows _ (List.mem_append_right _ List.mem_cons_self) name window rfl
  have hT : T ≤ 10 ^ 14 := hr.early_last
  have hfew := hr.few
  have hbefore : (before.countP fun call => call.2.isIncrement) + 1 ≤ 2 ^ 53 := by
    rw [List.countP_append, List.countP_singleton, Request.isIncrement_increment, if_pos rfl] at hfew
    omega
  obtain ⟨instant, houtlasts, hwrite⟩ :=
    h.evaluates_incrementBucket options name maxTtl hpos hw hT hbefore
  have hafter := h.increment name houtlasts maxTtl
  have hread := hafter.evaluates_readWindow options name hw hT (Nat.le_of_lt hfew)
  have hinit := ExpiringMap.evaluates_isInitialized options (ofNat T) h.initialized
  rw [← currentBucket_ofNat hT hw name] at hwrite
  refine ⟨_, ?_, hafter⟩
  refine Counter.evaluates_increment (w := { store := ExpiringMap.store options, now := ofNat T })
    hinit (validWindow?_ofNat hpos hw)
    (Value.asText_text name) hwrite ?_ rfl
  rw [currentBucket_ofNat hT hw name]
  exact hread

theorem Tallied.evaluates_query (options : MemoryStore.Options) (h : Tallied before m)
    (hr : Regular (before ++ [(T, .query name window)])) :
    Evaluates (serveWhole (ExpiringMap.store options) (T, .query name window)) m
      (.number (ofNat (occurrences (before ++ [(T, .query name window)]) name window T))) m := by
  obtain ⟨hpos, hw⟩ := hr.windows _ (List.mem_append_right _ List.mem_cons_self) name window rfl
  have hafter : Tallied (before ++ [(T, .query name window)]) m :=
    h.other (fun _ _ => rfl) h.initialized fun _ _ => rfl
  have hinit := ExpiringMap.evaluates_isInitialized options (ofNat T) h.initialized
  exact Counter.evaluates_query (w := { store := ExpiringMap.store options, now := ofNat T })
    hinit (validWindow?_ofNat hpos hw)
    (hafter.evaluates_readWindow options name hw hr.early_last (Nat.le_of_lt hr.few)) rfl

end

theorem set_spares (options : MemoryStore.Options) {m : ExpiringMap.State} {key : Key}
    (h : m.initialized = true) (hkey : ∀ text, Bucket.IsKey text → key.identity ≠ .text text)
    (now : Binary64) (value ttl : Value) :
    let m' := (KeyValue.set { store := ExpiringMap.store options, now := now } key value ttl m).state
    m'.initialized = true ∧
      ∀ text, Bucket.IsKey text → m'.held (.text text) = m.held (.text text) := by
  refine Alike.preserves (I := fun m' : ExpiringMap.State => m'.initialized = true ∧
    ∀ text, Bucket.IsKey text → m'.held (.text text) = m.held (.text text)) ?_ ⟨h, fun _ _ => rfl⟩
  refine KeyValue.alike_set rfl key value ttl ?_ fun ttl => ?_
  · refine Alike.of_preserves fun m' hm' => ?_
    rw [ExpiringMap.store_read rfl m']
    exact hm'
  · refine Alike.of_preserves fun m' ⟨hinit, hheld⟩ => ?_
    rcases ExpiringMap.store_set options now key value ttl hinit with
      hsame | ⟨held, hput⟩
    · rw [hsame]
      exact ⟨hinit, hheld⟩
    · rw [hput]
      refine ⟨hinit, fun text htext => ?_⟩
      rw [← hheld text htext]
      exact if_neg (Ne.symm (hkey text htext))

theorem Tallied.step (options : MemoryStore.Options) {m : ExpiringMap.State}
    (h : Tallied before m) (hr : Regular (before ++ [call])) :
    Tallied (before ++ [call]) (serveWhole (ExpiringMap.store options) call m).state := by
  obtain ⟨T, request⟩ := call
  have hread (hrequest : (request.map ofNat).isRead = true) :
      (serveWhole (ExpiringMap.store options) (T, request) m).state = m := by
    refine serve_preserves (I := fun m' => m' = m) (fun call hcall m' hm' => ?_) hrequest rfl
    rw [ExpiringMap.store_read hcall m', hm']
  cases request with
  | increment name window maxTtl =>
    obtain ⟨m', hrun, hafter⟩ := h.evaluates_increment options hr
    rw [hrun.state]
    exact hafter
  | set key value ttl =>
    have hkey := hr.spares _ (List.mem_append_right _ List.mem_cons_self)
    obtain ⟨hinit, hheld⟩ :=
      set_spares options h.initialized hkey (ofNat T) value ttl
    have hstate : (serveWhole (ExpiringMap.store options) (T, .set key value ttl) m).state =
        (KeyValue.set { store := ExpiringMap.store options, now := ofNat T } key value ttl m).state := by
      show (Action.bind _ _ m).state = _
      unfold Action.bind
      dsimp only
      split <;> rfl
    rw [hstate]
    exact h.other (fun _ _ => rfl) hinit hheld
  | _ =>
    rw [hread rfl]
    exact h.other (fun _ _ => rfl) h.initialized fun _ _ => rfl

-- ---------------------------------------------------------------------------
-- Whole runs
-- ---------------------------------------------------------------------------

theorem tallied_stateAfter (options : MemoryStore.Options) (calls : List (Nat × Request Nat))
    (h : Regular calls) :
    Tallied calls (Action.stateAfter (serveWhole (ExpiringMap.store options))
      { initialized := true } calls) := by
  refine Action.stateAfter_induct (I := fun calls m => Regular calls → Tallied calls m)
    (fun _ => tallied_empty) ?_ calls h
  intro before call m ih hr
  exact (ih hr.init).step options hr

theorem alike_serveWhole (options : MemoryStore.Options) (call : Nat × Request Nat) :
    Alike (MemoryStore.Mirrors (ofNat call.1)) (serveWhole (MemoryStore.store options) call)
      (serveWhole (ExpiringMap.store options) call) :=
  alike_serve { store := MemoryStore.store options, now := ofNat call.1 }
    { store := ExpiringMap.store options, now := ofNat call.1 }
    (MemoryStore.alike_store options) rfl rfl _

theorem rising_of_sorted {calls : List (Nat × Request Nat)} {T : Nat}
    (hsorted : (T :: calls.map Prod.fst).Pairwise (· ≤ ·)) (hearly : ∀ call ∈ calls, call.1 ≤ 10 ^ 14) :
    Action.Rising (fun call => ofNat call.1) (ofNat T) calls := by
  induction calls generalizing T with
  | nil => trivial
  | cons call rest ih =>
    obtain ⟨hle, hrest⟩ := List.pairwise_cons.mp hsorted
    have hfirst := hearly call List.mem_cons_self
    have hT := hle call.1 List.mem_cons_self
    refine ⟨?_, ih hrest fun other hmem => hearly other (List.mem_cons_of_mem _ hmem)⟩
    exact ((is_ofNat (by omega)).le_iff (is_ofNat (by omega))).mpr (by omega)

section
variable {calls before : List (Nat × Request Nat)} {T : Nat} {request : Request Nat}

/-- What the in-memory store drops is not to be seen in the replies. -/
theorem replies_inMemory (options : MemoryStore.Options)
    (hsorted : (calls.map Prod.fst).Pairwise (· ≤ ·)) (hearly : ∀ call ∈ calls, call.1 ≤ 10 ^ 14) :
    Action.replies (serveWhole (MemoryStore.store options)) (MemoryStore.start options {}).state
        calls =
      Action.replies (serveWhole (ExpiringMap.store options)) { initialized := true } calls := by
  have hzero : (ofNat 0).BoundedBelow := Binary64.boundedBelow_of_isFinite (is_ofNat (by omega)).1
  have hrising := rising_of_sorted (T := 0)
    (List.pairwise_cons.mpr ⟨fun _ _ => Nat.zero_le _, hsorted⟩) hearly
  rw [start_state]
  exact Alike.replies (fun _ _ _ _ hle h => h.mono hle) (alike_serveWhole options) calls (ofNat 0)
    { initialized := true } { initialized := true } ⟨hzero, rfl, fun _ _ _ => rfl⟩ hrising

theorem reply_expiringMap (options : MemoryStore.Options) (hr : Regular (before ++ [(T, request)]))
    (hcounter : request.counter? = some (name, window)) :
    (serveWhole (ExpiringMap.store options) (T, request)
      (Action.stateAfter (serveWhole (ExpiringMap.store options)) { initialized := true }
        before)).reply =
      .ok (.number (ofNat (occurrences (before ++ [(T, request)]) name window T))) := by
  have htallied := tallied_stateAfter options before hr.init
  cases request with
  | increment name' window' maxTtl =>
    cases hcounter
    obtain ⟨m', hrun, -⟩ := htallied.evaluates_increment options hr
    exact hrun.reply
  | query name' window' =>
    cases hcounter
    exact (htallied.evaluates_query options hr).reply
  | _ => cases hcounter

end

/-- Over a fresh in-memory store, every increment and every query replies with the number of
increments so far, itself included, in the buckets that its window covers. -/
theorem reply_eq_occurrences (options : MemoryStore.Options) {before : List (Nat × Request Nat)}
    {T : Nat} {request : Request Nat} (h : Regular (before ++ [(T, request)]))
    (hcounter : request.counter? = some (name, window)) :
    (serveWhole (MemoryStore.store options) (T, request)
      (Action.stateAfter (serveWhole (MemoryStore.store options))
        (MemoryStore.start options {}).state before)).reply =
      .ok (.number (ofNat (occurrences (before ++ [(T, request)]) name window T))) := by
  have hzero : (ofNat 0).BoundedBelow := Binary64.boundedBelow_of_isFinite (is_ofNat (by omega)).1
  have hrising := rising_of_sorted (T := 0)
    (List.pairwise_cons.mpr ⟨fun _ _ => Nat.zero_le _, h.sorted⟩) h.early
  have hmirrors := Alike.stateAfter (fun _ _ _ _ hle h => h.mono hle) (alike_serveWhole options)
    (T, request) before (ofNat 0) { initialized := true } { initialized := true }
    ⟨hzero, rfl, fun _ _ _ => rfl⟩ hrising
  have htallied := tallied_stateAfter options before h.init
  rw [start_state, (alike_serveWhole options (T, request) _ _ hmirrors).1]
  cases request with
  | increment name' window' maxTtl =>
    cases hcounter
    obtain ⟨m', hrun, -⟩ := htallied.evaluates_increment options h
    exact hrun.reply
  | query name' window' =>
    cases hcounter
    exact (htallied.evaluates_query options h).reply
  | _ => cases hcounter

/-- Two increments and a typed value; the window of the query has left the first one behind. -/
theorem reply_eq_occurrences_query :
    (serveWhole (MemoryStore.store {}) (2999, .query "a" 1)
      (Action.stateAfter (serveWhole (MemoryStore.store {})) (MemoryStore.start {} {}).state
        [(0, .increment "a" 1 .undefined), (500, .set (.text "a") (.number 9) .null),
          (1000, .increment "a" 1 (.number .nan))])).reply = .ok (.number 1) := by
  have hcounter : (Request.query "a" 1 : Request Nat).counter? = some ("a", 1) := rfl
  refine (reply_eq_occurrences {} ?_ hcounter).trans ?_
  · refine ⟨by decide, by decide, by decide, ?_, ?_⟩
    · simp [Request.counter?]
    · simp only [List.cons_append, List.nil_append, List.forall_mem_cons, List.not_mem_nil,
        false_implies, implies_true, and_true, Request.SparesBuckets, true_and]
      intro text htext heq
      have hcolon := Bucket.colon_mem_of_isKey htext
      rw [Key.identity_text, Key.Identity.text.injEq] at heq
      rw [← heq] at hcolon
      exact absurd hcolon (by decide)
  · have hcount : occurrences ([(0, .increment "a" 1 .undefined),
        (500, .set (.text "a") (.number 9) .null), (1000, .increment "a" 1 (.number .nan))] ++
          [(2999, .query "a" 1)]) "a" 1 2999 = 1 := by decide
    rw [hcount]
    rfl

end SlidingTally
