import SlidingTally.Proofs.Service.Metering
import SlidingTally.Proofs.Service.ReadBack

/-!
# What a call observes

Over any store that keeps to its types, a call that resolves is counted once: as skipped if it is
turned away, else by whether it got what it asked for. The number of buckets that its window covers
is observed for an increment that wrote and for a query that was not turned away. Main statement:
`metered_serveAt`.
-/

namespace SlidingTally

open SlidingTally.Action (Triple outcomes)

-- ---------------------------------------------------------------------------
-- What is to be observed
-- ---------------------------------------------------------------------------

def BucketRange.size (range : BucketRange) : Int :=
  range.last.toInt?.getD 0 - range.first.toInt?.getD 0 + 1

namespace Request

def window? : Request ω → Option ω
  | .increment _ window _ => some window
  | .query _ window => some window
  | _ => none

def denies : Answer → Bool
  | (.isInitialized, .ok (.bool b)) => !b
  | _ => false

/-- The store is not initialized, or the window is not finite and positive. -/
def isTurnedAway (given : List Answer) (request : Request Binary64) : Bool :=
  given.any denies || request.window?.any fun window => !(window.isFinite && Binary64.zero.lt window)

/-- An answer that gives a request what it asks for: to an increment that the occurrence was
written, to a query a value read, to a write that it was done, and to a read of a key nothing or a
value that can be decoded. -/
def isServedBy (request : Request ω) (answer : Answer) : Bool :=
  match request, answer with
  | .increment _ _ _, answer => (Counter.writtenCount? answer).isSome
  | .query _ _, answer => Counter.reaches answer
  | .set _ _ _, (.set _ _ _, .ok _) => true
  | request, (.get _, .ok value) =>
    request.reading?.any fun reading => value.isNull || (reading.2.2 value).toBool
  | _, _ => false

def status (given : List Answer) (request : Request Binary64) : Status :=
  if request.isTurnedAway given then .skip
  else if given.any request.isServedBy then .ok
  else .error

def windowRead? (status : Status) : Request ω → Option ω
  | .increment _ window _ => if status = .ok then some window else none
  | .query _ window => if status = .skip then none else some window
  | _ => none

def bucketsRead (now : Binary64) (status : Status) (request : Request Binary64) : Int :=
  match request.windowRead? status with
  | some window => (Bucket.range (Counter.seconds now) window).size
  | none => 0

def observations (now : Binary64) (status : Status) (request : Request Binary64) : List Metric :=
  match request.windowRead? status with
  | some window =>
    [.reads (Bucket.range (Counter.seconds now) window).size.toNat, request.ended status]
  | none => [request.ended status]

end Request

/-- What a call at a clock reading comes to: it rejects for the one reason that there is, and
observes no status then, or it resolves and observes what its answers say. -/
structure Metered (call : Binary64 × Request Binary64) (o : Outcome Event Halt σ Value) : Prop where
  rejects : (∃ halt, o.reply = .error halt) ↔ EndsUnworded o.journal
  rejected : ∀ halt, o.reply = .error halt → Unfinished o.journal
  resolved : ∀ value, o.reply = .ok value →
    metrics o.journal = call.2.observations call.1 (call.2.status (answers o.journal))

def Value.isStored : Value → Bool
  | .text _ => true
  | .number _ => true
  | .bytes _ => true
  | _ => false

/-- A store that keeps to its types where it is read. -/
structure RepliesStored (store : CounterStore σ) : Prop where
  one : ∀ now key s reply, (store now (.get key) s).reply = .ok reply →
    reply = .null ∨ reply.isStored = true
  many : ∀ now keys s reply, (store now (.getMulti keys) s).reply = .ok reply →
    ∃ entries, reply = .table entries ∧
      ∀ entry ∈ entries, (∃ text, entry.1 = .text text) ∧ entry.2.isStored = true

-- ---------------------------------------------------------------------------
-- Reading
-- ---------------------------------------------------------------------------

namespace Counter

section
variable {σ : Type} {w : Wiring σ} {given : List Answer} {value : Value}

theorem asks_explain_worded (hworded : fault.message? ≠ none) (hok : Q () given) :
    Asks (explain level component lead fault : Service σ Unit) given Q E := by
  obtain ⟨text, htext⟩ := Option.ne_none_iff_exists'.mp hworded
  unfold explain Fault.describe
  rw [htext, orReject_ok, pure_bind]
  exact asks_say hok

theorem integer_stored (h : value.isStored = true) (bucket : String) :
    Codec.integer (.text bucket) value = .ok value.count ∨
      value.count = 0 ∧ ∃ raw, Codec.integer (.text bucket) value =
        .error (.decode bucket raw "integer") := by
  have hread {text : String} (htext : value.asText = .ok text) (hnumber : ∀ x, value ≠ .number x) :
      Codec.integer (.text bucket) value = .ok value.count ∨
        value.count = 0 ∧ ∃ raw, Codec.integer (.text bucket) value =
          .error (.decode bucket raw "integer") := by
    unfold Value.count
    rw [Codec.integer_of_asText htext hnumber, Codec.integer_of_asText htext hnumber]
    split
    · exact .inl rfl
    · exact .inr ⟨rfl, _, Codec.refuse_text _ _ _⟩
  cases value with
  | number x =>
    unfold Value.count Codec.integer
    dsimp only
    split
    · exact .inl rfl
    · exact .inr ⟨rfl, _, Codec.refuse_text _ _ _⟩
  | text s => exact hread (Value.asText_text s) nofun
  | bytes octets => exact hread rfl nofun
  | _ => cases h

theorem asks_decodeBucket_stored (h : value.isStored = true) (bucket : String) :
    Asks (decodeBucket (.text bucket) value : Service σ Binary64) given
      (fun count given' => count = value.count ∧ given' = given) fun _ _ => False := by
  unfold decodeBucket
  rcases integer_stored h bucket with hx | ⟨hzero, raw, hx⟩
  · rw [hx]
    exact Asks.pure ⟨rfl, rfl⟩
  · have hskip : (Fault.decode bucket raw "integer").action = .skip := rfl
    have hworded : (Fault.decode bucket raw "integer").message? ≠ none := nofun
    rw [hx]
    dsimp only
    rw [if_pos hskip, skipBucket, Value.asText_text, orReject_ok, pure_bind]
    refine (asks_explain_worded (Q := fun _ given' => given' = given) hworded rfl).bind ?_
    rintro _ _ rfl
    exact Asks.pure ⟨hzero.symm, rfl⟩

theorem asks_addBucket_stored (h : value.isStored = true) (total : Binary64) (bucket : String) :
    Asks (addBucket total (.text bucket) value : Service σ Binary64) given
      (fun total' given' => total' = total + value.count ∧ given' = given) fun _ _ => False := by
  refine asks_rescue (E := fun _ _ => False) ?_ (fun _ _ h => h.elim) fun _ h => h
  refine (asks_decodeBucket_stored h bucket).bind ?_
  rintro _ _ ⟨rfl, rfl⟩
  exact Asks.pure ⟨rfl, rfl⟩

theorem asks_sumBuckets_stored {entries : List (Value × Value)}
    (h : ∀ entry ∈ entries, (∃ text, entry.1 = .text text) ∧ entry.2.isStored = true)
    (total : Binary64) :
    Asks (sumBuckets total (entries.map fun entry => .list [entry.1, entry.2]) : Service σ Binary64)
      given (fun total' given' => total' = sumOf total entries ∧ given' = given)
      fun _ _ => False := by
  induction entries generalizing total with
  | nil => exact Asks.pure ⟨rfl, rfl⟩
  | cons entry rest ih =>
    obtain ⟨⟨text, htext⟩, hstored⟩ := h entry List.mem_cons_self
    simp only [List.map_cons, sumBuckets, Value.pair_list, orReject_ok, pure_bind, htext]
    refine (asks_decodeBucket_stored hstored text).bind ?_
    rintro _ _ ⟨rfl, rfl⟩
    exact ih (fun other hmem => h other (List.mem_cons_of_mem _ hmem)) _

theorem tells_of_stored (hstored : RepliesStored w.store) : Tells w where
  one bucket s value hvalue hnull total given := by
    rcases hstored.one _ _ _ _ hvalue with rfl | h
    · cases hnull
    · exact asks_addBucket_stored h total bucket
  many keys s found hfound := by
    obtain ⟨entries, rfl, hentries⟩ := hstored.many _ _ _ _ hfound
    exact ⟨entries, rfl, fun total given => asks_sumBuckets_stored hentries total⟩

end

-- ---------------------------------------------------------------------------
-- Window reads
-- ---------------------------------------------------------------------------

theorem size_eq (h : Bucket.InReach now window) :
    ∃ ids, Bucket.ids? (Bucket.range (seconds now) window) = some ids ∧
      ids.length = (Bucket.range (seconds now) window).size.toNat ∧
      1 ≤ (Bucket.range (seconds now) window).size := by
  obtain ⟨a, b, ids, -, hab, -, ha, hb, hids, hall⟩ := h.ids?_between
  have hsize : (Bucket.range (seconds now) window).size = b - a + 1 := by
    rw [BucketRange.size]
    rw [show (Bucket.range (seconds now) window).first.toInt? = some a from ha.toInt?,
      show (Bucket.range (seconds now) window).last.toInt? = some b from hb.toInt?]
    rfl
  have hlength := Bucket.length_between hab
  refine ⟨ids, hids, ?_, by omega⟩
  rw [hall.length_eq, hsize]
  omega

section
variable {σ : Type} {w : Wiring σ} {given : List Answer} {name : String} {window : Binary64}

theorem triple_readWindow_reads (hrefusal : ∀ metric, w.refusal metric = none)
    (hids : Bucket.ids? (Bucket.range (seconds w.now) window) = some ids) (s : σ) (j : List Event) :
    Triple (readWindow w (.text name) window) s j
      (fun _ _ j' => metrics j' = metrics j ++ [.reads ids.length]) fun _ _ _ => True := by
  unfold readWindow
  rw [hids]
  dsimp only
  rw [bucketKeys_text, orReject_ok, pure_bind]
  refine Triple.bind (Q := fun _ _ j' => metrics j' = metrics j ++ [.reads ids.length])
    (triple_observe (hrefusal _) (by simp)) ?_
  intro _ s' j' hj'
  have hquiet (buckets : List String) : Quiet (rescue (readBuckets.together w buckets)
      (readBuckets.apart w (.text name) buckets)) :=
    (composite_quiet w).rescue ((composite_quiet w).together (fun _ => trivial) _) fun fault =>
      (composite_quiet w).apart (fun _ => trivial) _ _ fault
  exact ((hquiet _).triple s' j').mono (fun _ _ _ h => h.trans hj') fun _ _ _ _ => trivial

/-- An answer that says neither that the store is not initialized nor that something was written. -/
def Neutral (answer : Answer) : Prop :=
  Request.denies answer = false ∧ writtenCount? answer = none

theorem triple_readWindow_metered (hrefusal : ∀ metric, w.refusal metric = none)
    (hstored : RepliesStored w.store)
    (hids : Bucket.ids? (Bucket.range (seconds w.now) window) = some ids)
    (hanswers : answers j = given) (hmetrics : metrics j = []) :
    Triple (readWindow w (.text name) window) s j
      (fun read _ j' => metrics j' = [.reads ids.length] ∧ ∃ new, answers j' = given ++ new ∧
        read.reached = new.any reaches ∧ ∀ answer ∈ new, Neutral answer)
      fun _ _ j' => Unfinished j' := by
  have hneutral : AsksOnly Neutral (readWindow w (.text name) window) :=
    (composite_asksOnly w).readWindow (fun _ _ => ⟨rfl, rfl⟩) (fun _ _ => ⟨rfl, rfl⟩)
      asksOnly_observe_reads _ _
  have hread := ((asks_readWindow given (tells_of_stored hstored) name window).and
    (hneutral given)) s j hanswers (unfinished_of_nil hmetrics)
  refine (hread.and (triple_readWindow_reads hrefusal hids s j)).mono ?_ fun _ _ _ h => h.1.2
  rintro read s' j' ⟨⟨⟨hreads, hextends⟩, -⟩, hj'⟩
  obtain ⟨new, hnew, hreads, hneutral⟩ := hreads.and hextends
  rw [hmetrics, List.nil_append] at hj'
  refine ⟨hj', new, hnew, ?_, hneutral⟩
  rw [hreads, Bool.false_or]

end

-- ---------------------------------------------------------------------------
-- The two operations
-- ---------------------------------------------------------------------------

theorem CreatePath.any_written (h : CreatePath bucket ttl path written) :
    path.any (fun answer => (writtenCount? answer).isSome) = !written.isNull := by
  cases h with
  | failed fault => rfl
  | created hadded => simp [writtenCount?, hadded, Value.isNull]
  | overtaken hadded count => cases hnull : written.isNull <;> simp [writtenCount?, hadded, hnull]
  | lost hadded fault => simp [writtenCount?, hadded, Value.isNull]

theorem WritePath.any_written (h : WritePath bucket ttl path written) :
    path.any (fun answer => (writtenCount? answer).isSome) = !written.isNull := by
  cases h with
  | counted hnull hone => simp [writtenCount?, hnull]
  | expiring hone hpath =>
    have hnull : written.isNull = false := by
      cases written with
      | null => cases hone
      | _ => rfl
    simp [writtenCount?, hnull]
  | failed hfault => rfl
  | creating hreply hpath =>
    rw [List.any_cons, hpath.any_written]
    rcases hreply with rfl | ⟨fault, rfl, -⟩
    · rfl
    · rfl

theorem WritePath.not_denies (h : WritePath bucket ttl path written) (hmem : answer ∈ path) :
    Request.denies answer = false := by
  have hread := h.isRead hmem
  unfold Request.denies
  split
  · cases hread
  · rfl

theorem validWindow?_eq (window : Binary64) : validWindow? (.number window) =
    if window.isFinite && Binary64.zero.lt window then some window else none := by
  cases h : window.isFinite && Binary64.zero.lt window <;>
    simp only [validWindow?, Value.number?, Option.filter, h, Bool.false_eq_true, reduceIte]

theorem isTurnedAway_counter {request : Request Binary64} (hwindow : request.window? = some window)
    {new : List Answer} (hnew : ∀ answer ∈ new, Request.denies answer = false) (b : Bool) :
    request.isTurnedAway ((.isInitialized, .ok (.bool b)) :: new) =
      (if b then validWindow? (.number window) else none).isNone := by
  have hnone : new.any Request.denies = false := by
    rw [List.any_eq_false]
    intro answer hmem
    rw [hnew answer hmem]
    nofun
  rw [validWindow?_eq, Request.isTurnedAway, List.any_cons, hnone, hwindow, Option.any_some]
  cases b with
  | false => rfl
  | true => cases window.isFinite && Binary64.zero.lt window <;> rfl

section
variable {window : Binary64} {new : List Answer} {b : Bool}

theorem isServedBy_increment (name : String) (window : ω) (maxTtl : Value) :
    (Request.increment name window maxTtl).isServedBy =
      fun answer => (writtenCount? answer).isSome := rfl

theorem status_turnedAway {request : Request Binary64} (hwindow : request.window? = some window)
    (hnone : none = if b then validWindow? (.number window) else none) :
    request.status [(.isInitialized, .ok (.bool b))] = .skip := by
  have haway := isTurnedAway_counter hwindow (List.forall_mem_nil _) b
  rw [← hnone] at haway
  rw [Request.status, haway]
  rfl

theorem served_eq (h : some x = if b then validWindow? (.number window) else none) :
    x = window ∧ validWindow? (.number window) = some window := by
  rw [validWindow?_eq] at h ⊢
  cases b with
  | false => cases h
  | true =>
    rw [if_pos rfl] at h
    split at h
    · cases h
      rename_i hvalid
      exact ⟨rfl, if_pos hvalid⟩
    · cases h

theorem isTurnedAway_valid {request : Request Binary64} (hwindow : request.window? = some window)
    (hvalid : some window = if b then validWindow? (.number window) else none)
    (hnew : ∀ answer ∈ new, Request.denies answer = false) :
    request.isTurnedAway ((.isInitialized, .ok (.bool b)) :: new) = false := by
  rw [isTurnedAway_counter hwindow hnew, ← hvalid]
  rfl

theorem status_increment (name : String) (maxTtl : Value)
    (hvalid : some window = if b then validWindow? (.number window) else none)
    (hwrite : WritePath bucket ttl path written) (hnew : ∀ answer ∈ new, Neutral answer) :
    (Request.increment name window maxTtl).status
      ((.isInitialized, .ok (.bool b)) :: (path ++ new)) =
        if written.isNull then .error else .ok := by
  have hdenies : ∀ answer ∈ path ++ new, Request.denies answer = false := by
    intro answer hmem
    rcases List.mem_append.mp hmem with hmem | hmem
    · exact hwrite.not_denies hmem
    · exact (hnew answer hmem).1
  have hunwritten : new.any (fun answer => (writtenCount? answer).isSome) = false := by
    rw [List.any_eq_false]
    intro answer hmem
    rw [(hnew answer hmem).2]
    nofun
  rw [Request.status, isTurnedAway_valid rfl hvalid hdenies, if_neg nofun, List.any_cons]
  rw [isServedBy_increment, List.any_append, hwrite.any_written, hunwritten, Bool.or_false]
  cases written.isNull <;> rfl

theorem status_query (name : String)
    (hvalid : some window = if b then validWindow? (.number window) else none)
    (hnew : ∀ answer ∈ new, Neutral answer) :
    (Request.query name window).status ((.isInitialized, .ok (.bool b)) :: new) =
      if new.any reaches then .ok else .error := by
  rw [Request.status, isTurnedAway_valid rfl hvalid fun answer hmem => (hnew answer hmem).1,
    if_neg nofun, List.any_cons]
  rfl

end

section
variable {σ : Type} {w : Wiring σ} {window : Binary64}
variable (hinit : ∀ s, ∃ b, (w.store w.now .isInitialized s).reply = .ok (.bool b))

include hinit

theorem asks_servable_served (operation name : String) (window : Binary64) :
    Asks (servable w operation (.text name) (.number window)) []
      (fun served given => ∃ b, given = [(.isInitialized, .ok (.bool b))] ∧
        served = if b then validWindow? (.number window) else none) fun _ _ => False := by
  refine Asks.bind (Q := fun reply given => ∃ b, reply = .bool b ∧
    given = [(.isInitialized, .ok (.bool b))]) (asks_demand (fun s value hvalue => ?_)
      fun s fault hfault => ?_) ?_
  · obtain ⟨b, hb⟩ := hinit s
    rw [hb] at hvalue
    cases hvalue
    exact ⟨b, rfl, rfl⟩
  · obtain ⟨b, hb⟩ := hinit s
    rw [hb] at hfault
    cases hfault
  · rintro _ _ ⟨b, rfl, rfl⟩
    cases b with
    | false => exact (asks_say (Q := fun _ given => given = _) rfl).bind fun _ _ hgiven =>
        Asks.pure ⟨false, hgiven, rfl⟩
    | true =>
      have htruthy : (Value.bool true).truthy = true := rfl
      rw [if_pos htruthy]
      split
      · rename_i x hx
        exact Asks.pure ⟨true, rfl, hx.symm⟩
      · rename_i hnone
        rw [Value.asText_number, Value.asText_text, orReject_ok, orReject_ok, pure_bind, pure_bind]
        exact (asks_say (Q := fun _ given => given = _) rfl).bind fun _ _ hgiven =>
          Asks.pure ⟨true, hgiven, hnone.symm⟩

end

section
variable {σ : Type} {w : Wiring σ} {window : Binary64}

theorem triple_observe_ended (request : Request Binary64)
    (hrefusal : ∀ metric, w.refusal metric = none)
    (h : metrics j ++ [metric] = request.observations w.now (request.status (answers j))) :
    Triple (observe w metric) s j
      (fun _ _ j' => metrics j' = request.observations w.now (request.status (answers j'))) E :=
  triple_observe (hrefusal _) (by simpa using h)

variable (hinit : ∀ s, ∃ b, (w.store w.now .isInitialized s).reply = .ok (.bool b))
variable (hrefusal : ∀ metric, w.refusal metric = none) (hstored : RepliesStored w.store)
variable (hreach : validWindow? (.number window) = some window → Bucket.InReach w.now window)

include hinit hrefusal hstored hreach

theorem triple_increment_metered (name : String) (maxTtl : Value) (s : σ) :
    let request : Request Binary64 := .increment name window maxTtl
    Triple (request.serve w) s []
      (fun _ _ j => metrics j = request.observations w.now (request.status (answers j)))
      fun _ _ j => Unfinished j := by
  intro request
  refine Triple.bind (((asks_servable_served hinit _ name window).quiet
    ((composite_quiet w).servable trivial _ _ _) rfl rfl).mono (fun _ _ _ h => h)
      fun _ _ _ h => h.1.elim) ?_
  rintro served s' j' ⟨⟨b, hanswers, hserved⟩, hmetrics⟩
  cases served with
  | none =>
    refine Triple.bind (triple_observe_ended request hrefusal ?_) fun _ _ _ h =>
      Triple.pure h
    rw [hanswers, hmetrics, status_turnedAway rfl hserved]
    rfl
  | some x =>
    obtain ⟨rfl, hvalid⟩ := served_eq hserved
    dsimp only
    rw [Value.asText_text, orReject_ok, pure_bind]
    refine Triple.bind (((asks_incrementBucket w _ _ _).quiet
      ((composite_quiet w).incrementBucket _ _ fun _ _ => trivial) hanswers hmetrics).mono
        (fun _ _ _ h => h) fun _ _ _ h => unfinished_of_nil h.2) ?_
    rintro written s'' j'' ⟨⟨path, hpath, hwrite⟩, hmetrics'⟩
    change answers j'' = (.isInitialized, .ok (.bool b)) :: path at hpath
    split
    · refine Triple.bind (triple_observe_ended request hrefusal ?_) fun _ _ _ h =>
        Triple.pure h
      have hstatus := status_increment name maxTtl hserved hwrite (List.forall_mem_nil _)
      rw [List.append_nil] at hstatus
      rw [hpath, hmetrics', hstatus]
      rfl
    · rename_i hnull
      have hisNull := Value.isNull_of_ne hnull
      obtain ⟨ids, hids, hlength, -⟩ := size_eq (hreach hvalid)
      refine Triple.bind (triple_readWindow_metered hrefusal hstored hids hpath hmetrics') ?_
      rintro read s₃ j₃ ⟨hmetrics₃, new, hanswers₃, -, hneutral⟩
      refine Triple.bind (triple_observe_ended request hrefusal ?_) fun _ _ _ h =>
        Triple.pure h
      rw [hanswers₃, List.cons_append, status_increment name maxTtl hserved hwrite hneutral, hisNull,
        hmetrics₃, hlength]
      rfl

theorem triple_query_metered (name : String) (s : σ) :
    let request : Request Binary64 := .query name window
    Triple (request.serve w) s []
      (fun _ _ j => metrics j = request.observations w.now (request.status (answers j)))
      fun _ _ j => Unfinished j := by
  intro request
  refine Triple.bind (((asks_servable_served hinit _ name window).quiet
    ((composite_quiet w).servable trivial _ _ _) rfl rfl).mono (fun _ _ _ h => h)
      fun _ _ _ h => h.1.elim) ?_
  rintro served s' j' ⟨⟨b, hanswers, hserved⟩, hmetrics⟩
  cases served with
  | none =>
    refine Triple.bind (triple_observe_ended request hrefusal ?_) fun _ _ _ h =>
      Triple.pure h
    rw [hanswers, hmetrics, status_turnedAway rfl hserved]
    rfl
  | some x =>
    obtain ⟨rfl, hvalid⟩ := served_eq hserved
    obtain ⟨ids, hids, hlength, -⟩ := size_eq (hreach hvalid)
    refine Triple.bind (triple_readWindow_metered hrefusal hstored hids hanswers hmetrics) ?_
    rintro read s'' j'' ⟨hmetrics', new, hanswers', hreached, hneutral⟩
    refine Triple.bind (triple_observe_ended request hrefusal ?_) fun _ _ _ h =>
      Triple.pure h
    rw [hanswers', List.singleton_append, status_query name hserved hneutral, ← hreached, hmetrics',
      hlength]
    cases read.reached <;> rfl

end

end Counter

-- ---------------------------------------------------------------------------
-- Typed values
-- ---------------------------------------------------------------------------

namespace KeyValue

section
variable {σ : Type} {w : Wiring σ} {key : Key} {request : Request Binary64}
variable (hinit : ∀ s, ∃ b, (w.store w.now .isInitialized s).reply = .ok (.bool b))
variable (hrefusal : ∀ metric, w.refusal metric = none)

include hinit in
theorem triple_isInitialized_quiet (s : σ) :
    Triple (demand w .isInitialized) s []
      (fun reply _ j => ∃ b, reply = .bool b ∧ answers j = [(.isInitialized, .ok (.bool b))] ∧
        metrics j = [])
      fun _ _ _ => False := by
  obtain ⟨b, hb⟩ := hinit s
  refine triple_demand (fun reply hreply => ?_) fun fault hfault => ?_
  · rw [hb] at hreply
    cases hreply
    exact ⟨b, rfl, by simp [hb], by simp⟩
  · rw [hb] at hfault
    cases hfault

def isReadable (decode : Value → Except Fault Value) : Except Fault Value → Bool
  | .ok value => value.isNull || (decode value).toBool
  | .error _ => false

theorem observations_reading (hreading : request.reading? = some reading) (now : Binary64)
    (status : Status) : request.observations now status = [request.ended status] := by
  cases request with
  | increment name window maxTtl => cases hreading
  | query name window => cases hreading
  | _ => rfl

theorem status_reading (hreading : request.reading? = some (key, fallback, decode))
    (reply : Except Fault Value) :
    request.status [(.isInitialized, .ok (.bool true)), (.get key, reply)] =
      if isReadable decode reply then .ok else .error := by
  cases request with
  | increment name window maxTtl => cases hreading
  | query name window => cases hreading
  | set key value ttl => cases hreading
  | _ =>
    cases hreading
    cases reply with
    | ok value => simp [Request.status, Request.isTurnedAway, Request.denies, Request.window?,
        Request.isServedBy, Request.reading?, isReadable]
    | error fault => rfl

theorem status_reading_denied (hreading : request.reading? = some reading) :
    request.status [(.isInitialized, .ok (.bool false))] = .skip := by
  cases request with
  | increment name window maxTtl => cases hreading
  | query name window => cases hreading
  | _ => rfl

include hrefusal in
theorem triple_finish_metered (result : Value) (hmetrics : metrics j = [])
    (hreading : request.reading? = some reading)
    (hended : request.ended status = .keyValue operation status)
    (hstatus : request.status (answers j) = status) :
    Triple (read.finish w operation status result) s j
      (fun _ _ j' => metrics j' = request.observations w.now (request.status (answers j'))) E := by
  refine Triple.bind (Counter.triple_observe_ended request hrefusal ?_) fun _ _ _ h =>
    Triple.pure h
  rw [hmetrics, hstatus, observations_reading hreading, hended]
  rfl

theorem triple_complain_quiet (what : String) (fault : Fault) (hmetrics : metrics j = []) :
    Triple (complain what key fault : Service σ Unit) s j
      (fun _ _ j' => answers j' = answers j ∧ metrics j' = []) fun _ _ j' => Unfinished j' := by
  refine Triple.bind (Q := fun _ _ j' => j' = j)
    (triple_orReject (fun _ _ => rfl) fun _ _ => unfinished_of_nil hmetrics) ?_
  rintro _ _ _ rfl
  exact triple_explain (fun _ _ => ⟨by simp, by simp [hmetrics]⟩) fun _ =>
    unfinished_of_nil hmetrics

include hinit hrefusal in
theorem triple_read_metered (operation : KeyValueOperation) (fallback : Value)
    {decode : Value → Except Fault Value}
    (hreading : request.reading? = some (key, fallback, decode))
    (hended : ∀ status, request.ended status = .keyValue operation status) (s : σ) :
    Triple (read w operation key fallback decode) s []
      (fun _ _ j => metrics j = request.observations w.now (request.status (answers j)))
      fun _ _ j => Unfinished j := by
  refine Triple.bind ((triple_isInitialized_quiet hinit s).mono (fun _ _ _ h => h)
    fun _ _ _ h => h.elim) ?_
  rintro _ s' j' ⟨b, rfl, hanswers, hmetrics⟩
  cases b with
  | false =>
    refine triple_finish_metered hrefusal fallback hmetrics hreading (hended .skip) ?_
    rw [hanswers]
    exact status_reading_denied hreading
  | true =>
    have hstatus (reply : Except Fault Value) :
        request.status (answers j' ++ [(.get key, reply)]) =
          if isReadable decode reply then .ok else .error := by
      rw [hanswers]
      exact status_reading hreading reply
    refine triple_rescue (E := fun halt _ j => metrics j = [] ∧ ∃ fault, halt = .fault fault ∧
      request.status (answers j) = .error) ?_ ?_ ?_
    · refine Triple.bind (Q := fun value _ j => metrics j = [] ∧
        answers j = answers j' ++ [(.get key, .ok value)]) ?_ ?_
      · refine triple_demand (fun value hvalue => ?_) fun fault hfault => ?_
        · exact ⟨by simp [hmetrics], by simp [hvalue]⟩
        · refine ⟨by simp [hmetrics], fault, rfl, ?_⟩
          rw [answers_append, answers_callEntries, hfault, hstatus]
          rfl
      · rintro value s'' j'' ⟨hmetrics', hvalue⟩
        have hfinish (result : Value) (hreadable : isReadable decode (.ok value) = true) :
            Triple (read.finish w operation .ok result) s'' j''
              (fun _ _ j => metrics j = request.observations w.now (request.status (answers j)))
              (fun halt _ j => metrics j = [] ∧ ∃ fault, halt = .fault fault ∧
                request.status (answers j) = .error) := by
          refine triple_finish_metered hrefusal result hmetrics' hreading (hended .ok) ?_
          rw [hvalue, hstatus, if_pos hreadable]
        split
        · rename_i hnull
          rw [pure_bind]
          exact hfinish fallback (by simp [isReadable, hnull])
        · rename_i hnull
          cases hresult : decode value with
          | ok result =>
            rw [orReject_ok, pure_bind]
            exact hfinish result (by simp [isReadable, hresult, Except.toBool])
          | error fault =>
            refine Triple.bind (Q := fun _ _ _ => False) (Triple.fail ⟨hmetrics', fault, rfl, ?_⟩)
              fun _ _ _ h => h.elim
            rw [hvalue, hstatus]
            simp [isReadable, hresult, hnull, Except.toBool]
    · rintro fault s'' j'' ⟨hmetrics', _, -, hstatus'⟩
      refine Triple.bind (triple_complain_quiet _ fault hmetrics') ?_
      rintro _ s₃ j₃ ⟨hanswers₃, hmetrics₃⟩
      refine triple_finish_metered hrefusal fallback hmetrics₃ hreading (hended .error) ?_
      rw [hanswers₃, hstatus']
    · rintro s'' j'' ⟨-, _, hfault, -⟩
      cases hfault

theorem status_set (value ttl ttl' : Value) (reply : Except Fault Value) :
    (Request.set key value ttl).status
        [(.isInitialized, .ok (.bool true)), (.set key value ttl', reply)] =
      if reply.toBool then .ok else .error := by
  cases reply <;> rfl

include hinit hrefusal in
theorem triple_set_metered (value ttl : Value) (s : σ) :
    let request : Request Binary64 := .set key value ttl
    Triple (request.serve w) s []
      (fun _ _ j => metrics j = request.observations w.now (request.status (answers j)))
      fun _ _ j => Unfinished j := by
  intro request
  have hfinish {E : Halt → σ → List Event → Prop} {s : σ} {j : List Event} (status : Status)
      (hmetrics : metrics j = []) (hstatus : request.status (answers j) = status) :
      Triple (set.finish w status) s j
        (fun _ _ j' => metrics j' = request.observations w.now (request.status (answers j'))) E := by
    refine Counter.triple_observe_ended request hrefusal ?_
    rw [hmetrics, hstatus]
    rfl
  refine Triple.bind ?_ fun _ _ _ h => Triple.pure h
  refine Triple.bind ((triple_isInitialized_quiet hinit s).mono (fun _ _ _ h => h)
    fun _ _ _ h => h.elim) ?_
  rintro _ s' j' ⟨b, rfl, hanswers, hmetrics⟩
  cases b with
  | false => exact hfinish .skip hmetrics (by rw [hanswers]; rfl)
  | true =>
    refine triple_rescue (E := fun halt _ j => metrics j = [] ∧ ∃ fault, halt = .fault fault ∧
      request.status (answers j) = .error) ?_ ?_ ?_
    · refine Triple.bind (Q := fun _ _ j => metrics j = [] ∧ request.status (answers j) = .ok) ?_
        fun _ _ _ h => hfinish .ok h.1 h.2
      refine triple_demand (fun reply hreply => ?_) fun fault hfault => ?_
      · refine ⟨by simp [hmetrics], ?_⟩
        rw [answers_append, answers_callEntries, hreply, hanswers]
        exact status_set value ttl _ _
      · refine ⟨by simp [hmetrics], fault, rfl, ?_⟩
        rw [answers_append, answers_callEntries, hfault, hanswers]
        exact status_set value ttl _ _
    · rintro fault s'' j'' ⟨hmetrics', _, -, hstatus⟩
      refine Triple.bind (triple_complain_quiet _ fault hmetrics') ?_
      rintro _ s₃ j₃ ⟨hanswers₃, hmetrics₃⟩
      exact hfinish .error hmetrics₃ (by rw [hanswers₃, hstatus])
    · rintro s'' j'' ⟨-, _, hfault, -⟩
      cases hfault

end

end KeyValue

-- ---------------------------------------------------------------------------
-- One call
-- ---------------------------------------------------------------------------

theorem Request.Sensible.inReach {request : Request Binary64} (h : request.Sensible now)
    (hwindow : request.window? = some window)
    (hvalid : window.isFinite && Binary64.zero.lt window) : Bucket.InReach now window := by
  rw [Bool.and_eq_true] at hvalid
  have hcases : window.isFinite = false ∨ Binary64.zero.lt window = false ∨
      Bucket.InReach now window := by
    cases request with
    | increment name window maxTtl => cases hwindow; exact h
    | query name window => cases hwindow; exact h
    | _ => cases hwindow
  rcases hcases with hinfinite | hnegative | hreach
  · rw [hinfinite] at hvalid
    exact absurd hvalid.1 nofun
  · rw [hnegative] at hvalid
    exact absurd hvalid.2 nofun
  · exact hreach

section
variable {σ : Type} {store : CounterStore σ}
variable (hinit : ∀ now s, ∃ b, (store now .isInitialized s).reply = .ok (.bool b))
variable (hstored : RepliesStored store)

include hinit hstored in
theorem triple_serveAt_metered {call : Binary64 × Request Binary64} (h : call.2.Sensible call.1)
    (s : σ) :
    Triple (Request.serveAt store call) s []
      (fun _ _ j => metrics j = call.2.observations call.1 (call.2.status (answers j)))
      fun _ _ j => Unfinished j := by
  obtain ⟨now, request⟩ := call
  have hreach {window : Binary64} (hwindow : request.window? = some window)
      (hvalid : Counter.validWindow? (.number window) = some window) : Bucket.InReach now window := by
    rw [Counter.validWindow?_eq] at hvalid
    split at hvalid
    · rename_i hwell
      exact h.inReach hwindow hwell
    · cases hvalid
  cases request with
  | increment name window maxTtl =>
    exact Counter.triple_increment_metered (w := { store := store, now := now }) (hinit now)
      (fun _ => rfl) hstored (hreach rfl) name maxTtl s
  | query name window =>
    exact Counter.triple_query_metered (w := { store := store, now := now }) (hinit now)
      (fun _ => rfl) hstored (hreach rfl) name s
  | set key value ttl =>
    exact KeyValue.triple_set_metered (w := { store := store, now := now }) (hinit now)
      (fun _ => rfl) value ttl s
  | _ =>
    exact KeyValue.triple_read_metered (w := { store := store, now := now }) (hinit now)
      (fun _ => rfl) _ _ rfl (fun _ => rfl) s

include hinit hstored in
theorem metered_serveAt {call : Binary64 × Request Binary64} (h : call.2.Sensible call.1) (s : σ) :
    Metered call (Request.serveAt store call s) := by
  have htriple := triple_serveAt_metered hinit hstored h s
  unfold Triple at htriple
  rw [List.nil_append] at htriple
  refine ⟨(conforms_serveAt hinit h s).rejects, fun halt hhalt => ?_, fun value hvalue => ?_⟩
  · rwa [hhalt] at htriple
  · rwa [hvalue] at htriple

end

end SlidingTally
