import SlidingTally.Proofs.Number.Sums
import SlidingTally.Proofs.Service.WritePath

/-!
# What an increment reads back

An increment that wrote replies with the total of the buckets it could read, or with the count
it wrote when it could read nothing. Here that is said of its answers, over any store whose
values are all counts. Main statement: `written_le_reply_iff` says when the reply has the
occurrence that was written in it.
-/

namespace SlidingTally

open SlidingTally.Action (Triple)

-- ---------------------------------------------------------------------------
-- Counts
-- ---------------------------------------------------------------------------

/-- The integer that a value reads as, zero for any other value. -/
def Value.count (value : Value) : Binary64 :=
  match Codec.integer .null value with
  | .ok x => x
  | .error _ => 0

/-- A value that reads as an integer that is not negative, under every key. -/
def Value.IsCount (value : Value) : Prop :=
  ∃ x, (∀ key, Codec.integer key value = .ok x) ∧ Binary64.zero.le x = true

/-- The reply of a store to a call when all values that it keeps are counts. -/
def StoreCall.RepliesCount : StoreCall → Value → Prop
  | .increment _, reply => reply = .null ∨ ∃ x, reply = .number x ∧ (1 : Binary64).le x = true
  | .get _, reply => reply = .null ∨ reply.IsCount
  | .getMulti _, reply => ∃ entries, reply = .table entries ∧ ∀ entry ∈ entries, entry.2.IsCount
  | _, _ => True

def StoresCounts (store : CounterStore σ) : Prop :=
  ∀ now call s reply, (store now call s).reply = .ok reply → call.RepliesCount reply

theorem Value.IsCount.integer {value : Value} (h : value.IsCount) (key : Value) :
    Codec.integer key value = .ok value.count := by
  obtain ⟨x, hx, -⟩ := h
  unfold Value.count
  rw [hx, hx]

theorem Value.IsCount.nonneg {value : Value} (h : value.IsCount) :
    Binary64.zero.le value.count = true := by
  obtain ⟨x, hx, hnonneg⟩ := h
  unfold Value.count
  rwa [hx]

-- ---------------------------------------------------------------------------
-- What answers tell
-- ---------------------------------------------------------------------------

namespace Counter

def readings : Answer → List (Value × Value)
  | (.getMulti _, .ok (.table entries)) => entries
  | (.get key, .ok value) => if value.isNull then [] else [(key.value, value)]
  | _ => []

def reaches : Answer → Bool
  | (.getMulti _, .ok _) => true
  | (.get _, .ok _) => true
  | _ => false

def writtenCount? : Answer → Option Value
  | (.increment _, .ok count) => if count.isNull then none else some count
  | (.addIfAbsent _ _ _, .ok added) => if added.truthy then some (.number 1) else none
  | _ => none

def sumOf (start : Binary64) (entries : List (Value × Value)) : Binary64 :=
  (entries.map fun entry => entry.2.count).foldl (· + ·) start

/-- A window read goes on from `read` to `read'` by these answers. -/
def ReadsOn (read : WindowRead) (new : List Answer) (read' : WindowRead) : Prop :=
  read' = ⟨sumOf read.total (new.flatMap readings), read.reached || new.any reaches⟩

theorem sumOf_append (start : Binary64) (entries entries' : List (Value × Value)) :
    sumOf start (entries ++ entries') = sumOf (sumOf start entries) entries' := by
  simp [sumOf]

theorem ReadsOn.nil (read : WindowRead) : ReadsOn read [] read := by
  simp [ReadsOn, sumOf]

theorem ReadsOn.cons {read read' read'' : WindowRead} (hfirst : ReadsOn read [answer] read')
    (h : ReadsOn read' new read'') : ReadsOn read (answer :: new) read'' := by
  subst hfirst
  unfold ReadsOn at h ⊢
  rw [h]
  simp [sumOf_append, Bool.or_assoc]

def readAll (buckets : List String) : StoreCall := .getMulti (.list (buckets.map .text))

/-- The ways to read the buckets of a window, with what comes of each: all of them at once, nothing
when that fails for good, and one after the other when it is worth another attempt. -/
inductive ReadPath (buckets : List String) : List Answer → WindowRead → Prop
  | together (entries : List (Value × Value)) :
      ReadPath buckets [(readAll buckets, .ok (.table entries))] ⟨sumOf 0 entries, true⟩
  | refused (hfault : fault.action ≠ .retryOnce) :
      ReadPath buckets [(readAll buckets, .error fault)] ⟨0, false⟩
  | apart (hfault : fault.action = .retryOnce)
      (hgets : gets.map Prod.fst = buckets.map fun bucket => .get (.text bucket)) :
      ReadPath buckets ((readAll buckets, .error fault) :: gets)
        ⟨sumOf 0 (gets.flatMap readings), gets.any reaches⟩

theorem ReadPath.readsOn {read : WindowRead} (h : ReadPath buckets path read) :
    ReadsOn ⟨0, false⟩ path read := by
  cases h <;> simp [ReadsOn, readAll, readings, reaches, sumOf]

-- ---------------------------------------------------------------------------
-- Reading
-- ---------------------------------------------------------------------------

section
variable {σ : Type} {w : Wiring σ} {given : List Answer}

theorem decodeBucket_of_isCount {value : Value} (h : value.IsCount) (bucket : Value) :
    (decodeBucket bucket value : Service σ Binary64) = pure value.count := by
  unfold decodeBucket
  rw [h.integer bucket]

theorem addBucket_of_isCount {value : Value} (h : value.IsCount) (total : Binary64)
    (bucket : Value) :
    (addBucket total bucket value : Service σ Binary64) = pure (total + value.count) := by
  unfold addBucket
  rw [decodeBucket_of_isCount h, pure_bind]
  rfl

theorem sumBuckets_of_isCount {entries : List (Value × Value)}
    (h : ∀ entry ∈ entries, entry.2.IsCount) (total : Binary64) :
    (sumBuckets total (entries.map fun entry => .list [entry.1, entry.2]) : Service σ Binary64) =
      pure (sumOf total entries) := by
  induction entries generalizing total with
  | nil => rfl
  | cons entry rest ih =>
    have hfirst := h entry List.mem_cons_self
    simp only [List.map_cons, sumBuckets, Value.pair_list, orReject_ok, pure_bind,
      decodeBucket_of_isCount hfirst]
    rw [ih fun other hmem => h other (List.mem_cons_of_mem _ hmem)]
    rfl

theorem asks_skipBucket (bucket : String) (fault : Fault) :
    Asks (skipBucket (.text bucket) fault : Service σ Unit) given (fun _ given' => given' = given)
      fun _ _ => True := by
  unfold skipBucket
  rw [Value.asText_text, orReject_ok, pure_bind]
  exact asks_explain rfl trivial

structure Tells (w : Wiring σ) : Prop where
  one : ∀ bucket s value, (w.store w.now (.get (.text bucket)) s).reply = .ok value →
    value.isNull = false → ∀ total given, Asks (addBucket total (.text bucket) value : Service σ Binary64)
      given (fun total' given' => total' = total + value.count ∧ given' = given) fun _ _ => False
  many : ∀ keys s found, (w.store w.now (.getMulti keys) s).reply = .ok found →
    ∃ entries, found = .table entries ∧ ∀ total given,
      Asks (sumBuckets total (entries.map fun entry => .list [entry.1, entry.2]) : Service σ Binary64)
        given (fun total' given' => total' = sumOf total entries ∧ given' = given) fun _ _ => False

theorem tells_of_counts (hcounts : StoresCounts w.store) : Tells w where
  one bucket s value hvalue hnull total given := by
    rcases hcounts _ _ _ _ hvalue with rfl | hcount
    · cases hnull
    · rw [addBucket_of_isCount hcount]
      exact Asks.pure ⟨rfl, rfl⟩
  many keys s found hfound := by
    obtain ⟨entries, rfl, hentries⟩ := hcounts _ _ _ _ hfound
    refine ⟨entries, rfl, fun total given => ?_⟩
    rw [sumBuckets_of_isCount hentries]
    exact Asks.pure ⟨rfl, rfl⟩

variable (htells : Tells w)

include htells

theorem asks_readOneByOne (read : WindowRead) (buckets : List String) :
    Asks (readOneByOne w read buckets) given
      (fun read' => Adds (fun new => new.map Prod.fst = buckets.map (fun bucket => .get (.text bucket)) ∧
        ReadsOn read new read') given) fun _ _ => True := by
  induction buckets generalizing read given with
  | nil => exact Asks.pure ⟨[], (List.append_nil _).symm, rfl, ReadsOn.nil read⟩
  | cons bucket rest ih =>
    refine Asks.bind (Q := fun reply given' => given' = given ++ [(.get (.text bucket), reply)] ∧
      ∃ s, (w.store w.now (.get (.text bucket)) s).reply = reply) (asks_ask fun s => ⟨rfl, s, rfl⟩) ?_
    rintro reply _ ⟨rfl, s, hs⟩
    have hnext (read' : WindowRead) (h : ReadsOn read [(.get (.text bucket), reply)] read') :
        Asks (readOneByOne w read' rest) (given ++ [(.get (.text bucket), reply)])
          (fun read'' => Adds (fun new =>
            new.map Prod.fst = (bucket :: rest).map (fun bucket => .get (.text bucket)) ∧
              ReadsOn read new read'') given) fun _ _ => True :=
      (ih read').mono (fun _ _ h' => h'.cons fun _ hnew =>
        ⟨congrArg (StoreCall.get (.text bucket) :: ·) hnew.1, h.cons hnew.2⟩) fun _ _ h' => h'
    split
    · exact hnext _ (by simp [ReadsOn, readings, reaches, sumOf, Value.isNull])
    · rename_i value hnull
      have hisNull := Value.isNull_of_ne hnull
      refine ((htells.one _ _ _ hs hisNull _ _).mono (fun _ _ h => h) fun _ _ h => h.elim).bind ?_
      rintro _ _ ⟨rfl, rfl⟩
      exact hnext _ (by simp [ReadsOn, readings, reaches, sumOf, hisNull])
    · rename_i fault
      refine (asks_skipBucket bucket fault).bind ?_
      rintro _ given' rfl
      exact hnext _ (by simp [ReadsOn, readings, reaches, sumOf])

theorem asks_readBuckets (name : String) (buckets : List String) :
    Asks (readBuckets w (.text name) buckets) given
      (fun read => Adds (ReadPath buckets · read) given) fun _ _ => True := by
  refine Asks.bind (asks_observe_reads (Q := fun _ given' => given' = given) rfl fun _ => trivial) ?_
  rintro _ given rfl
  refine asks_rescue (E := fun halt given' => ∀ fault, halt = .fault fault →
    given' = given ++ [(readAll buckets, .error fault)]) ?_ ?_ fun _ _ => trivial
  · refine Asks.bind (Q := fun found given' =>
        given' = given ++ [(readAll buckets, .ok found)] ∧
          ∃ s, (w.store w.now (readAll buckets) s).reply = .ok found)
      (asks_demand (fun s found hs => ⟨rfl, s, hs⟩) fun _ fault _ => ?_) ?_
    · rintro _ ⟨⟩
      rfl
    rintro _ _ ⟨rfl, s, hs⟩
    obtain ⟨entries, rfl, hentries⟩ := htells.many _ _ _ hs
    rw [Value.iterate_table, orReject_ok, pure_bind]
    refine ((hentries 0 _).mono (fun _ _ h => h) fun _ _ h => h.elim).bind ?_
    rintro _ _ ⟨rfl, rfl⟩
    exact Asks.pure ⟨_, rfl, .together entries⟩
  · intro fault given' h
    cases h fault rfl
    unfold readBuckets.apart
    rw [Value.asText_text, orReject_ok, pure_bind]
    refine Asks.bind (asks_explain (Q := fun _ given' =>
      given' = given ++ [(readAll buckets, .error fault)]) rfl trivial) ?_
    rintro _ _ rfl
    split
    · rename_i hfault
      refine (asks_readOneByOne htells ⟨0, false⟩ buckets).mono (fun read _ h => ?_) fun _ _ h => h
      refine h.cons fun gets hgets => ?_
      obtain ⟨hgets, rfl⟩ := hgets
      rw [Bool.false_or]
      exact .apart hfault hgets
    · rename_i hfault
      exact Asks.pure ⟨_, rfl, .refused hfault⟩

variable (given) in
theorem asks_readWindow_path (name : String) (window : Binary64) :
    Asks (readWindow w (.text name) window) given
      (fun read given' => ∃ buckets,
        Bucket.keys? name window (Bucket.range (seconds w.now) window) = some buckets ∧
          Adds (ReadPath buckets · read) given given') fun _ _ => True := by
  unfold readWindow
  split
  · rename_i ids hids
    have hkeys : Bucket.keys? name window (Bucket.range (seconds w.now) window) =
        some (ids.map (Bucket.key name window)) := by
      rw [Bucket.keys?, hids]
      rfl
    rw [bucketKeys_text, orReject_ok, pure_bind]
    exact (asks_readBuckets htells name _).mono (fun _ _ h => ⟨_, hkeys, h⟩) fun _ _ h => h
  · exact Asks.fail trivial

variable (given) in
theorem asks_readWindow (name : String) (window : Binary64) :
    Asks (readWindow w (.text name) window) given
      (fun read => Adds (ReadsOn ⟨0, false⟩ · read) given) fun _ _ => True := by
  refine (asks_readWindow_path given htells name window).mono ?_ fun _ _ h => h
  rintro read _ ⟨buckets, -, new, rfl, hpath⟩
  exact ⟨new, rfl, hpath.readsOn⟩

end

-- ---------------------------------------------------------------------------
-- A whole increment
-- ---------------------------------------------------------------------------

def readingsOf (given : List Answer) : List (Value × Value) := given.flatMap readings

def writtenCountOf? (given : List Answer) : Option Value := given.findSome? writtenCount?

theorem CreatePath.written_eq (h : CreatePath bucket ttl path written)
    (hnull : written.isNull = false) : writtenCountOf? path = some written := by
  cases h <;> simp_all [writtenCountOf?, writtenCount?, Value.isNull]

theorem WritePath.written_eq (h : WritePath bucket ttl path written)
    (hnull : written.isNull = false) : writtenCountOf? path = some written := by
  cases h with
  | counted => simp [writtenCountOf?, writtenCount?, hnull]
  | expiring => simp [writtenCountOf?, writtenCount?, hnull]
  | failed => cases hnull
  | creating hreply hpath =>
    have hcreate := hpath.written_eq hnull
    unfold writtenCountOf? at hcreate ⊢
    rcases hreply with rfl | ⟨fault, rfl, -⟩
    · simpa [writtenCount?, Value.isNull] using hcreate
    · exact hcreate

theorem CreatePath.one_le (h : CreatePath bucket ttl path written)
    (hpath : ∀ answer ∈ path, ∀ reply, answer.2 = .ok reply → answer.1.RepliesCount reply)
    (hnull : written.isNull = false) : ∃ x, written = .number x ∧ (1 : Binary64).le x = true := by
  cases h with
  | failed => cases hnull
  | created => exact ⟨1, rfl, by decide +kernel⟩
  | overtaken hadded count =>
    rcases hpath _ (List.mem_cons_of_mem _ List.mem_cons_self) _ rfl with rfl | hcount
    · cases hnull
    · exact hcount
  | lost => cases hnull

theorem WritePath.one_le (h : WritePath bucket ttl path written)
    (hpath : ∀ answer ∈ path, ∀ reply, answer.2 = .ok reply → answer.1.RepliesCount reply)
    (hnull : written.isNull = false) : ∃ x, written = .number x ∧ (1 : Binary64).le x = true := by
  have hfirst (count : Value) (hcount : count.isNull = false)
      (h : (StoreCall.increment (.text bucket)).RepliesCount count) :
      ∃ x, count = .number x ∧ (1 : Binary64).le x = true := by
    rcases h with rfl | h
    · cases hcount
    · exact h
  cases h with
  | counted => exact hfirst _ hnull (hpath _ List.mem_cons_self _ rfl)
  | expiring => exact hfirst _ hnull (hpath _ List.mem_cons_self _ rfl)
  | failed => cases hnull
  | creating hreply hcreate =>
    exact hcreate.one_le (fun answer hmem => hpath answer (List.mem_cons_of_mem _ hmem)) hnull

theorem WritePath.isRead (h : WritePath bucket ttl path written) (hmem : answer ∈ path) :
    answer.1.isRead = false := by
  have hexpiry {path : List Answer} (h : ExpiryPath bucket ttl path) :
      ∀ answer ∈ path, answer.1.isRead = false := by
    cases h <;> simp [StoreCall.isRead]
  have hcreate {path : List Answer} (h : CreatePath bucket ttl path written) :
      ∀ answer ∈ path, answer.1.isRead = false := by
    cases h <;> simp [StoreCall.isRead]
  cases h with
  | counted => cases List.mem_singleton.mp hmem; rfl
  | failed => cases List.mem_singleton.mp hmem; rfl
  | expiring _ hpath =>
    rcases List.mem_cons.mp hmem with rfl | hmem
    · rfl
    · exact hexpiry hpath answer hmem
  | creating _ hpath =>
    rcases List.mem_cons.mp hmem with rfl | hmem
    · rfl
    · exact hcreate hpath answer hmem

theorem writtenCount?_of_isRead (h : call.isRead = true) : writtenCount? (call, reply) = none := by
  cases call <;> first | rfl | cases h

theorem tells_nothing (h : call.isRead = false ∨ call = .isInitialized) :
    readings (call, reply) = [] ∧ reaches (call, reply) = false := by
  cases call with
  | get key => simp [StoreCall.isRead] at h
  | getMulti keys => simp [StoreCall.isRead] at h
  | _ => exact ⟨rfl, rfl⟩

theorem tell_nothing {silent : List Answer}
    (h : ∀ answer ∈ silent, answer.1.isRead = false ∨ answer.1 = .isInitialized) :
    readingsOf silent = [] ∧ silent.any reaches = false := by
  constructor
  · exact List.flatMap_eq_nil_iff.mpr fun answer hmem => (tells_nothing (h answer hmem)).1
  · rw [List.any_eq_false]
    intro answer hmem
    simp [(tells_nothing (h answer hmem)).2]

/-- What an increment that wrote replies, by its answers. -/
def RepliesFrom (given : List Answer) (reply : Value) : Prop :=
  ∃ written, writtenCountOf? given = some (.number written) ∧ (1 : Binary64).le written = true ∧
    reply = .number (if given.any reaches then sumOf 0 (readingsOf given) else written)

def AnswersCount (answer : Answer) : Prop :=
  ∀ reply, answer.2 = .ok reply → answer.1.RepliesCount reply

theorem isCount_of_mem_readings (h : AnswersCount answer) (hmem : entry ∈ readings answer) :
    entry.2.IsCount := by
  unfold readings at hmem
  split at hmem
  · obtain ⟨entries, heq, hentries⟩ := h _ rfl
    cases heq
    exact hentries entry hmem
  · split at hmem
    · cases hmem
    · rename_i hnull
      cases List.mem_singleton.mp hmem
      rcases h _ rfl with rfl | hcount
      · exact absurd rfl hnull
      · exact hcount
  · cases hmem

theorem isCount_of_mem_readingsOf (h : ∀ answer ∈ given, AnswersCount answer)
    (hmem : entry ∈ readingsOf given) : entry.2.IsCount := by
  obtain ⟨answer, hanswer, hreading⟩ := List.mem_flatMap.mp hmem
  exact isCount_of_mem_readings (h answer hanswer) hreading

section
variable {before path reads : List Answer} {read : WindowRead} {x : Binary64}

theorem repliesFrom_parts (hbefore : ∀ answer ∈ before, answer.1 = .isInitialized)
    (hwrite : WritePath bucket ttl path (.number x)) (hone : (1 : Binary64).le x = true)
    (hreads : ReadsOn ⟨0, false⟩ reads read) :
    RepliesFrom (before ++ path ++ reads) (if read.reached then .number read.total else .number x) := by
  have hquiet (answer : Answer) (hmem : answer ∈ before ++ path) :
      answer.1.isRead = false ∨ answer.1 = .isInitialized := by
    rcases List.mem_append.mp hmem with hmem | hmem
    · exact .inr (hbefore answer hmem)
    · exact .inl (hwrite.isRead hmem)
  have hsilent := tell_nothing hquiet
  have hunwritten : before.findSome? writtenCount? = none := by
    rw [List.findSome?_eq_none_iff]
    intro answer hmem
    exact writtenCount?_of_isRead (by rw [hbefore answer hmem]; rfl)
  have hwritten := hwrite.written_eq rfl
  unfold writtenCountOf? at hwritten
  have htotal : readingsOf (before ++ path ++ reads) = reads.flatMap readings := by
    have hnone := hsilent.1
    unfold readingsOf at hnone ⊢
    rw [List.flatMap_append, hnone, List.nil_append]
  refine ⟨x, ?_, hone, ?_⟩
  · simp [writtenCountOf?, List.findSome?_append, hunwritten, hwritten]
  · rw [htotal, List.any_append, hsilent.2, hreads]
    simp only [Bool.false_or]
    split <;> rfl

end

theorem not_mem_of_unfinished (h : Unfinished j) (status : Status) :
    .metric (.increment status) ∉ j := by
  intro hmem
  obtain ⟨count, heq⟩ := h _ hmem
  cases heq

section
variable {σ : Type} {w : Wiring σ}

theorem triple_observe_status (hunfinished : Unfinished j) (hstatus : status ≠ .ok) :
    Triple (observe w (.increment status)) s j (fun _ _ j' => .metric (.increment .ok) ∉ j')
      fun _ _ j' => .metric (.increment .ok) ∉ j' := by
  unfold observe
  split
  · exact Triple.fail (not_mem_of_unfinished hunfinished _)
  · refine Triple.record fun hmem => ?_
    rcases List.mem_append.mp hmem with hmem | hmem
    · exact not_mem_of_unfinished hunfinished _ hmem
    · cases List.mem_singleton.mp hmem
      exact hstatus rfl

def Balanced (reply : Value) (j : List Event) : Prop :=
  .metric (.increment .ok) ∈ j →
    RepliesFrom (answers j) reply ∧ ∀ answer ∈ answers j, AnswersCount answer

theorem balanced_of_not_mem (h : .metric (.increment .ok) ∉ j) : Balanced reply j :=
  fun hmem => absurd hmem h

variable (hcounts : StoresCounts w.store)

include hcounts

theorem answersCount_reply (call : StoreCall) (s : σ) :
    AnswersCount (call, (w.store w.now call s).reply) :=
  fun _ hreply => hcounts _ _ _ _ hreply

theorem triple_readBack {before path : List Answer} {x : Binary64} (name : String)
    (window : Binary64) (hanswers : answers j = before ++ path) (hunfinished : Unfinished j)
    (hbefore : ∀ answer ∈ before, answer.1 = .isInitialized)
    (hcounted : ∀ answer ∈ before ++ path, AnswersCount answer)
    (hwrite : WritePath bucket ttl path (.number x)) (hone : (1 : Binary64).le x = true) :
    Triple (do
        let read ← readWindow w (.text name) window
        observe w (.increment .ok)
        return if read.reached then .number read.total else .number x) s j
      (fun reply _ j' => Balanced reply j') fun _ _ j' => .metric (.increment .ok) ∉ j' := by
  have hread := (asks_readWindow (before ++ path) (tells_of_counts hcounts) name window).and
    (asksOnly_readWindow (fun call _ => answersCount_reply hcounts call) _ _ _)
  refine Triple.bind ((hread s j hanswers hunfinished).mono (fun _ _ _ h => h)
    fun _ _ _ h => not_mem_of_unfinished h.2 _) ?_
  rintro read s' j' ⟨⟨hreads, hextends⟩, hunfinished'⟩
  obtain ⟨reads, hanswers', hreads, hcounted'⟩ := hreads.and hextends
  have hreply : RepliesFrom (answers j') (if read.reached then .number read.total else .number x) := by
    rw [hanswers']
    exact repliesFrom_parts hbefore hwrite hone hreads
  have hall : ∀ answer ∈ answers j', AnswersCount answer := by
    rw [hanswers']
    intro answer hmem
    rcases List.mem_append.mp hmem with hmem | hmem
    · exact hcounted answer hmem
    · exact hcounted' answer hmem
  refine Triple.bind (Q := fun _ _ j'' => answers j'' = answers j') ?_ fun _ _ j'' h =>
    Triple.pure fun _ => by rw [h]; exact ⟨hreply, hall⟩
  unfold observe
  split
  · exact Triple.fail (not_mem_of_unfinished hunfinished' _)
  · refine Triple.record ?_
    rw [answers_append, answers_metric, List.append_nil]

theorem triple_increment_balanced (name : String) (window : Binary64) (maxTtl : Value) (s : σ) :
    Triple (increment w (.text name) (.number window) maxTtl) s []
      (fun reply _ j => Balanced reply j) fun _ _ j => .metric (.increment .ok) ∉ j := by
  refine Triple.bind ((asks_servable (·.1 = .isInitialized) (fun _ => rfl) _ name window s [] rfl
    nofun).mono (fun _ _ _ h => h) fun _ _ _ h => not_mem_of_unfinished h.2 _) ?_
  rintro served s' j' ⟨⟨hserved, before, hanswers, hbefore⟩, hunfinished⟩
  change answers j' = before at hanswers
  cases served with
  | none =>
    exact (triple_observe_status hunfinished (by decide)).bind fun _ _ _ h =>
      Triple.pure (balanced_of_not_mem h)
  | some x =>
    cases hserved x rfl
    dsimp only
    rw [Value.asText_text, orReject_ok, pure_bind]
    have hwrite := (asks_incrementBucket w before (currentBucket w.now name window)
      (Bucket.ttl window maxTtl)).and
        (asksOnly_incrementBucket (answersCount_reply hcounts) _ _ before)
    refine Triple.bind ((hwrite s' j' hanswers hunfinished).mono (fun _ _ _ h => h)
      fun _ _ _ h => not_mem_of_unfinished h.2 _) ?_
    rintro written s'' j'' ⟨⟨hpath, hextends⟩, hunfinished'⟩
    obtain ⟨path, hanswers', hpath, hcounted⟩ := hpath.and hextends
    split
    · exact (triple_observe_status hunfinished' (by decide)).bind fun _ _ _ h =>
        Triple.pure (balanced_of_not_mem h)
    · rename_i hnull
      have hisNull := Value.isNull_of_ne hnull
      obtain ⟨y, rfl, hone⟩ := hpath.one_le hcounted hisNull
      refine triple_readBack hcounts name window hanswers' hunfinished' hbefore ?_ hpath hone
      intro answer hmem
      rcases List.mem_append.mp hmem with hmem | hmem
      · intro reply _
        rw [hbefore answer hmem]
        exact trivial
      · exact hcounted answer hmem

end

-- ---------------------------------------------------------------------------
-- The occurrence in the total
-- ---------------------------------------------------------------------------

theorem count_le_sumOf {entries : List (Value × Value)} (h : ∀ entry ∈ entries, entry.2.IsCount)
    (hmem : entry ∈ entries) : entry.2.count.le (sumOf 0 entries) = true := by
  refine Binary64.le_foldl_add ?_ (by decide +kernel) (List.mem_map_of_mem hmem)
  intro x hx
  obtain ⟨other, hother, rfl⟩ := List.mem_map.mp hx
  exact (h other hother).nonneg

/-- Over a store of counts, where the current bucket never reads back below what was written to it,
the reply to an increment has the written count in it unless other buckets could be read, this one
could not, and those others do not add up to as much. -/
theorem written_le_reply_iff {σ : Type} {w : Wiring σ} {name : String} {window : Binary64}
    {maxTtl : Value} {s : σ} {outcome : Outcome Event Halt σ Value}
    (hcounts : StoresCounts w.store)
    (hrun : increment w (.text name) (.number window) maxTtl s = outcome)
    (hok : .metric (.increment .ok) ∈ outcome.journal)
    (hfresh : ∀ value, (.text (currentBucket w.now name window), value) ∈
      readingsOf (answers outcome.journal) → ∀ written,
        writtenCountOf? (answers outcome.journal) = some (.number written) →
          written.le value.count = true) :
    ∃ written total, writtenCountOf? (answers outcome.journal) = some (.number written) ∧
      (1 : Binary64).le written = true ∧ outcome.reply = .ok (.number total) ∧
      (written.le total = true ↔
        (answers outcome.journal).any reaches = false ∨
        (∃ value, (.text (currentBucket w.now name window), value) ∈
          readingsOf (answers outcome.journal)) ∨
        written.le (sumOf 0 (readingsOf (answers outcome.journal))) = true) := by
  subst hrun
  have htriple := triple_increment_balanced hcounts name window maxTtl s
  unfold Triple at htriple
  split at htriple
  · rename_i reply hreply
    obtain ⟨⟨written, hwritten, hone, rfl⟩, hall⟩ := htriple hok
    refine ⟨written, _, hwritten, hone, hreply, ?_⟩
    have hnan : written.isNaN = false := (Binary64.le_iff.mp hone).2.1
    split
    · rename_i hreached
      refine ⟨fun h => .inr (.inr h), ?_⟩
      rintro (hnone | ⟨value, hmem⟩ | h)
      · exact absurd hreached (by simp [hnone])
      · have hcount := count_le_sumOf (fun _ => isCount_of_mem_readingsOf hall) hmem
        exact Binary64.le_trans (hfresh value hmem written hwritten) hcount
      · exact h
    · rename_i hunreached
      exact iff_of_true (Binary64.le_refl hnan) (.inl (by simpa using hunreached))
  · exact absurd hok htriple

/-- Every bucket counts two after an increment, batched reads fail, and only some keys can be
read. -/
def degradedReply (readable : List (String × Binary64)) : StoreCall → Except Fault Value
  | .isInitialized => .ok (.bool true)
  | .increment _ => .ok (.number 2)
  | .get key => match key.value.text?.bind (List.lookup · readable) with
    | some count => .ok (.number count)
    | none => .error (.transient "Connection is closed." none)
  | _ => .error (.transient "Connection is closed." none)

def degradedStore (readable : List (String × Binary64)) : CounterStore Unit := fun _ call s =>
  ⟨degradedReply readable call, s, []⟩

theorem storesCounts_degradedStore {readable : List (String × Binary64)}
    (h : ∀ entry ∈ readable, entry.2.isInteger = true ∧ Binary64.zero.le entry.2 = true) :
    StoresCounts (degradedStore readable) := by
  intro now call s reply hreply
  change degradedReply readable call = .ok reply at hreply
  cases call with
  | increment key =>
    cases hreply
    exact .inr ⟨2, rfl, by decide +kernel⟩
  | get key =>
    simp only [degradedReply] at hreply
    split at hreply
    · rename_i count hlookup
      cases hreply
      obtain ⟨text, -, htext⟩ := Option.bind_eq_some_iff.mp hlookup
      obtain ⟨before, after, heq, -⟩ := List.lookup_eq_some_iff.mp htext
      obtain ⟨hinteger, hnonneg⟩ := h (text, count) (by simp [heq])
      exact .inr ⟨count, fun _ => if_pos hinteger, hnonneg⟩
    · cases hreply
  | getMulti keys => cases hreply
  | _ => trivial

def degradedOutcome (readable : List (String × Binary64)) : Outcome Event Halt Unit Value :=
  increment { store := degradedStore readable, now := 0 } (.text "a") (.number 1) .undefined ()

theorem mem_of_metrics {j : List Event} {metric : Metric} (h : metric ∈ j.filterMap Event.metric?) :
    .metric metric ∈ j := by
  obtain ⟨event, hmem, hevent⟩ := List.mem_filterMap.mp h
  cases event with
  | metric observed => cases hevent; exact hmem
  | _ => cases hevent

/-- Of the two buckets only the current one can be read. -/
theorem written_le_reply_iff_current :
    StoresCounts (degradedStore [("a:w1:b0", 2)]) ∧
      ∃ written total, writtenCountOf? (answers (degradedOutcome [("a:w1:b0", 2)]).journal) =
          some (.number written) ∧
        (1 : Binary64).le written = true ∧
        (degradedOutcome [("a:w1:b0", 2)]).reply = .ok (.number total) ∧
        written.le total = true := by
  have hcounts : StoresCounts (degradedStore [("a:w1:b0", 2)]) := by
    refine storesCounts_degradedStore ?_
    rw [List.forall_mem_singleton]
    decide +kernel
  have hmetrics : (degradedOutcome [("a:w1:b0", 2)]).journal.filterMap Event.metric? =
      [.reads 2, .increment .ok] := by
    decide +kernel
  have hfresh : (readingsOf (answers (degradedOutcome [("a:w1:b0", 2)]).journal)).all
      (fun entry => (writtenCountOf? (answers (degradedOutcome [("a:w1:b0", 2)]).journal)).all
        fun written => written.number?.all fun x => x.le entry.2.count) = true := by
    decide +kernel
  have hread : (readingsOf (answers (degradedOutcome [("a:w1:b0", 2)]).journal)).any
      (fun entry => entry.1.text? = some (currentBucket 0 "a" 1)) = true := by
    decide +kernel
  have hrun : increment { store := degradedStore [("a:w1:b0", 2)], now := 0 } (.text "a")
      (.number 1) .undefined () = degradedOutcome [("a:w1:b0", 2)] := rfl
  obtain ⟨written, total, hwritten, hone, hreply, hiff⟩ :=
    written_le_reply_iff hcounts hrun (mem_of_metrics (by simp [hmetrics]))
      fun value hmem written hwritten => by
        have h := List.all_eq_true.mp hfresh _ hmem
        rwa [hwritten] at h
  refine ⟨hcounts, written, total, hwritten, hone, hreply, hiff.mpr (.inr (.inl ?_))⟩
  obtain ⟨⟨key, value⟩, hmem, hkey⟩ := List.any_eq_true.mp hread
  refine ⟨value, ?_⟩
  cases key with
  | text s => cases of_decide_eq_true hkey; exact hmem
  | _ => cases of_decide_eq_true hkey

/-- Of the two buckets only the other one can be read. -/
theorem reply_lt_written_other :
    StoresCounts (degradedStore [("a:w1:b-1", 1)]) ∧
      .metric (.increment .ok) ∈ (degradedOutcome [("a:w1:b-1", 1)]).journal ∧
      ¬∃ written total, writtenCountOf? (answers (degradedOutcome [("a:w1:b-1", 1)]).journal) =
          some (.number written) ∧
        (degradedOutcome [("a:w1:b-1", 1)]).reply = .ok (.number total) ∧
        written.le total = true := by
  have hmetrics : (degradedOutcome [("a:w1:b-1", 1)]).journal.filterMap Event.metric? =
      [.reads 2, .increment .ok] := by
    decide +kernel
  have hwritten : (writtenCountOf? (answers (degradedOutcome [("a:w1:b-1", 1)]).journal)).bind
      Value.number? = some 2 := by
    decide +kernel
  have hreply : (degradedOutcome [("a:w1:b-1", 1)]).reply.toOption.bind Value.number? = some 1 := by
    decide +kernel
  refine ⟨storesCounts_degradedStore ?_, mem_of_metrics (by simp [hmetrics]), ?_⟩
  · rw [List.forall_mem_singleton]
    decide +kernel
  · rintro ⟨written, total, hwritten', hreply', hle⟩
    rw [hwritten'] at hwritten
    rw [hreply'] at hreply
    cases Option.some.inj hwritten
    cases Option.some.inj hreply
    exact absurd hle (by decide +kernel)

end Counter

end SlidingTally
