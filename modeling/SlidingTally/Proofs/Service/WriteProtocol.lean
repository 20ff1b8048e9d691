import SlidingTally.Proofs.Service.Served

/-!
# The protocol of a write

An increment that is not turned away writes one bucket by a few calls and stops at the first one
that says that it is written. `WriteProtocol` says so of its answers, over all paths of
`WritePath`, and `IncrementProtocol` what follows for the status and the reply. Main statement:
`increment_protocol`.
-/

namespace SlidingTally.Counter

-- ---------------------------------------------------------------------------
-- The protocol
-- ---------------------------------------------------------------------------

def bucketWrites (bucket : String) (ttl : Binary64) : List StoreCall :=
  [.increment (.text bucket), .addIfAbsent (.text bucket) (.number 1) (.number ttl),
    .touch (.text bucket) (.number ttl), .set (.text bucket) (.number 1) (.number ttl)]

def timesAsked (name : String) (given : List Answer) : Nat :=
  given.countP fun answer => answer.1.name = name

def Settles (answer next : Answer) : Prop :=
  (writtenCount? answer).isSome = true → next.1.name ≠ "increment" ∧ next.1.name ≠ "addIfAbsent"

def Retries (answer _next : Answer) : Prop :=
  ∀ key fault, answer = (.increment key, .error fault) → fault.action = .retryOnce

/-- What holds of the answers to an increment of a bucket. -/
structure WriteProtocol (bucket : String) (ttl : Binary64) (given : List Answer) : Prop where
  writes : ∀ answer ∈ given, answer.1.isRead = true ∨ answer.1 ∈ bucketWrites bucket ttl
  increments : timesAsked "increment" given ≤ 2
  additions : timesAsked "addIfAbsent" given ≤ 1
  touches : timesAsked "touch" given ≤ 1
  rewrites : timesAsked "set" given ≤ 1
  settles : given.Pairwise Settles
  retries : given.Pairwise Retries
  /-- The bucket is written again if and only if it cannot be touched. -/
  rewritten : (∃ reply, (.set (.text bucket) (.number 1) (.number ttl), reply) ∈ given) ↔
    ∃ reply, (.touch (.text bucket) (.number ttl), .ok reply) ∈ given ∧
      TouchResult.ofValue? reply = some .unsupported
  /-- No bucket is read unless it was written. -/
  unread : writtenCountOf? given = none →
    ∀ answer ∈ given, answer.1.isRead = true → answer.1 = .isInitialized

section
variable {bucket : String} {ttl : Binary64} {given path reads : List Answer} {written : Value}

theorem ExpiryPath.protocol (h : ExpiryPath bucket ttl path) (one : Value) :
    WriteProtocol bucket ttl ((.increment (.text bucket), .ok one) :: path) := by
  cases h <;> constructor <;>
    simp_all [timesAsked, StoreCall.name, bucketWrites, Settles, Retries, StoreCall.isRead]

theorem CreatePath.protocol (h : CreatePath bucket ttl path written)
    (hreply : reply = .ok .null ∨ ∃ fault, reply = .error fault ∧ fault.action = .retryOnce) :
    WriteProtocol bucket ttl ((.increment (.text bucket), reply) :: path) := by
  have hnull : Value.null.isNull = true := rfl
  rcases hreply with rfl | ⟨fault, rfl, hfault⟩ <;> cases h <;> constructor <;>
    simp_all [timesAsked, StoreCall.name, bucketWrites, Settles, Retries, StoreCall.isRead,
      writtenCount?]

theorem WritePath.protocol (h : WritePath bucket ttl path written) :
    WriteProtocol bucket ttl path := by
  cases h with
  | counted hnull hone =>
    constructor <;> simp [timesAsked, StoreCall.name, bucketWrites, StoreCall.isRead]
  | expiring hone hpath => exact hpath.protocol _
  | failed hfault =>
    constructor <;> simp [timesAsked, StoreCall.name, bucketWrites, StoreCall.isRead]
  | creating hreply hpath => exact hpath.protocol hreply

theorem Writes.isRead_or_mem (h : Writes bucket ttl given) :
    ∀ answer ∈ given, answer.1.isRead = true ∨ answer.1 ∈ bucketWrites bucket ttl := by
  intro answer hmem
  rcases h with hreads | ⟨before, path, after, rfl, hbefore, hafter, written, hwrite⟩
  · exact .inl (hreads answer hmem)
  · rcases List.mem_append.mp hmem with hmem | hmem
    · exact .inl (hbefore answer hmem)
    · rcases List.mem_append.mp hmem with hmem | hmem
      · exact hwrite.protocol.writes answer hmem
      · exact .inl (hafter answer hmem)

theorem WritePath.retries (h : WritePath bucket ttl path written) (hnull : written.isNull = false) :
    ∀ answer ∈ path, ∀ next, Retries answer next := by
  cases h with
  | counted => simp [Retries]
  | expiring hone hpath => cases hpath <;> simp [Retries]
  | failed => cases hnull
  | creating hreply hpath =>
    rcases hreply with rfl | ⟨fault, rfl, hfault⟩ <;> cases hpath <;> simp_all [Retries, Value.isNull]

theorem isRead_of_name {call : StoreCall}
    (h : call.name ∈ ["increment", "addIfAbsent", "touch", "set"]) : call.isRead = false := by
  cases call <;> first | rfl | simp [StoreCall.name] at h

theorem timesAsked_reads (hreads : ReadsOnly reads)
    (hname : name ∈ ["increment", "addIfAbsent", "touch", "set"]) :
    timesAsked name (path ++ reads) = timesAsked name path := by
  unfold timesAsked
  rw [List.countP_append, Nat.add_eq_left, List.countP_eq_zero]
  intro answer hmem heq
  have hread : answer.1.isRead = false := isRead_of_name (by rwa [of_decide_eq_true heq])
  rw [hreads answer hmem] at hread
  cases hread

theorem not_mem_of_isRead (hreads : ReadsOnly reads) (hcall : call.isRead = false)
    (reply : Except Fault Value) : (call, reply) ∉ reads := by
  intro hmem
  rw [hreads _ hmem] at hcall
  cases hcall

theorem WriteProtocol.read (h : WriteProtocol bucket ttl path) (hreads : ReadsOnly reads)
    (hwrote : (writtenCountOf? path).isSome = true)
    (hretries : ∀ answer ∈ path, ∀ next, Retries answer next) :
    WriteProtocol bucket ttl (path ++ reads) where
  writes answer hmem := by
    rcases List.mem_append.mp hmem with hmem | hmem
    · exact h.writes answer hmem
    · exact .inl (hreads answer hmem)
  increments := by
    rw [timesAsked_reads hreads (by simp)]
    exact h.increments
  additions := by
    rw [timesAsked_reads hreads (by simp)]
    exact h.additions
  touches := by
    rw [timesAsked_reads hreads (by simp)]
    exact h.touches
  rewrites := by
    rw [timesAsked_reads hreads (by simp)]
    exact h.rewrites
  settles := by
    have hname (answer : Answer) (hmem : answer ∈ reads) :
        answer.1.name ≠ "increment" ∧ answer.1.name ≠ "addIfAbsent" := by
      have hread := hreads answer hmem
      constructor <;> intro heq <;>
        exact absurd hread (by rw [isRead_of_name (by simp [heq])]; decide)
    refine List.pairwise_append.mpr ⟨h.settles, ?_, fun _ _ next hnext _ => hname next hnext⟩
    exact List.pairwise_of_forall_mem_list fun _ _ next hnext _ => hname next hnext
  retries := by
    refine List.pairwise_append.mpr ⟨h.retries, ?_, fun answer hmem next _ => hretries answer hmem next⟩
    refine List.pairwise_of_forall_mem_list fun answer hmem next _ key fault heq => ?_
    subst heq
    exact absurd hmem (not_mem_of_isRead hreads rfl _)
  rewritten := by
    have hset (reply : Except Fault Value) :
        (.set (.text bucket) (.number 1) (.number ttl), reply) ∉ reads :=
      not_mem_of_isRead hreads rfl reply
    have htouch (reply : Except Fault Value) :
        (.touch (.text bucket) (.number ttl), reply) ∉ reads :=
      not_mem_of_isRead hreads rfl reply
    simp only [List.mem_append, hset, htouch, or_false]
    exact h.rewritten
  unread hnone := by
    unfold writtenCountOf? at hnone hwrote
    rw [List.findSome?_append, Option.or_eq_none_iff] at hnone
    rw [hnone.1] at hwrote
    cases hwrote

theorem WriteProtocol.cons_isInitialized (h : WriteProtocol bucket ttl given) (reply : Except Fault Value) :
    WriteProtocol bucket ttl ((.isInitialized, reply) :: given) where
  writes := List.forall_mem_cons.mpr ⟨.inl rfl, h.writes⟩
  increments := h.increments
  additions := h.additions
  touches := h.touches
  rewrites := h.rewrites
  settles := List.pairwise_cons.mpr ⟨nofun, h.settles⟩
  retries := List.pairwise_cons.mpr ⟨nofun, h.retries⟩
  rewritten := by simpa using h.rewritten
  unread hnone := List.forall_mem_cons.mpr ⟨fun _ => rfl, h.unread hnone⟩

theorem writtenCountOf?_reads (hreads : ReadsOnly reads) :
    writtenCountOf? (path ++ reads) = writtenCountOf? path := by
  have hnone : reads.findSome? writtenCount? = none :=
    List.findSome?_eq_none_iff.mpr fun answer hmem => writtenCount?_of_isRead (hreads answer hmem)
  rw [writtenCountOf?, List.findSome?_append, hnone, Option.or_none]
  rfl

theorem WritePath.writtenCountOf?_eq (h : WritePath bucket ttl path written) :
    writtenCountOf? path = if written.isNull then none else some written := by
  cases hnull : written.isNull with
  | false => exact h.written_eq hnull
  | true =>
    have hany := h.any_written
    rw [hnull, Bool.not_true, List.any_eq_false] at hany
    exact List.findSome?_eq_none_iff.mpr fun answer hmem => by simpa using hany answer hmem

theorem WritePath.protocol_reads (h : WritePath bucket ttl path written) (hreads : ReadsOnly reads)
    (hnull : written.isNull = false) (reply : Except Fault Value) :
    WriteProtocol bucket ttl ((.isInitialized, reply) :: (path ++ reads)) := by
  refine (h.protocol.read hreads ?_ (h.retries hnull)).cons_isInitialized reply
  rw [h.writtenCountOf?_eq, hnull]
  rfl

end

-- ---------------------------------------------------------------------------
-- Status and reply
-- ---------------------------------------------------------------------------

def givesTtl : StoreCall → Bool
  | .touch _ _ => true
  | .set _ _ _ => true
  | _ => false

def decisive (given : List Answer) : List Answer := given.filter fun answer => !givesTtl answer.1

def replyTo (given : List Answer) : Value :=
  match writtenCountOf? given with
  | none => .number 0
  | some count => if given.any reaches then .number (sumOf 0 (readingsOf given)) else count

/-- What an increment of a bucket comes to. `ends` says that the buckets of the window have an
end. -/
structure IncrementProtocol (bucket : String) (ttl : Binary64) (ends : Prop)
    (o : Outcome Event Halt σ Value) : Prop where
  protocol : WriteProtocol bucket ttl (answers o.journal)
  resolves : (∃ value, o.reply = .ok value) ↔
    ¬EndsUnworded o.journal ∧ ((writtenCountOf? (answers o.journal)).isSome = true → ends)
  ok_iff : .metric (.increment .ok) ∈ o.journal ↔
    (∃ value, o.reply = .ok value) ∧ (writtenCountOf? (answers o.journal)).isSome = true
  error_iff : .metric (.increment .error) ∈ o.journal ↔
    (∃ value, o.reply = .ok value) ∧ writtenCountOf? (answers o.journal) = none
  skips : .metric (.increment .skip) ∉ o.journal
  replies : ∀ value, o.reply = .ok value → value = replyTo (decisive (answers o.journal))

theorem silent_of_givesTtl {answer : Answer} (h : givesTtl answer.1 = true) :
    readings answer = [] ∧ reaches answer = false ∧ writtenCount? answer = none := by
  obtain ⟨call, reply⟩ := answer
  cases call <;> first | exact ⟨rfl, rfl, rfl⟩ | cases h

theorem replyTo_decisive (given : List Answer) : replyTo (decisive given) = replyTo given := by
  have hall : readingsOf (decisive given) = readingsOf given ∧
      (decisive given).any reaches = given.any reaches ∧
      writtenCountOf? (decisive given) = writtenCountOf? given := by
    unfold readingsOf writtenCountOf?
    induction given with
    | nil => exact ⟨rfl, rfl, rfl⟩
    | cons answer rest ih =>
      obtain ⟨hreadings, hreaches, hwritten⟩ := ih
      cases hgives : givesTtl answer.1 with
      | false =>
        have hcons : decisive (answer :: rest) = answer :: decisive rest := by
          simp [decisive, hgives]
        rw [hcons]
        exact ⟨by rw [List.flatMap_cons, List.flatMap_cons, hreadings],
          by rw [List.any_cons, List.any_cons, hreaches],
          by rw [List.findSome?_cons, List.findSome?_cons, hwritten]⟩
      | true =>
        have hcons : decisive (answer :: rest) = decisive rest := by
          simp [decisive, hgives]
        obtain ⟨hnothing, hunreached, hunwritten⟩ := silent_of_givesTtl hgives
        rw [hcons]
        exact ⟨by rw [List.flatMap_cons, hnothing, hreadings, List.nil_append],
          by rw [List.any_cons, hunreached, hreaches, Bool.false_or],
          by rw [List.findSome?_cons, hunwritten, hwritten]⟩
  unfold replyTo
  rw [hall.1, hall.2.1, hall.2.2]

section
variable {σ : Type} {w : Wiring σ} {name : String} {window ttl : Binary64}

theorem writtenCountOf?_served {path reads : List Answer} {written : Value}
    (hwrite : WritePath bucket ttl path written) (hreads : ReadsOnly reads)
    (hanswers : given = (.isInitialized, reply) :: (path ++ reads)) :
    writtenCountOf? given = if written.isNull then none else some written := by
  rw [hanswers]
  exact (writtenCountOf?_reads hreads).trans hwrite.writtenCountOf?_eq

theorem ReadPath.readsOnly {read : WindowRead} (h : ReadPath buckets reads read) :
    ReadsOnly reads := by
  cases h with
  | together entries => exact List.forall_mem_singleton.mpr rfl
  | refused hfault => exact List.forall_mem_singleton.mpr rfl
  | apart hfault hgets =>
    refine List.forall_mem_cons.mpr ⟨rfl, fun answer hmem => ?_⟩
    have hcall := List.mem_map_of_mem (f := Prod.fst) hmem
    rw [hgets] at hcall
    obtain ⟨bucket, -, hbucket⟩ := List.mem_map.mp hcall
    rw [← hbucket]
    rfl

theorem replyTo_served {path reads : List Answer} {read : WindowRead}
    (hwrite : WritePath bucket ttl path count) (hnull : count.isNull = false)
    (hread : ReadPath buckets reads read) (opening : Except Fault Value) :
    replyTo ((.isInitialized, opening) :: (path ++ reads)) =
      if read.reached then .number read.total else count := by
  have hquiet : ∀ answer ∈ (.isInitialized, opening) :: path,
      answer.1.isRead = false ∨ answer.1 = .isInitialized :=
    List.forall_mem_cons.mpr ⟨.inr rfl, fun answer hmem => .inl (hwrite.isRead hmem)⟩
  obtain ⟨hnothing, hunreached⟩ := tell_nothing hquiet
  have hwritten : writtenCountOf? ((.isInitialized, opening) :: (path ++ reads)) = _ :=
    writtenCountOf?_served hwrite hread.readsOnly rfl
  have htotal : readingsOf ((.isInitialized, opening) :: (path ++ reads)) = reads.flatMap readings := by
    unfold readingsOf at hnothing ⊢
    rw [← List.cons_append, List.flatMap_append, hnothing, List.nil_append]
  have hreached : ((.isInitialized, opening) :: (path ++ reads)).any reaches = reads.any reaches := by
    rw [← List.cons_append, List.any_append, hunreached, Bool.false_or]
  rw [replyTo, hwritten, hnull, htotal, hreached, hread.readsOn]
  rfl

variable {o : Outcome Event Halt σ Value}

theorem IncrementEnds.protocol (h : IncrementEnds w name window ttl value o.journal)
    (hfinished : Finished o.journal) (hreply : o.reply = .ok value) :
    IncrementProtocol (currentBucket w.now name window) ttl
      ((windowKeys? w name window).isSome = true) o := by
  have hok : ∃ value, o.reply = .ok value := ⟨value, hreply⟩
  have hends := hfinished.not_endsUnworded
  have hreplies (hvalue : value = replyTo (answers o.journal)) (other : Value)
      (hother : o.reply = .ok other) : other = replyTo (decisive (answers o.journal)) := by
    rw [replyTo_decisive, ← hvalue]
    exact Except.ok.inj (hother.symm.trans hreply)
  cases h with
  | unwritten hanswers hwrite hmetrics =>
    have hwritten : writtenCountOf? (answers o.journal) = none :=
      writtenCountOf?_served hwrite (List.forall_mem_nil _) (by rw [hanswers, List.append_nil])
    refine ⟨?_, iff_of_true hok ⟨hends, ?_⟩, ?_, ?_, ?_, hreplies ?_⟩
    · rw [hanswers]
      exact hwrite.protocol.cons_isInitialized _
    · simp [hwritten]
    · simp [← mem_metrics, hmetrics, hwritten]
    · simp [← mem_metrics, hmetrics, hwritten, hok]
    · simp [← mem_metrics, hmetrics]
    · rw [replyTo, hwritten]
  | written hanswers hwrite hnull hkeys hread hmetrics =>
    have hwritten := writtenCountOf?_served hwrite hread.readsOnly hanswers
    rw [hnull] at hwritten
    refine ⟨?_, iff_of_true hok ⟨hends, ?_⟩, ?_, ?_, ?_, hreplies ?_⟩
    · rw [hanswers]
      exact hwrite.protocol_reads hread.readsOnly hnull _
    · simp [hkeys]
    · simp [← mem_metrics, hmetrics, hwritten, hok]
    · simp [← mem_metrics, hmetrics, hwritten]
    · simp [← mem_metrics, hmetrics]
    · rw [hanswers, replyTo_served hwrite hnull hread]

theorem IncrementHalts.protocol (h : IncrementHalts w name window ttl halt o.journal)
    (hunfinished : Unfinished o.journal) (hreply : o.reply = .error halt) :
    IncrementProtocol (currentBucket w.now name window) ttl
      ((windowKeys? w name window).isSome = true) o := by
  have hrejects : ¬∃ value, o.reply = .ok value := by
    rintro ⟨value, hvalue⟩
    rw [hreply] at hvalue
    cases hvalue
  have hstatus := not_mem_of_unfinished hunfinished
  have hof (hprotocol : WriteProtocol (currentBucket w.now name window) ttl (answers o.journal))
      (hcause : ¬(¬EndsUnworded o.journal ∧ ((writtenCountOf? (answers o.journal)).isSome = true →
        (windowKeys? w name window).isSome = true))) :
      IncrementProtocol (currentBucket w.now name window) ttl
        ((windowKeys? w name window).isSome = true) o :=
    ⟨hprotocol, iff_of_false hrejects hcause, iff_of_false (hstatus .ok) fun h => hrejects h.1,
      iff_of_false (hstatus .error) fun h => hrejects h.1, hstatus .skip,
      fun value hvalue => absurd ⟨value, hvalue⟩ hrejects⟩
  cases h with
  | writing hanswers hwrite hends =>
    refine hof ?_ fun h => h.1 hends
    rw [hanswers]
    exact hwrite.protocol.cons_isInitialized _
  | reading hanswers hwrite hnull hkeys hreads hends =>
    refine hof ?_ fun h => h.1 hends
    rw [hanswers]
    exact hwrite.protocol_reads hreads hnull _
  | endless hanswers hwrite hnull hkeys =>
    have hwritten : writtenCountOf? (answers o.journal) = _ :=
      writtenCountOf?_served hwrite (List.forall_mem_nil _) (by rw [hanswers, List.append_nil])
    rw [hnull] at hwritten
    refine hof ?_ fun h => ?_
    · rw [hanswers]
      exact hwrite.protocol.cons_isInitialized _
    · have hsome := h.2 (by rw [hwritten]; rfl)
      rw [hkeys] at hsome
      cases hsome

end

/-- Over any store that keeps to its types, an increment that is not turned away writes by the
protocol, and its status and reply follow from whether it wrote. -/
theorem increment_protocol {σ : Type} {store : CounterStore σ} {now window : Binary64} {s : σ}
    (hstored : RepliesStored store) (h : Admits { store := store, now := now } window s)
    (name : String) (maxTtl : Value) :
    IncrementProtocol (currentBucket now name window) (Bucket.ttl window maxTtl)
      ((Bucket.ids? (Bucket.range (seconds now) window)).isSome = true)
      (increment { store := store, now := now } (.text name) (.number window) maxTtl s) := by
  have hids : (windowKeys? { store := store, now := now } name window).isSome =
      (Bucket.ids? (Bucket.range (seconds now) window)).isSome := Option.isSome_map
  rw [← hids]
  rcases (triple_increment_ends h (fun _ => rfl) hstored name maxTtl).outcome with
    ⟨value, hvalue, hfinished, hends⟩ | ⟨halt, hhalt, hunfinished, hhalts⟩
  · exact hends.protocol hfinished hvalue
  · exact hhalts.protocol hunfinished hhalt

theorem repliesStored_degradedStore (readable : List (String × Binary64)) :
    RepliesStored (degradedStore readable) := by
  refine ⟨fun now key s reply hreply => .inr ?_, fun now keys s reply hreply => ?_⟩
  · change degradedReply readable (.get key) = .ok reply at hreply
    simp only [degradedReply] at hreply
    split at hreply <;> cases hreply
    rfl
  · cases hreply

/-- Batched reads fail and one bucket can be read. -/
theorem increment_protocol_degraded :
    .metric (.increment .ok) ∈ (degradedOutcome [("a:w1:b0", 2)]).journal ∧
      timesAsked "increment" (answers (degradedOutcome [("a:w1:b0", 2)]).journal) ≤ 2 := by
  have hadmits : Admits { store := degradedStore [("a:w1:b0", 2)], now := 0 } 1 () :=
    ⟨⟨.bool true, rfl, rfl⟩, by decide +kernel⟩
  have h := increment_protocol (repliesStored_degradedStore _) hadmits "a" .undefined
  have hwritten : (writtenCountOf? (answers (degradedOutcome [("a:w1:b0", 2)]).journal)).isSome =
      true := by decide +kernel
  have hreply : (degradedOutcome [("a:w1:b0", 2)]).reply.toBool = true := by decide +kernel
  refine ⟨h.ok_iff.mpr ⟨?_, hwritten⟩, h.protocol.increments⟩
  show ∃ value, (degradedOutcome [("a:w1:b0", 2)]).reply = .ok value
  cases hresult : (degradedOutcome [("a:w1:b0", 2)]).reply with
  | ok value => exact ⟨value, rfl⟩
  | error halt =>
    rw [hresult] at hreply
    cases hreply

def unwordedOutcome : Outcome Event Halt (List (Except Fault Value)) Value :=
  increment { store := listedStore, now := 0 } (.text "a") (.number 1) .undefined
    [.ok (.bool true), .ok .null, .error (.thrown (.record [(Value.textField, .number 1)]))]

/-- Nothing was written, and yet no error is observed and nothing is replied. -/
theorem increment_unworded :
    writtenCountOf? (answers unwordedOutcome.journal) = none ∧
      .metric (.increment .error) ∉ unwordedOutcome.journal ∧
      unwordedOutcome.reply ≠ .ok (.number 0) := by
  have hunwritten : (writtenCountOf? (answers unwordedOutcome.journal)).isNone = true := by
    decide +kernel
  have hmetrics : metrics unwordedOutcome.journal = [] := by decide +kernel
  have hrejects : unwordedOutcome.reply.toBool = false := by decide +kernel
  refine ⟨Option.isNone_iff_eq_none.mp hunwritten, ?_, fun hreply => ?_⟩
  · simp [← mem_metrics, hmetrics]
  · rw [hreply] at hrejects
    cases hrejects

end SlidingTally.Counter
