import SlidingTally.Proofs.Service.Answers

/-!
# How an occurrence is written

`WritePath bucket ttl path written` lists all the ways in which a bucket is written over any
store: the calls with their answers, and the count after them, null when nothing was written.
`answers_increment` says that an increment of the window follows one of them and but reads
before and after it. Main statement: `increment_expires_iff` says when every bucket that the store
creates gets its time to live.
-/

namespace SlidingTally.Counter

open SlidingTally.Action (Triple)

-- ---------------------------------------------------------------------------
-- Paths
-- ---------------------------------------------------------------------------

section
variable (bucket : String) (ttl : Binary64)

/-- The ways to give a bucket its time to live. -/
inductive ExpiryPath : List Answer → Prop
  | touched (hreply : ∀ reply, answer = .ok reply →
        TouchResult.ofValue? reply ≠ some .unsupported) :
      ExpiryPath [(.touch (.text bucket) (.number ttl), answer)]
  | rewritten (hreply : TouchResult.ofValue? reply = some .unsupported)
      (answer : Except Fault Value) :
      ExpiryPath [(.touch (.text bucket) (.number ttl), .ok reply),
        (.set (.text bucket) (.number 1) (.number ttl), answer)]

inductive CreatePath : List Answer → Value → Prop
  | failed (fault : Fault) :
      CreatePath [(.addIfAbsent (.text bucket) (.number 1) (.number ttl), .error fault)] .null
  | created (hadded : added.truthy = true) :
      CreatePath [(.addIfAbsent (.text bucket) (.number 1) (.number ttl), .ok added)] (.number 1)
  | overtaken (hadded : added.truthy = false) (count : Value) :
      CreatePath [(.addIfAbsent (.text bucket) (.number 1) (.number ttl), .ok added),
        (.increment (.text bucket), .ok count)] count
  | lost (hadded : added.truthy = false) (fault : Fault) :
      CreatePath [(.addIfAbsent (.text bucket) (.number 1) (.number ttl), .ok added),
        (.increment (.text bucket), .error fault)] .null

inductive WritePath : List Answer → Value → Prop
  | counted (hnull : count.isNull = false) (hone : count.isNumber 1 = false) :
      WritePath [(.increment (.text bucket), .ok count)] count
  | expiring (hone : one.isNumber 1 = true) (hpath : ExpiryPath bucket ttl path) :
      WritePath ((.increment (.text bucket), .ok one) :: path) one
  | failed (hfault : fault.action ≠ .retryOnce) :
      WritePath [(.increment (.text bucket), .error fault)] .null
  | creating (hreply : reply = .ok .null ∨ ∃ fault, reply = .error fault ∧ fault.action = .retryOnce)
      (hpath : CreatePath bucket ttl path written) :
      WritePath ((.increment (.text bucket), reply) :: path) written

end

section
variable {σ : Type} {w : Wiring σ} {given : List Answer} {bucket : String} {ttl : Binary64}

theorem asks_assignTtl : Asks (assignTtl w bucket ttl) given
    (fun _ => Adds (ExpiryPath bucket ttl) given) fun _ => Adds (ExpiryPath bucket ttl) given := by
  refine asks_rescue (E := fun _ => Adds (ExpiryPath bucket ttl) given) ?_
    (fun fault given' h => asks_explain h h) fun _ h => h
  refine Asks.bind (Q := fun reply given' =>
      given' = given ++ [(.touch (.text bucket) (.number ttl), .ok reply)])
    (asks_demand (fun _ _ _ => rfl) fun _ fault _ => ⟨_, rfl, .touched nofun⟩) ?_
  rintro reply _ rfl
  have htouched (hreply : TouchResult.ofValue? reply ≠ some .unsupported) :
      Adds (ExpiryPath bucket ttl) given
        (given ++ [(.touch (.text bucket) (.number ttl), .ok reply)]) := by
    refine ⟨_, rfl, .touched fun other hother => ?_⟩
    cases hother
    exact hreply
  have hrewritten (hreply : TouchResult.ofValue? reply = some .unsupported)
      (answer : Except Fault Value) : Adds (ExpiryPath bucket ttl) given
        (given ++ [(.touch (.text bucket) (.number ttl), .ok reply)] ++
          [(.set (.text bucket) (.number 1) (.number ttl), answer)]) :=
    ⟨_, List.append_assoc .., .rewritten hreply answer⟩
  split
  · rename_i hreply
    exact (asks_demand (fun _ _ _ => hrewritten hreply _) fun _ _ _ => hrewritten hreply _).bind
      fun _ _ h => Asks.pure h
  · rename_i hreply
    exact asks_say (htouched (by rw [hreply]; nofun))
  · rename_i hreply _
    exact Asks.pure (htouched hreply)

theorem asks_create : Asks (createBucket.create w bucket ttl) given
    (fun written => Adds (CreatePath bucket ttl · written) given)
    fun _ => Adds (CreatePath bucket ttl · .null) given := by
  refine Asks.bind (Q := fun added given' => given' = given ++
      [(.addIfAbsent (.text bucket) (.number 1) (.number ttl), .ok added)])
    (asks_demand (fun _ _ _ => rfl) fun _ fault _ => ⟨_, rfl, .failed fault⟩) ?_
  rintro added _ rfl
  split
  · rename_i hadded
    exact Asks.pure ⟨_, rfl, .created hadded⟩
  · rename_i hadded
    rw [Bool.not_eq_true] at hadded
    refine Asks.bind (Q := fun count => Adds (CreatePath bucket ttl · count) given)
      (asks_demand (fun _ count _ => ⟨_, List.append_assoc .., .overtaken hadded count⟩)
        fun _ fault _ => ⟨_, List.append_assoc .., .lost hadded fault⟩) ?_
    intro count given' h
    dsimp only
    split
    · exact (asks_say h).bind fun _ _ h => Asks.pure h
    · exact Asks.pure h

theorem asks_createBucket : Asks (createBucket w bucket ttl) given
    (fun written => Adds (CreatePath bucket ttl · written) given)
    fun _ => Adds (CreatePath bucket ttl · .null) given := by
  refine asks_rescue asks_create (fun fault given' h => ?_) fun _ h => h
  exact (asks_explain h h).bind fun _ _ h => Asks.pure h

variable (w given bucket ttl) in
/-- Every write of a bucket takes one of the paths, over any store. -/
theorem asks_incrementBucket : Asks (incrementBucket w bucket ttl) given
    (fun written => Adds (WritePath bucket ttl · written) given)
    fun _ => Adds (fun path => ∃ written, WritePath bucket ttl path written) given := by
  have hcreate (reply : Except Fault Value)
      (hreply : reply = .ok .null ∨ ∃ fault, reply = .error fault ∧ fault.action = .retryOnce) :
      Asks (createBucket w bucket ttl) (given ++ [(.increment (.text bucket), reply)])
        (fun written => Adds (WritePath bucket ttl · written) given)
        fun _ => Adds (fun path => ∃ written, WritePath bucket ttl path written) given :=
    asks_createBucket.mono (fun _ _ h => h.cons fun _ hpath => .creating hreply hpath)
      fun _ _ h => h.cons fun _ hpath => ⟨_, .creating hreply hpath⟩
  refine Asks.bind (Q := fun reply given' => given' = given ++ [(.increment (.text bucket), reply)])
    (asks_ask fun _ => rfl) ?_
  rintro reply _ rfl
  split
  · exact hcreate _ (.inl rfl)
  · rename_i count hcount
    have hnull : count.isNull = false := by
      cases count with
      | null => exact absurd rfl hcount
      | _ => rfl
    dsimp only
    split
    · rename_i hone
      refine Asks.bind (Q := fun _ => Adds (WritePath bucket ttl · count) given)
        (asks_assignTtl.mono (fun _ _ h => h.cons fun _ hpath => .expiring hone hpath)
          fun _ _ h => h.cons fun _ hpath => ⟨_, .expiring hone hpath⟩) ?_
      exact fun _ _ h => Asks.pure h
    · rename_i hone
      exact Asks.pure ⟨_, rfl, .counted hnull (by simpa using hone)⟩
  · rename_i fault
    split
    · rename_i hfault
      exact hcreate _ (.inr ⟨fault, rfl, hfault⟩)
    · rename_i hfault
      exact (asks_explain (Q := fun _ => Adds (WritePath bucket ttl · .null) given)
        ⟨_, rfl, .failed hfault⟩ ⟨_, rfl, _, .failed hfault⟩).bind fun _ _ h => Asks.pure h

end

-- ---------------------------------------------------------------------------
-- A whole increment
-- ---------------------------------------------------------------------------

def ReadsOnly (given : List Answer) : Prop := ∀ answer ∈ given, answer.1.isRead = true

def Writes (bucket : String) (ttl : Binary64) (given : List Answer) : Prop :=
  ReadsOnly given ∨ ∃ before path after, given = before ++ (path ++ after) ∧
    ReadsOnly before ∧ ReadsOnly after ∧ ∃ written, WritePath bucket ttl path written

section
variable {σ : Type} {w : Wiring σ} {given : List Answer} {bucket : String} {ttl : Binary64}

theorem triple_observe_answers {P : List Answer → Prop} {metric : Metric} (h : P (answers j)) :
    Triple (observe w metric) s j (fun _ _ j' => P (answers j')) fun _ _ j' => P (answers j') := by
  unfold observe
  split
  · exact Triple.fail h
  · refine Triple.record ?_
    rwa [answers_append, answers_metric, List.append_nil]

theorem asks_servable (kind : Answer → Prop)
    (hkind : ∀ s, kind (.isInitialized, (w.store w.now .isInitialized s).reply))
    (operation name : String) (window : Binary64) :
    Asks (servable w operation (.text name) (.number window)) given
      (fun served given' => (∀ x, served = some x → x = window) ∧ Extends kind given given')
      fun _ => Extends kind given := by
  refine ((composite_asksOnly w).demand hkind given).bind fun initialized given' h => ?_
  split
  · split
    · rename_i x hx
      refine Asks.pure ⟨fun y hy => ?_, h⟩
      cases hy
      exact (Option.some.inj (Option.filter_eq_some_iff.mp hx).1).symm
    · rw [Value.asText_number, Value.asText_text, orReject_ok, orReject_ok, pure_bind, pure_bind]
      exact (asks_say h).bind fun _ _ h => Asks.pure ⟨nofun, h⟩
  · exact (asks_say h).bind fun _ _ h => Asks.pure ⟨nofun, h⟩

theorem readsOnly_of_extends (h : Extends (·.1.isRead = true) [] given) : ReadsOnly given := by
  obtain ⟨new, rfl, hnew⟩ := h
  exact hnew

theorem Writes.of_adds {before : List Answer} (hbefore : ReadsOnly before)
    (hpath : Adds (fun path => ∃ written, WritePath bucket ttl path written) before given)
    (hafter : Extends (·.1.isRead = true) given given') : Writes bucket ttl given' := by
  obtain ⟨path, rfl, hpath⟩ := hpath
  obtain ⟨after, rfl, hafter⟩ := hafter
  exact .inr ⟨before, path, after, List.append_assoc .., hbefore, hafter, hpath⟩

theorem answers_increment (w : Wiring σ) (name : String) (window : Binary64) (maxTtl : Value) (s : σ) :
    Writes (currentBucket w.now name window) (Bucket.ttl window maxTtl)
      (answers (increment w (.text name) (.number window) maxTtl s).journal) := by
  refine Triple.always (P := fun _ j => Writes _ _ (answers j)) ?_
  refine Triple.bind ((asks_servable (·.1.isRead = true) (fun _ => rfl) _ name window s [] rfl
    nofun).mono (fun _ _ _ h => h) fun _ _ _ h => .inl (readsOnly_of_extends h.1)) ?_
  rintro served s' j' ⟨⟨hserved, hextends⟩, hunfinished⟩
  have hbefore := readsOnly_of_extends hextends
  cases served with
  | none => exact (triple_observe_answers (.inl hbefore)).bind fun _ _ _ h => Triple.pure h
  | some x =>
    cases hserved x rfl
    dsimp only
    rw [Value.asText_text, orReject_ok, pure_bind]
    refine Triple.bind ((asks_incrementBucket _ _ _ _ s' j' rfl hunfinished).mono (fun _ _ _ h => h)
      fun _ _ _ h => .of_adds hbefore h.1 (Extends.refl _)) ?_
    rintro written s'' j'' ⟨⟨path, hpath, hwrite⟩, hunfinished'⟩
    have hpath' : Adds (fun path => ∃ written, WritePath (currentBucket w.now name window)
        (Bucket.ttl window maxTtl) path written) (answers j') (answers j'') :=
      ⟨path, hpath, written, hwrite⟩
    split
    · exact (triple_observe_answers (.of_adds hbefore hpath' (Extends.refl _))).bind
        fun _ _ _ h => Triple.pure h
    · have hread : AsksOnly (·.1.isRead = true) (readWindow w (.text name) window) :=
        asksOnly_readWindow (fun _ hcall _ => hcall) _ _
      refine Triple.bind ((hread _ s'' j'' rfl hunfinished').mono (fun _ _ _ h => h)
        fun _ _ _ h => .of_adds hbefore hpath' h.1) ?_
      rintro read s₃ j₃ ⟨h, -⟩
      exact (triple_observe_answers (.of_adds hbefore hpath' h)).bind fun _ _ _ h => Triple.pure h

end

-- ---------------------------------------------------------------------------
-- Times to live
-- ---------------------------------------------------------------------------

section
variable (bucket : String) (ttl : Binary64)

/-- Whenever an increment is answered with one, so that the store has just created the bucket, a
call that gives it its time to live comes later. -/
def Expires (given : List Answer) : Prop :=
  ∀ one later, (.increment (.text bucket), .ok one) :: later <:+ given → one.isNumber 1 = true →
    ∃ answer, (.touch (.text bucket) (.number ttl), answer) ∈ later

/-- The bucket was there when it was to be added, and yet the increment after that, made in
place of adding it, is answered with one. -/
def CreatedAfterRace (given : List Answer) : Prop :=
  ∃ added one later, one.isNumber 1 = true ∧
    (.addIfAbsent (.text bucket) (.number 1) (.number ttl), .ok added) ::
      (.increment (.text bucket), .ok one) :: later <:+ given

variable {bucket ttl}

theorem suffix_append_iff {before rest later : List Answer} (hbefore : ReadsOnly before)
    (hcall : call.isRead = false) :
    (call, reply) :: later <:+ before ++ rest ↔ (call, reply) :: later <:+ rest := by
  induction before with
  | nil => rfl
  | cons answer before ih =>
    rw [List.cons_append, List.suffix_cons_iff,
      ih fun other hmem => hbefore other (List.mem_cons_of_mem _ hmem), List.cons_eq_cons]
    have hanswer := hbefore answer List.mem_cons_self
    refine or_iff_right ?_
    rintro ⟨rfl, -⟩
    rw [hcall] at hanswer
    cases hanswer

theorem expires_append (hbefore : ReadsOnly before) :
    Expires bucket ttl (before ++ rest) ↔ Expires bucket ttl rest := by
  have hsuffix {reply : Except Fault Value} {later : List Answer} :
      (.increment (.text bucket), reply) :: later <:+ before ++ rest ↔
        (.increment (.text bucket), reply) :: later <:+ rest := suffix_append_iff hbefore rfl
  unfold Expires
  simp only [hsuffix]

theorem createdAfterRace_append (hbefore : ReadsOnly before) :
    CreatedAfterRace bucket ttl (before ++ rest) ↔ CreatedAfterRace bucket ttl rest := by
  have hsuffix {reply : Except Fault Value} {later : List Answer} :
      (.addIfAbsent (.text bucket) (.number 1) (.number ttl), reply) :: later <:+ before ++ rest ↔
        (.addIfAbsent (.text bucket) (.number 1) (.number ttl), reply) :: later <:+ rest :=
    suffix_append_iff hbefore rfl
  unfold CreatedAfterRace
  simp only [hsuffix]

theorem expires_cons : Expires bucket ttl (first :: rest) ↔
    (∀ one, first = (.increment (.text bucket), .ok one) → one.isNumber 1 = true →
      ∃ answer, (.touch (.text bucket) (.number ttl), answer) ∈ rest) ∧ Expires bucket ttl rest := by
  unfold Expires
  simp only [List.suffix_cons_iff, List.cons_eq_cons]
  constructor
  · refine fun h => ⟨fun one hfirst => ?_, fun one later hlater => h one later (.inr hlater)⟩
    exact h one rest (.inl ⟨hfirst.symm, rfl⟩)
  · rintro ⟨hfirst, hrest⟩ one later (⟨rfl, rfl⟩ | hlater)
    · exact hfirst one rfl
    · exact hrest one later hlater

theorem createdAfterRace_cons : CreatedAfterRace bucket ttl (first :: rest) ↔
    (∃ added one later, one.isNumber 1 = true ∧
      first = (.addIfAbsent (.text bucket) (.number 1) (.number ttl), .ok added) ∧
      rest = (.increment (.text bucket), .ok one) :: later) ∨ CreatedAfterRace bucket ttl rest := by
  unfold CreatedAfterRace
  simp only [List.suffix_cons_iff, List.cons_eq_cons]
  constructor
  · rintro ⟨added, one, later, hone, ⟨rfl, rfl⟩ | hlater⟩
    · exact .inl ⟨added, one, later, hone, rfl, rfl⟩
    · exact .inr ⟨added, one, later, hone, hlater⟩
  · rintro (⟨added, one, later, hone, rfl, rfl⟩ | ⟨added, one, later, hone, hlater⟩)
    · exact ⟨added, one, later, hone, .inl ⟨rfl, rfl⟩⟩
    · exact ⟨added, one, later, hone, .inr hlater⟩

theorem expires_nil : Expires bucket ttl [] := by
  intro one later h
  simp at h

theorem not_createdAfterRace_nil : ¬CreatedAfterRace bucket ttl [] := by
  rintro ⟨added, one, later, -, h⟩
  simp at h

theorem expires_of_readsOnly (h : ReadsOnly given) : Expires bucket ttl given := by
  rw [← List.append_nil given, expires_append h]
  exact expires_nil

theorem not_createdAfterRace_of_readsOnly (h : ReadsOnly given) :
    ¬CreatedAfterRace bucket ttl given := by
  rw [← List.append_nil given, createdAfterRace_append h]
  exact not_createdAfterRace_nil

theorem ExpiryPath.touches (h : ExpiryPath bucket ttl path) :
    ∃ answer, (.touch (.text bucket) (.number ttl), answer) ∈ path := by
  cases h with
  | touched _ => exact ⟨_, List.mem_cons_self⟩
  | rewritten _ answer => exact ⟨_, List.mem_cons_self⟩

theorem ExpiryPath.expires (h : ExpiryPath bucket ttl path) (hafter : ReadsOnly after) :
    Expires bucket ttl (path ++ after) ∧ ¬CreatedAfterRace bucket ttl (path ++ after) := by
  cases h <;> simp [expires_cons, createdAfterRace_cons, expires_of_readsOnly hafter,
    not_createdAfterRace_of_readsOnly hafter]

theorem CreatePath.expires_iff (h : CreatePath bucket ttl path written) (hafter : ReadsOnly after) :
    Expires bucket ttl (path ++ after) ↔ ¬CreatedAfterRace bucket ttl (path ++ after) := by
  have hnone (answer : Except Fault Value) :
      (.touch (.text bucket) (.number ttl), answer) ∉ after := by
    intro hmem
    cases hafter _ hmem
  have hnext (reply : Except Fault Value) (later : List Answer) :
      after ≠ (.increment (.text bucket), reply) :: later := by
    rintro rfl
    cases hafter _ List.mem_cons_self
  -- only `overtaken` gets a count, and nothing but reads comes after it
  cases h <;> simp [expires_cons, createdAfterRace_cons, expires_of_readsOnly hafter,
    not_createdAfterRace_of_readsOnly hafter, hnone, hnext]

theorem WritePath.expires_iff (h : WritePath bucket ttl path written) (hafter : ReadsOnly after) :
    Expires bucket ttl (path ++ after) ↔ ¬CreatedAfterRace bucket ttl (path ++ after) := by
  cases h with
  | counted hnull hone =>
    simp [expires_cons, createdAfterRace_cons, expires_of_readsOnly hafter,
      not_createdAfterRace_of_readsOnly hafter, hone]
  | expiring hone hpath =>
    obtain ⟨answer, htouch⟩ := hpath.touches
    obtain ⟨hexpires, hrace⟩ := hpath.expires hafter
    rw [List.cons_append, expires_cons, createdAfterRace_cons]
    refine iff_of_true ⟨fun _ _ _ => ⟨answer, List.mem_append_left _ htouch⟩, hexpires⟩ ?_
    rintro (⟨added, one, later, -, heq, -⟩ | hrace')
    · cases heq
    · exact hrace hrace'
  | failed hfault =>
    simp [expires_cons, createdAfterRace_cons, expires_of_readsOnly hafter,
      not_createdAfterRace_of_readsOnly hafter]
  | creating hreply hpath =>
    have hnull : Value.null.isNumber 1 = false := rfl
    rcases hreply with rfl | ⟨fault, rfl, -⟩ <;>
      simp [expires_cons, createdAfterRace_cons, hpath.expires_iff hafter, hnull]

/-- Over any store, every bucket that is created without a time to live is given one within the
same call, except the one that an increment creates after the race to add it was lost. -/
theorem increment_expires_iff (w : Wiring σ) (name : String) (window : Binary64) (maxTtl : Value) (s : σ) :
    let bucket := currentBucket w.now name window
    let ttl := Bucket.ttl window maxTtl
    let given := answers (increment w (.text name) (.number window) maxTtl s).journal
    Expires bucket ttl given ↔ ¬CreatedAfterRace bucket ttl given := by
  intro bucket ttl given
  rcases answers_increment w name window maxTtl s with
    hreads | ⟨before, path, after, heq, hbefore, hafter, written, hwrite⟩
  · exact iff_of_true (expires_of_readsOnly hreads) (not_createdAfterRace_of_readsOnly hreads)
  · rw [show given = before ++ (path ++ after) from heq, expires_append hbefore,
      createdAfterRace_append hbefore]
    exact hwrite.expires_iff hafter

end

theorem Expires.touches (h : Expires bucket ttl given)
    (hmem : (.increment (.text bucket), .ok one) ∈ given) (hone : one.isNumber 1 = true) :
    ∃ answer, (.touch (.text bucket) (.number ttl), answer) ∈ given := by
  obtain ⟨before, later, rfl⟩ := List.append_of_mem hmem
  obtain ⟨answer, htouch⟩ := h one later (List.suffix_append ..) hone
  exact ⟨answer, List.mem_append_right _ (List.mem_cons_of_mem _ htouch)⟩

def listedStore : CounterStore (List (Except Fault Value)) := fun _ _ replies =>
  ⟨replies.head?.getD (.ok .null), replies.tail, []⟩

/-- The first increment times out, the bucket is there when it is to be added, and it is gone
again when it is incremented. -/
def overtakenAnswers : List Answer :=
  answers (increment { store := listedStore, now := 0 } (.text "a") (.number 1) .undefined
    [.ok (.bool true), .error (.transient "Command timed out" none), .ok (.bool false),
      .ok (.number 1)]).journal

def isFirstCount (bucket : String) : Answer → Bool
  | (.increment ⟨.text key, 0⟩, .ok count) => key = bucket && count.isNumber 1
  | _ => false

theorem not_expires_overtaken :
    ¬Expires (currentBucket 0 "a" 1) (Bucket.ttl 1 .undefined) overtakenAnswers := by
  intro h
  have hcounted : overtakenAnswers.any (isFirstCount (currentBucket 0 "a" 1)) = true := by
    decide +kernel
  have huntouched : overtakenAnswers.all (·.1.name ≠ "touch") = true := by
    decide +kernel
  obtain ⟨⟨call, reply⟩, hmem, hfirst⟩ := List.any_eq_true.mp hcounted
  unfold isFirstCount at hfirst
  split at hfirst
  · rename_i key count heq
    cases heq
    rw [Bool.and_eq_true, decide_eq_true_iff] at hfirst
    obtain ⟨rfl, hone⟩ := hfirst
    obtain ⟨answer, htouch⟩ := h.touches hmem hone
    exact absurd rfl (of_decide_eq_true (List.all_eq_true.mp huntouched _ htouch))
  · cases hfirst

end SlidingTally.Counter
