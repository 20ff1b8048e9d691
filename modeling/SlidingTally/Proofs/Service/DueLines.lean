import SlidingTally.Proofs.Service.Served

/-!
# The lines that a counter owes

A journal holds the lines of the store among those of the service; `ownLines` tells them apart.
`due` says which lines the answers of the store call for, and that a line ends with the wording of a
fault, of which a few have none. Each part of a call writes what is due as soon as it is due: `Owes`
says what is still to be written. Main statements: `owes_increment` and `owes_query`.
-/

namespace SlidingTally

open SlidingTally.Action (Triple)

-- ---------------------------------------------------------------------------
-- Own lines
-- ---------------------------------------------------------------------------

section
variable {σ : Type}

/-- Reads on in a journal: the state of the store, and the lines so far that are not the store's.
A store writes its lines right before its answer. -/
def scan (w : Wiring σ) (seen : σ × List LogLine) : Event → σ × List LogLine
  | .log line => (seen.1, seen.2 ++ [line])
  | .metric _ => seen
  | .call call _ =>
    let outcome := w.store w.now call seen.1
    (outcome.state, seen.2.take (seen.2.length - outcome.journal.length))

def ownLines (w : Wiring σ) (s : σ) (j : List Event) : List LogLine := (j.foldl (scan w) (s, [])).2

theorem scan_callEntries (w : Wiring σ) (call : StoreCall) (s : σ) (own : List LogLine) :
    (callEntries w call s).foldl (scan w) (s, own) = ((w.store w.now call s).state, own) := by
  have hlines (lines own : List LogLine) :
      (lines.map Event.log).foldl (scan w) (s, own) = (s, own ++ lines) := by
    induction lines generalizing own with
    | nil => simp
    | cons line rest ih =>
      rw [List.map_cons, List.foldl_cons, scan, ih, List.append_assoc, List.singleton_append]
  simp [callEntries, hlines, scan]

end

namespace Counter

-- ---------------------------------------------------------------------------
-- Due lines
-- ---------------------------------------------------------------------------

def worded (level : LogLevel) (lead : String) (fault : Fault) : Option LogLine :=
  fault.message?.map fun text => ⟨level, .counter, lead ++ text⟩

def skipLine (skip : String × Fault) : Option LogLine :=
  worded .debug ("Skipping bucket " ++ skip.1 ++ ": ") skip.2

def undecodable? : Value × Value → Option (String × Fault)
  | (.text bucket, value) =>
    match Codec.integer (.text bucket) value with
    | .ok _ => none
    | .error fault => some (bucket, fault)
  | _ => none

/-- The buckets that do not count after an answer: its own read failed or its value does not
decode. -/
def skips : Answer → List (String × Fault)
  | (.get key, .error fault) => [(key.value.toText?.getD "", fault)]
  | answer => (readings answer).filterMap undecodable?

def adds : Answer → Bool
  | (.addIfAbsent _ _ _, _) => true
  | _ => false

section
variable (name bucket : String)

/-- The lines that an answer calls for, none in place of one that cannot be worded. After an
attempt to add the bucket no other is left but the increment. -/
def dueFor (added : Bool) : Answer → List (Option LogLine)
  | (.increment _, .error fault) =>
    if !added && fault.action = .retryOnce then []
    else [worded .error s!"Increment failed for {bucket}: " fault]
  | (.increment _, .ok count) =>
    if added && count.isNull then
      [some ⟨.error, .counter,
        s!"Increment failed for {bucket}: bucket vanished after losing the create race"⟩]
    else []
  | (.addIfAbsent _ _ _, .error fault) =>
    [worded .error s!"Increment failed for {bucket}: " fault]
  | (.touch _ _, .error fault) => [worded .warn s!"TTL refresh failed for {bucket}: " fault]
  | (.touch _ _, .ok reply) =>
    if TouchResult.ofValue? reply = some .notFound then
      [some ⟨.warn, .counter, s!"Bucket {bucket} expired before its TTL was set"⟩]
    else []
  | (.set _ _ _, .error fault) => [worded .warn s!"TTL refresh failed for {bucket}: " fault]
  | (.getMulti _, .error fault) => [worded .error ("Multi-get failed for " ++ name ++ ": ") fault]
  | answer => (skips answer).map skipLine

def due (added : Bool) : List Answer → List (Option LogLine)
  | [] => []
  | answer :: rest => dueFor name bucket added answer ++ due (added || adds answer) rest

end

section
variable {name bucket : String} {added : Bool}

theorem due_append (given new : List Answer) : due name bucket added (given ++ new) =
    due name bucket added given ++ due name bucket (added || given.any adds) new := by
  induction given generalizing added with
  | nil => simp [due]
  | cons answer rest ih =>
    simp only [List.cons_append, due, ih, List.append_assoc, List.any_cons, Bool.or_assoc]

theorem due_concat (given : List Answer) (answer : Answer) :
    due name bucket false (given ++ [answer]) =
      due name bucket false given ++ dueFor name bucket (given.any adds) answer := by
  simp [due_append, due]

end

-- ---------------------------------------------------------------------------
-- Debts
-- ---------------------------------------------------------------------------

/-- Of the lines that are due, in a journal that began at the state `start`, all are written but
these last ones. -/
def Owes (w : Wiring σ) (name bucket : String) (start : σ) (lines : List (Option LogLine)) (s : σ)
    (j : List Event) : Prop :=
  ∃ own, j.foldl (scan w) (start, []) = (s, own) ∧
    due name bucket false (answers j) = own.map some ++ lines

/-- What is still owed when a call halts: a line that could not be worded, if it rejects. -/
def unwritten : Halt → List (Option LogLine)
  | .fault _ => [none]
  | .endless => []

section
variable {σ : Type} {w : Wiring σ} {name bucket : String} {start s : σ} {j : List Event}
  {lines : List (Option LogLine)}

theorem owes_start : Owes w name bucket start [] start [] := ⟨[], rfl, rfl⟩

theorem Owes.ask (h : Owes w name bucket start [] s j) (call : StoreCall) :
    Owes w name bucket start
      (dueFor name bucket ((answers j).any adds) (call, (w.store w.now call s).reply))
      (w.store w.now call s).state (j ++ callEntries w call s) := by
  obtain ⟨own, hscan, hdue⟩ := h
  refine ⟨own, ?_, ?_⟩
  · rw [List.foldl_append, hscan, scan_callEntries]
  · rw [answers_append, answers_callEntries, due_concat, hdue, List.append_nil]

theorem Owes.log (h : Owes w name bucket start (some line :: lines) s j) :
    Owes w name bucket start lines s (j ++ [.log line]) := by
  obtain ⟨own, hscan, hdue⟩ := h
  refine ⟨own ++ [line], ?_, ?_⟩
  · rw [List.foldl_append, hscan]
    rfl
  · simp [hdue]

theorem Owes.metric (h : Owes w name bucket start lines s j) (metric : Metric) :
    Owes w name bucket start lines s (j ++ [.metric metric]) := by
  obtain ⟨own, hscan, hdue⟩ := h
  refine ⟨own, ?_, ?_⟩
  · rw [List.foldl_append, hscan]
    rfl
  · rw [answers_append, answers_metric, List.append_nil, hdue]

theorem triple_say_owes {line : LogLine} (h : Owes w name bucket start (some line :: lines) s j)
    (hline : line = ⟨level, .counter, text⟩) :
    Triple (say level .counter text) s j (fun _ => Owes w name bucket start lines) E := by
  subst hline
  exact triple_say h.log

theorem triple_explain_owes (h : Owes w name bucket start (worded level lead fault :: lines) s j) :
    Triple (explain level .counter lead fault) s j (fun _ => Owes w name bucket start lines)
      fun halt s' j' => fault.message? = none ∧ halt = .fault .unwritable ∧
        Owes w name bucket start (none :: lines) s' j' := by
  refine triple_explain (fun text htext => ?_) fun hnone => ⟨hnone, rfl, ?_⟩
  · rw [worded, htext] at h
    exact h.log
  · rwa [worded, hnone] at h

theorem triple_explain_paid (h : Owes w name bucket start [worded level lead fault] s j) :
    Triple (explain level .counter lead fault) s j (fun _ => Owes w name bucket start [])
      fun halt => Owes w name bucket start (unwritten halt) := by
  refine (triple_explain_owes h).mono (fun _ _ _ h => h) ?_
  rintro _ s' j' ⟨-, rfl, h'⟩
  exact h'

theorem triple_ask_owes (h : Owes w name bucket start [] s j) (call : StoreCall) :
    Triple (ask w call) s j
      (fun reply s' j' =>
        Owes w name bucket start (dueFor name bucket ((answers j).any adds) (call, reply)) s' j' ∧
          answers j' = answers j ++ [(call, reply)] ∧ ∃ s, (w.store w.now call s).reply = reply) E :=
  triple_ask ⟨h.ask call, by simp, s, rfl⟩

theorem triple_demand_owes (h : Owes w name bucket start [] s j) (call : StoreCall) :
    Triple (demand w call) s j
      (fun value s' j' =>
        Owes w name bucket start (dueFor name bucket ((answers j).any adds) (call, .ok value)) s' j' ∧
          answers j' = answers j ++ [(call, .ok value)] ∧
            ∃ s, (w.store w.now call s).reply = .ok value)
      fun halt s' j' => ∃ fault, halt = .fault fault ∧
        Owes w name bucket start (dueFor name bucket ((answers j).any adds) (call, .error fault))
          s' j' := by
  refine Triple.bind (triple_ask_owes h call) ?_
  rintro reply s' j' ⟨h', hanswers, hreply⟩
  refine triple_orReject (fun value hvalue => ?_) fun fault hfault => ?_
  · subst hvalue
    exact ⟨h', hanswers, hreply⟩
  · subst hfault
    exact ⟨fault, rfl, h'⟩

-- ---------------------------------------------------------------------------
-- Writing
-- ---------------------------------------------------------------------------

theorem triple_assignTtl_owes (h : Owes w name bucket start [] s j) (ttl : Binary64) :
    Triple (assignTtl w bucket ttl) s j (fun _ => Owes w name bucket start [])
      fun halt => Owes w name bucket start (unwritten halt) := by
  refine triple_rescue (E := fun halt s' j' => ∃ fault, halt = .fault fault ∧
    Owes w name bucket start [worded .warn s!"TTL refresh failed for {bucket}: " fault] s' j') ?_ ?_ ?_
  · refine Triple.bind (triple_demand_owes h _) ?_
    rintro reply s' j' ⟨h', -, -⟩
    have hquiet (hreply : TouchResult.ofValue? reply ≠ some .notFound) :
        Owes w name bucket start [] s' j' := by
      rwa [dueFor, if_neg hreply] at h'
    split
    · rename_i hreply
      refine Triple.bind (triple_demand_owes (hquiet (by rw [hreply]; nofun)) _) ?_
      exact fun _ _ _ h'' => Triple.pure h''.1
    · rename_i hreply
      rw [dueFor, if_pos hreply] at h'
      exact triple_say_owes h' rfl
    · rename_i hreply
      exact Triple.pure (hquiet hreply)
  · rintro _ s' j' ⟨fault, ⟨⟩, h'⟩
    exact triple_explain_paid h'
  · rintro s' j' ⟨fault, hfault, -⟩
    cases hfault

theorem triple_writeFailed_owes
    (h : Owes w name bucket start [worded .error s!"Increment failed for {bucket}: " fault] s j) :
    Triple (writeFailed bucket fault) s j (fun _ => Owes w name bucket start [])
      fun halt => Owes w name bucket start (unwritten halt) :=
  Triple.bind (triple_explain_paid h) fun _ _ _ h' => Triple.pure h'

theorem triple_createBucket_owes (h : Owes w name bucket start [] s j) (ttl : Binary64) :
    Triple (createBucket w bucket ttl) s j (fun _ => Owes w name bucket start [])
      fun halt => Owes w name bucket start (unwritten halt) := by
  refine triple_rescue (E := fun halt s' j' => ∃ fault, halt = .fault fault ∧
    Owes w name bucket start [worded .error s!"Increment failed for {bucket}: " fault] s' j') ?_ ?_ ?_
  · refine Triple.bind (triple_demand_owes h _) ?_
    rintro added s' j' ⟨h', hanswers, -⟩
    split
    · exact Triple.pure h'
    · have hadded : (answers j').any adds = true := by simp [hanswers, adds]
      refine Triple.bind ((triple_demand_owes h' _).mono (fun _ _ _ h => h) ?_) ?_
      · rintro halt s'' j'' ⟨fault, rfl, h''⟩
        rw [hadded] at h''
        exact ⟨fault, rfl, h''⟩
      rintro count s'' j'' ⟨h'', -, -⟩
      rw [hadded, dueFor, Bool.true_and] at h''
      dsimp only
      split
      · rename_i hnull
        rw [if_pos hnull] at h''
        exact (triple_say_owes h'' rfl).bind fun _ _ _ h₃ => Triple.pure h₃
      · rename_i hnull
        rw [if_neg hnull] at h''
        exact Triple.pure h''
  · rintro _ s' j' ⟨fault, ⟨⟩, h'⟩
    exact triple_writeFailed_owes h'
  · rintro s' j' ⟨fault, hfault, -⟩
    cases hfault

theorem triple_incrementBucket_owes (h : Owes w name bucket start [] s j)
    (hadded : (answers j).any adds = false) (ttl : Binary64) :
    Triple (incrementBucket w bucket ttl) s j (fun _ => Owes w name bucket start [])
      fun halt => Owes w name bucket start (unwritten halt) := by
  refine Triple.bind (triple_ask_owes h _) ?_
  rintro reply s' j' ⟨h', -, -⟩
  rw [hadded] at h'
  split
  · exact triple_createBucket_owes h' ttl
  · dsimp only
    split
    · exact (triple_assignTtl_owes h' ttl).bind fun _ _ _ h'' => Triple.pure h''
    · exact Triple.pure h'
  · rename_i fault
    simp only [dueFor, Bool.not_false, Bool.true_and, decide_eq_true_eq] at h'
    split
    · rename_i hretry
      rw [if_pos hretry] at h'
      exact triple_createBucket_owes h' ttl
    · rename_i hretry
      rw [if_neg hretry] at h'
      exact triple_writeFailed_owes h'

-- ---------------------------------------------------------------------------
-- Reading
-- ---------------------------------------------------------------------------

theorem triple_skipBucket_owes {key : String}
    (h : Owes w name bucket start (skipLine (key, fault) :: lines) s j) :
    Triple (skipBucket (.text key) fault) s j (fun _ => Owes w name bucket start lines)
      fun halt s' j' => fault.message? = none ∧ halt = .fault .unwritable ∧
        Owes w name bucket start (none :: lines) s' j' := by
  unfold skipBucket
  rw [Value.asText_text, orReject_ok, pure_bind]
  exact triple_explain_owes h

theorem triple_decodeBucket_owes {value : Value} (hstored : value.isStored = true) {key : String}
    (h : Owes w name bucket start ((undecodable? (.text key, value)).toList.map skipLine ++ lines) s j) :
    Triple (decodeBucket (.text key) value) s j (fun _ => Owes w name bucket start lines)
      fun _ _ _ => False := by
  unfold decodeBucket
  unfold undecodable? at h
  dsimp only at h
  rcases integer_stored hstored key with hx | ⟨-, raw, hx⟩
  · rw [hx] at h ⊢
    exact Triple.pure h
  · have hskip : (Fault.decode key raw "integer").action = .skip := rfl
    rw [hx] at h ⊢
    dsimp only
    rw [if_pos hskip]
    refine Triple.bind ((triple_skipBucket_owes h).mono (fun _ _ _ h' => h') ?_)
      fun _ _ _ h' => Triple.pure h'
    rintro halt s' j' ⟨hnone, -⟩
    cases hnone

theorem triple_addBucket_owes {value : Value} (hstored : value.isStored = true) {key : String}
    (h : Owes w name bucket start ((undecodable? (.text key, value)).toList.map skipLine ++ lines) s j)
    (total : Binary64) :
    Triple (addBucket total (.text key) value) s j (fun _ => Owes w name bucket start lines)
      fun _ _ _ => False :=
  triple_rescue ((triple_decodeBucket_owes hstored h).bind fun _ _ _ h' => Triple.pure h')
    (fun _ _ _ h' => h'.elim) fun _ _ h' => h'

theorem filterMap_undecodable_cons (entry : Value × Value) (rest : List (Value × Value)) :
    (entry :: rest).filterMap undecodable? =
      (undecodable? entry).toList ++ rest.filterMap undecodable? := by
  rw [List.filterMap_cons]
  cases undecodable? entry <;> rfl

theorem triple_sumBuckets_owes {entries : List (Value × Value)}
    (hentries : ∀ entry ∈ entries, (∃ text, entry.1 = .text text) ∧ entry.2.isStored = true)
    (h : Owes w name bucket start ((entries.filterMap undecodable?).map skipLine) s j)
    (total : Binary64) :
    Triple (sumBuckets total (entries.map fun entry => .list [entry.1, entry.2])) s j
      (fun _ => Owes w name bucket start []) fun _ _ _ => False := by
  induction entries generalizing total s j with
  | nil => exact Triple.pure h
  | cons entry rest ih =>
    obtain ⟨⟨⟨key, hkey⟩, hstored⟩, hrest⟩ := List.forall_mem_cons.mp hentries
    obtain ⟨keyed, value⟩ := entry
    change keyed = .text key at hkey
    subst hkey
    rw [filterMap_undecodable_cons, List.map_append] at h
    simp only [List.map_cons, sumBuckets, Value.pair_list, orReject_ok, pure_bind]
    exact (triple_decodeBucket_owes hstored h).bind fun count _ _ h' => ih hrest h' _

variable (hstored : RepliesStored w.store)

include hstored

theorem triple_readOneByOne_owes (h : Owes w name bucket start [] s j) (read : WindowRead)
    (buckets : List String) :
    Triple (readOneByOne w read buckets) s j (fun _ => Owes w name bucket start [])
      fun halt => Owes w name bucket start (unwritten halt) := by
  induction buckets generalizing read s j with
  | nil => exact Triple.pure h
  | cons key rest ih =>
    refine Triple.bind (triple_ask_owes h _) ?_
    rintro reply s' j' ⟨h', -, s₁, hreply⟩
    split
    · exact ih h' _
    · rename_i value hnull
      have hisNull := Value.isNull_of_ne hnull
      rcases hstored.one _ _ _ _ hreply with rfl | hvalue
      · cases hisNull
      · have hskips : dueFor name bucket ((answers j).any adds) (.get (.text key), .ok value) =
            (undecodable? (.text key, value)).toList.map skipLine ++ [] := by
          simp only [dueFor, skips, readings, hisNull, Key.text, Bool.false_eq_true, if_false]
          rw [filterMap_undecodable_cons, List.map_append]
          rfl
        rw [hskips] at h'
        refine Triple.bind ((triple_addBucket_owes hvalue h' _).mono (fun _ _ _ h => h)
          fun _ _ _ h => h.elim) fun _ _ _ h'' => ih h'' _
    · refine Triple.bind ((triple_skipBucket_owes h').mono (fun _ _ _ h => h) ?_)
        fun _ _ _ h'' => ih h'' _
      rintro _ s'' j'' ⟨-, rfl, h''⟩
      exact h''

theorem triple_readWindow_owes (hrefusal : ∀ metric, w.refusal metric = none)
    (h : Owes w name bucket start [] s j) (window : Binary64) :
    Triple (readWindow w (.text name) window) s j (fun _ => Owes w name bucket start [])
      fun halt => Owes w name bucket start (unwritten halt) := by
  unfold readWindow
  split
  · rw [bucketKeys_text, orReject_ok, pure_bind]
    refine Triple.bind (Q := fun _ => Owes w name bucket start [])
      (triple_observe (hrefusal _) (h.metric _)) ?_
    intro _ s' j' h'
    refine triple_rescue (E := fun halt s' j' => ∃ fault, halt = .fault fault ∧
      Owes w name bucket start [worded .error ("Multi-get failed for " ++ name ++ ": ") fault] s' j')
        ?_ ?_ ?_
    · refine Triple.bind (triple_demand_owes h' _) ?_
      rintro found s'' j'' ⟨h'', -, s₁, hfound⟩
      obtain ⟨entries, rfl, hentries⟩ := hstored.many _ _ _ _ hfound
      rw [Value.iterate_table, orReject_ok, pure_bind]
      refine Triple.bind ((triple_sumBuckets_owes hentries h'' 0).mono (fun _ _ _ h => h)
        fun _ _ _ h => h.elim) fun _ _ _ h₃ => Triple.pure h₃
    · rintro _ s'' j'' ⟨fault, ⟨⟩, h''⟩
      unfold readBuckets.apart
      rw [Value.asText_text, orReject_ok, pure_bind]
      refine Triple.bind (triple_explain_paid h'') fun _ s₃ j₃ h₃ => ?_
      split
      · exact triple_readOneByOne_owes hstored h₃ _ _
      · exact Triple.pure h₃
    · rintro s'' j'' ⟨fault, hfault, -⟩
      cases hfault
  · exact Triple.fail h

-- ---------------------------------------------------------------------------
-- The two operations
-- ---------------------------------------------------------------------------

end

section
variable {σ : Type} {w : Wiring σ} {window : Binary64} {s : σ}
variable (h : Admits w window s)

include h

theorem Admits.triple_servable_owes (operation name bucket : String) :
    Triple (servable w operation (.text name) (.number window)) s []
      (fun served s' j => served = some window ∧ Owes w name bucket s [] s' j ∧
        (answers j).any adds = false)
      fun halt => Owes w name bucket s (unwritten halt) := by
  obtain ⟨⟨initialized, hreply, htruthy⟩, hwindow⟩ := h
  have hstart : Owes w name bucket s [] s [] := owes_start
  have hask := hstart.ask .isInitialized
  rw [hreply] at hask
  refine Triple.bind (Q := fun value s' j => value = initialized ∧ Owes w name bucket s [] s' j ∧
    (answers j).any adds = false) (triple_demand (fun value hvalue => ?_) fun fault hfault => ?_) ?_
  · rw [hreply] at hvalue
    cases hvalue
    exact ⟨rfl, hask, by simp [adds]⟩
  · rw [hreply] at hfault
    cases hfault
  · rintro _ s' j ⟨rfl, howes, hadded⟩
    rw [if_pos htruthy, hwindow]
    exact Triple.pure ⟨rfl, howes, hadded⟩

variable (hrefusal : ∀ metric, w.refusal metric = none)
variable (hstored : RepliesStored w.store)

include hrefusal hstored

theorem owes_increment (name : String) (maxTtl : Value) :
    Triple (increment w (.text name) (.number window) maxTtl) s []
      (fun _ => Owes w name (currentBucket w.now name window) s [])
      fun halt => Owes w name (currentBucket w.now name window) s (unwritten halt) := by
  refine Triple.bind (h.triple_servable_owes "increment" name _) ?_
  rintro _ s' j' ⟨rfl, h', hadded⟩
  dsimp only
  rw [Value.asText_text, orReject_ok, pure_bind]
  refine Triple.bind (triple_incrementBucket_owes h' hadded _) fun written s'' j'' h'' => ?_
  split
  · exact (triple_observe (hrefusal _) (h''.metric _)).bind fun _ _ _ h₃ => Triple.pure h₃
  · refine Triple.bind (triple_readWindow_owes hstored hrefusal h'' window) fun _ _ _ h₃ => ?_
    exact (triple_observe (hrefusal _) (h₃.metric _)).bind fun _ _ _ h₄ => Triple.pure h₄

theorem owes_query (name bucket : String) :
    Triple (query w (.text name) (.number window)) s []
      (fun _ => Owes w name bucket s [])
      fun halt => Owes w name bucket s (unwritten halt) := by
  refine Triple.bind (h.triple_servable_owes "query" name bucket) ?_
  rintro _ s' j' ⟨rfl, h', -⟩
  refine Triple.bind (triple_readWindow_owes hstored hrefusal h' window) fun _ _ _ h'' => ?_
  exact (triple_observe (hrefusal _) (h''.metric _)).bind fun _ _ _ h₃ => Triple.pure h₃

end

end Counter

end SlidingTally
