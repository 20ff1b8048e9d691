import SlidingTally.Proofs.Number.Digits
import SlidingTally.Proofs.Service.WriteProtocol

/-!
# What a window read comes to

`ReadPath` lists the ways to read the buckets of a window. In each of them the total is the exact
sum of the values that could be decoded, in any order, as long as their absolute values sum to less
than 2^53, and a query replies with it, an increment with it or with the count that it wrote. Main
statement: `window_reads`.
-/

namespace SlidingTally

open Binary64 (ofInt ofNat SumsBelow absUnits wholeSum)

-- ---------------------------------------------------------------------------
-- Decoded values
-- ---------------------------------------------------------------------------

def Value.decoded? (value : Value) : Option Binary64 :=
  match Codec.integer .null value with
  | .ok x => some x
  | .error _ => none

theorem Value.decoded?_eq_some_iff {value : Value} :
    value.decoded? = some x ↔ ∀ key, Codec.integer key value = .ok x := by
  unfold decoded?
  constructor
  · intro h
    split at h
    · rename_i y hy
      cases h
      exact Codec.integer_other hy
    · cases h
  · intro h
    rw [h .null]

theorem Value.count_eq (value : Value) : value.count = value.decoded?.getD 0 := by
  unfold count decoded?
  cases Codec.integer .null value <;> rfl

namespace Counter

def decodable (entries : List (Value × Value)) : List Binary64 :=
  entries.filterMap fun entry => entry.2.decoded?

theorem decodable_perm {entries entries' : List (Value × Value)} (h : entries.Perm entries') :
    (decodable entries).Perm (decodable entries') :=
  h.filterMap _

theorem isInteger_of_mem_decodable {entries : List (Value × Value)} (hmem : x ∈ decodable entries)
    (hfinite : x.isFinite = true) : x.isInteger = true := by
  obtain ⟨entry, -, hdecoded⟩ := List.mem_filterMap.mp hmem
  exact Codec.isInteger_of_integer (Value.decoded?_eq_some_iff.mp hdecoded .null) hfinite

theorem is_zero : (0 : Binary64).Is 0 := Binary64.is_ofNat (n := 0) (by decide)

theorem sums_decodable (entries : List (Value × Value)) :
    absUnits (entries.map fun entry => entry.2.count) = absUnits (decodable entries) ∧
      wholeSum (entries.map fun entry => entry.2.count) = wholeSum (decodable entries) := by
  induction entries with
  | nil => exact ⟨rfl, rfl⟩
  | cons entry rest ih =>
    obtain ⟨hunits, hwhole⟩ := ih
    rw [List.map_cons, Binary64.absUnits_cons, Binary64.wholeSum_cons, hunits, hwhole,
      Value.count_eq]
    cases hdecoded : entry.2.decoded? with
    | none =>
      have hskip : decodable (entry :: rest) = decodable rest := by simp [decodable, hdecoded]
      rw [hskip, Option.getD_none, is_zero.2, is_zero.toInt?]
      simp
    | some x =>
      have htake : decodable (entry :: rest) = x :: decodable rest := by simp [decodable, hdecoded]
      rw [htake, Option.getD_some, Binary64.absUnits_cons, Binary64.wholeSum_cons]
      exact ⟨rfl, rfl⟩

theorem sumOf_eq {entries : List (Value × Value)} (h : SumsBelow (decodable entries)) :
    sumOf 0 entries = ofInt (wholeSum (decodable entries)) := by
  -- The sum runs over all values, those that do not decode among them.
  have hinteger : ∀ x ∈ entries.map fun entry => entry.2.count, x.isInteger = true := by
    intro x hmem
    obtain ⟨entry, hentry, rfl⟩ := List.mem_map.mp hmem
    rw [Value.count_eq]
    cases hdecoded : entry.2.decoded? with
    | none => exact is_zero.isInteger
    | some x =>
      have hx : x ∈ decodable entries := List.mem_filterMap.mpr ⟨entry, hentry, hdecoded⟩
      exact isInteger_of_mem_decodable hx (h.1 x hx)
  obtain ⟨hunits, hwhole⟩ := sums_decodable entries
  have hsum := Binary64.foldl_ofInt (k := 0) hinteger (by simpa [hunits] using h.2)
  rwa [Int.zero_add, hwhole] at hsum

-- ---------------------------------------------------------------------------
-- Windows
-- ---------------------------------------------------------------------------

def Covers (now : Binary64) (name : String) (window : Nat) (buckets : List String) : Prop :=
  ∃ first last : Int, first ≤ last ∧
    (Bucket.range (seconds now) (ofNat window)).first.Is first ∧
    (Bucket.range (seconds now) (ofNat window)).last.Is last ∧
    buckets = (Bucket.between first last).map fun id => Bucket.key name (ofNat window) (ofInt id)

theorem Covers.ne_nil {now : Binary64} {name : String} {window : Nat} {buckets : List String}
    (h : Covers now name window buckets) : buckets ≠ [] := by
  obtain ⟨first, last, hle, -, -, rfl⟩ := h
  have hlength := Bucket.length_between hle
  exact List.ne_nil_of_length_pos (by rw [List.length_map]; omega)

theorem exists_covers {now : Binary64} {window : Nat} (hreach : Bucket.InReach now (ofNat window))
    (name : String) : ∃ buckets, Covers now name window buckets ∧ buckets.Nodup ∧
      ∀ {σ : Type} (store : CounterStore σ),
        windowKeys? { store := store, now := now } name (ofNat window) = some buckets := by
  obtain ⟨first, last, hle, hfirst, hlast, hbetween, hnodup⟩ := hreach.keys?_between name
  exact ⟨_, ⟨first, last, hle, hfirst, hlast, rfl⟩, hnodup, fun _ => hbetween⟩

/-- What the reads of some buckets come to. -/
structure WindowResult (buckets : List String) (reads : List Answer) (read : WindowRead) : Prop where
  path : ReadPath buckets reads read
  total : ∀ entries, entries.Perm (reads.flatMap readings) → SumsBelow (decodable entries) →
    read.total = ofInt (wholeSum (decodable entries))

theorem ReadPath.result {read : WindowRead} (h : ReadPath buckets reads read) :
    WindowResult buckets reads read := by
  refine ⟨h, fun entries hperm hbelow => ?_⟩
  have hdecodable := decodable_perm hperm
  rw [h.readsOn, Binary64.wholeSum_perm hdecodable]
  exact sumOf_eq (hbelow.perm hdecodable)

/-- What a query that is not turned away comes to. -/
structure QueryResult (buckets : List String) (o : Outcome Event Halt σ Value) : Prop where
  resolves : (∃ value, o.reply = .ok value) ↔ ¬EndsUnworded o.journal
  replies : ∀ value, o.reply = .ok value → ∃ initialized reads read,
    answers o.journal = (.isInitialized, .ok initialized) :: reads ∧
      WindowResult buckets reads read ∧ value = .number read.total ∧
      metrics o.journal = [.reads buckets.length, .query (if read.reached then .ok else .error)]

/-- What an increment that is not turned away comes to when it could write. -/
structure IncrementResult (bucket : String) (ttl : Binary64) (buckets : List String)
    (o : Outcome Event Halt σ Value) : Prop where
  resolves : (∃ value, o.reply = .ok value) ↔ ¬EndsUnworded o.journal
  replies : .metric (.increment .ok) ∈ o.journal → ∃ initialized path reads read count,
    answers o.journal = (.isInitialized, .ok initialized) :: (path ++ reads) ∧
      WritePath bucket ttl path count ∧ writtenCountOf? path = some count ∧
      WindowResult buckets reads read ∧
      o.reply = .ok (if read.reached then .number read.total else count) ∧
      metrics o.journal = [.reads buckets.length, .increment .ok]

section
variable {σ : Type} {w : Wiring σ} {name : String} {window : Binary64}
variable {o : Outcome Event Halt σ Value}
variable (hkeys : windowKeys? w name window = some buckets)

include hkeys

theorem QueryEnds.result (h : QueryEnds w name window value o.journal)
    (hfinished : Finished o.journal) (hreply : o.reply = .ok value) : QueryResult buckets o := by
  refine ⟨iff_of_true ⟨value, hreply⟩ hfinished.not_endsUnworded, fun other hother => ?_⟩
  cases hreply.symm.trans hother
  cases h with
  | read hanswers hkeys' hread hmetrics =>
    cases hkeys.symm.trans hkeys'
    exact ⟨_, _, _, hanswers, hread.result, rfl, hmetrics⟩

theorem QueryHalts.result (h : QueryHalts w name window halt o.journal)
    (hreply : o.reply = .error halt) : QueryResult buckets o := by
  cases h with
  | reading hkeys' hends =>
    refine ⟨iff_of_false ?_ (not_not.mpr hends), fun value hvalue => ?_⟩
    · rintro ⟨value, hvalue⟩
      cases hreply.symm.trans hvalue
    · cases hreply.symm.trans hvalue
  | endless hnone => cases hnone.symm.trans hkeys

variable {bucket : String} {ttl : Binary64}

theorem IncrementEnds.result (h : IncrementEnds w name window ttl value o.journal)
    (hfinished : Finished o.journal) (hreply : o.reply = .ok value) :
    IncrementResult (currentBucket w.now name window) ttl buckets o := by
  refine ⟨iff_of_true ⟨value, hreply⟩ hfinished.not_endsUnworded, fun hok => ?_⟩
  cases h with
  | unwritten hanswers hwrite hmetrics => simp [← mem_metrics, hmetrics] at hok
  | written hanswers hwrite hnull hkeys' hread hmetrics =>
    cases hkeys.symm.trans hkeys'
    exact ⟨_, _, _, _, _, hanswers, hwrite, hwrite.written_eq hnull, hread.result, hreply, hmetrics⟩

theorem IncrementHalts.result (h : IncrementHalts w name window ttl halt o.journal)
    (hunfinished : Unfinished o.journal) (hreply : o.reply = .error halt) :
    IncrementResult (currentBucket w.now name window) ttl buckets o := by
  have hof (hends : EndsUnworded o.journal) :
      IncrementResult (currentBucket w.now name window) ttl buckets o := by
    refine ⟨iff_of_false ?_ (not_not.mpr hends), fun hok => ?_⟩
    · rintro ⟨value, hvalue⟩
      cases hreply.symm.trans hvalue
    · exact absurd hok (not_mem_of_unfinished hunfinished _)
  cases h with
  | writing hanswers hwrite hends => exact hof hends
  | reading hanswers hwrite hnull hkeys' hreads hends => exact hof hends
  | endless hanswers hwrite hnull hnone => cases hnone.symm.trans hkeys

end

/-- Over any store that keeps to its types, a window read totals what it could read and decode, and
a query or an increment replies accordingly. -/
theorem window_reads {σ : Type} {store : CounterStore σ} {now : Binary64} {window : Nat} {s : σ}
    (hstored : RepliesStored store)
    (hinitialized : ∃ reply, (store now .isInitialized s).reply = .ok reply ∧ reply.truthy = true)
    (hreach : Bucket.InReach now (ofNat window)) (name : String) :
    ∃ buckets, Covers now name window buckets ∧ buckets.Nodup ∧
      QueryResult buckets (query { store := store, now := now } (.text name) (.number (ofNat window)) s) ∧
      ∀ maxTtl, IncrementResult (currentBucket now name (ofNat window))
        (Bucket.ttl (ofNat window) maxTtl) buckets
        (increment { store := store, now := now } (.text name) (.number (ofNat window)) maxTtl s) := by
  obtain ⟨buckets, hcovers, hnodup, hkeys⟩ := exists_covers hreach name
  have hadmits : Admits { store := store, now := now } (ofNat window) s :=
    ⟨hinitialized, validWindow?_of_inReach hreach⟩
  refine ⟨buckets, hcovers, hnodup, ?_, fun maxTtl => ?_⟩
  · rcases (triple_query_ends hadmits (fun _ => rfl) hstored name).outcome with
      ⟨value, hvalue, hfinished, hends⟩ | ⟨halt, hhalt, -, hhalts⟩
    · exact hends.result (hkeys store) hfinished hvalue
    · exact hhalts.result (hkeys store) hhalt
  · rcases (triple_increment_ends hadmits (fun _ => rfl) hstored name maxTtl).outcome with
      ⟨value, hvalue, hfinished, hends⟩ | ⟨halt, hhalt, hunfinished, hhalts⟩
    · exact hends.result (hkeys store) hfinished hvalue
    · exact hhalts.result (hkeys store) hunfinished hhalt

/-- Batched reads fail and one bucket can be read. -/
theorem window_reads_apart : ∃ buckets reads read, Covers 0 "a" 1 buckets ∧
    WindowResult buckets reads read ∧
    (query { store := degradedStore [("a:w1:b0", 2)], now := 0 } (.text "a") (.number 1) ()).reply =
      .ok (.number read.total) := by
  have hreach : Bucket.InReach 0 (ofNat 1) := by constructor <;> decide +kernel
  obtain ⟨buckets, hcovers, -, hquery, -⟩ := window_reads
    (repliesStored_degradedStore [("a:w1:b0", 2)]) (s := ()) ⟨.bool true, rfl, rfl⟩ hreach "a"
  have hreply : (query { store := degradedStore [("a:w1:b0", 2)], now := 0 } (.text "a")
      (.number (ofNat 1)) ()).reply.toBool = true := by decide +kernel
  cases hresult : (query { store := degradedStore [("a:w1:b0", 2)], now := 0 } (.text "a")
      (.number (ofNat 1)) ()).reply with
  | error halt =>
    rw [hresult] at hreply
    cases hreply
  | ok value =>
    obtain ⟨_, reads, read, -, hread, rfl, -⟩ := hquery.replies value hresult
    exact ⟨buckets, reads, read, hcovers, hread, rfl⟩

def unwordedQuery : Outcome Event Halt (List (Except Fault Value)) Value :=
  query { store := listedStore, now := 0 } (.text "a") (.number 1)
    [.ok (.bool true), .error (.thrown (.record [(Value.textField, .number 1)]))]

def isRetriable : Answer → Bool
  | (.getMulti _, .error fault) => fault.action = .retryOnce
  | _ => false

/-- It is worth another attempt, and yet no bucket is read on its own and nothing is replied. -/
theorem query_unworded :
    (∃ keys fault, (.getMulti keys, .error fault) ∈ answers unwordedQuery.journal ∧
      fault.action = .retryOnce) ∧
    (∀ answer ∈ answers unwordedQuery.journal, answer.1.name ≠ "get") ∧
    ¬∃ value, unwordedQuery.reply = .ok value := by
  have hretriable : (answers unwordedQuery.journal).any isRetriable = true := by decide +kernel
  have hgets : (answers unwordedQuery.journal).all (·.1.name ≠ "get") = true := by decide +kernel
  have hrejects : unwordedQuery.reply.toBool = false := by decide +kernel
  refine ⟨?_, fun answer hmem => ?_, ?_⟩
  · obtain ⟨answer, hmem, hfault⟩ := List.any_eq_true.mp hretriable
    unfold isRetriable at hfault
    split at hfault
    · exact ⟨_, _, hmem, of_decide_eq_true hfault⟩
    · cases hfault
  · exact of_decide_eq_true (List.all_eq_true.mp hgets answer hmem)
  · rintro ⟨value, hreply⟩
    rw [hreply] at hrejects
    cases hrejects

end Counter

end SlidingTally
