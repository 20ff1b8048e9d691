import SlidingTally.Proofs.Store.RedisServer
import SlidingTally.Proofs.Window.CountingStore

/-!
# Counts over an ideal Redis server

Over a client that answers as one ideal server does, the counter replies with the same totals as
over the in-memory store: the server keeps every count as a numeral, with an expiry that no window
which covers the bucket reaches. Main statement: `replies_eq_inMemory`.
-/

namespace SlidingTally

open SlidingTally.Action (Alike Evaluates)
open Binary64 (ofNat is_ofNat)
open Counter (Denotes)
open RedisStore (Client)
open Request (serveWhole)

theorem Lasts.ceil (h : Lasts T ttl deadline) :
    ∃ k : Int, (RedisStore.milliseconds ttl).Is k ∧ deadline ≤ T + k := by
  obtain ⟨least, most, hwithin, hpos, hmost, hdeadline⟩ := h.milliseconds
  obtain ⟨k, hleast, -, hceil⟩ := Binary64.ceil_within hwithin (by omega) (by omega)
  obtain ⟨hfinite, hunits⟩ := Binary64.units_max Binary64.one_is.1 hceil.1
  refine ⟨k, ⟨hfinite, ?_⟩, by omega⟩
  rw [RedisStore.milliseconds, hunits, Binary64.one_is.2, hceil.2]
  refine Int.max_eq_right (Int.mul_le_mul_of_nonneg_right (by omega) ?_)
  exact Int.le_of_lt Binary64.unitsPerOne_cast_pos

namespace RedisServer

-- ---------------------------------------------------------------------------
-- Buckets on the server
-- ---------------------------------------------------------------------------

def Keeps (entries : Entries) (key : String) (n : Nat) (deadline : Int) : Prop :=
  n = 0 ∧ entries key = none ∨ 0 < n ∧ n < 2 ^ 63 ∧
    ∃ instant, entries key = some ⟨Numeral.ofNat n, some instant⟩ ∧ deadline ≤ instant

section
variable {κ : Type} {client : Client κ} {entries : κ → Entries} {s : RedisStore.State κ}
  {key scope : String} {n T : Nat} {deadline : Int} {ttl : Binary64}

theorem evaluates_incrementBucket (h : Answers client entries) (hinit : s.initialized = true)
    (hkeeps : Keeps (entries s.client) (scope ++ key) n deadline) (hT : T < deadline)
    (hn : n < 2 ^ 63 - 1) (hlasts : Lasts T ttl deadline) :
    ∃ instant s', deadline ≤ instant ∧ Evaluates
      (Counter.incrementBucket { store := RedisStore.store client ⟨.text scope⟩, now := ofNat T }
        key ttl) s (.number (ofNat (n + 1))) s' ∧ s'.initialized = true ∧
      entries s'.client =
        put (entries s.client) (scope ++ key) ⟨Numeral.ofNat (n + 1), some instant⟩ := by
  have hclock := clockAt_ofNat hlasts.early
  rcases hkeeps with ⟨rfl, hnone⟩ | ⟨hpos, -, instant, hsome, hlate⟩
  · obtain ⟨k, hk, hlate⟩ := hlasts.ceil
    have hcreate : increment (entries s.client) (clockAt (ofNat T)) (scope ++ key) =
        (.ok (.number 1), put (entries s.client) (scope ++ key) ⟨numeral 1, none⟩) := by
      unfold increment
      rw [find?_of_none hnone]
    obtain ⟨s', hrun, hinit', hheld⟩ := evaluates_increment h scope hinit hcreate
    have hexpire : pexpire (entries s'.client) (clockAt (ofNat T)) (scope ++ key)
        (RedisStore.milliseconds ttl) = (.ok (.number 1),
          put (entries s.client) (scope ++ key) ⟨numeral 1, some (T + k)⟩) := by
      rw [hheld]
      simp [pexpire, instantAfter, hk.toInt?, hclock, find?, put, Entry.isPresent, Option.filter]
    obtain ⟨s'', htouch, hinit'', hheld'⟩ := evaluates_touch h scope hinit' hexpire
    exact ⟨T + k, s'', hlate, Counter.evaluates_incrementBucket_created hrun
      (Counter.evaluates_assignTtl_touched htouch), hinit'', hheld'⟩
  · have hadd : increment (entries s.client) (clockAt (ofNat T)) (scope ++ key) =
        (.ok (.number (ofNat (n + 1))),
          put (entries s.client) (scope ++ key) ⟨Numeral.ofNat (n + 1), some instant⟩) := by
      have hroom : (n : Int) + 1 < wordLimit := by
        unfold wordLimit
        omega
      have hnext : numeral ((n : Int) + 1) = Numeral.ofNat (n + 1) := numeral_natCast (n + 1)
      unfold increment
      rw [hclock, find?_of_lt hsome (by omega)]
      simp only [integer?_ofNat (show n < 2 ^ 63 by omega), if_pos hroom, hnext]
      rfl
    obtain ⟨s', hrun, hinit', hheld⟩ := evaluates_increment h scope hinit hadd
    exact ⟨instant, s', hlate, Counter.evaluates_incrementBucket_counted ttl hrun
      (isNumber_ofNat (k := 1) (by decide) (by omega)), hinit', hheld⟩

theorem text?_of_keeps {held : Entries} (h : Keeps held key n deadline) (hT : T < deadline) :
    text? held T key = if 0 < n then some (.text (Numeral.ofNat n)) else none := by
  rcases h with ⟨rfl, hnone⟩ | ⟨hpos, -, instant, hsome, hlate⟩
  · rw [text?, find?_of_none hnone]
    rfl
  · rw [text?, find?_of_lt hsome (by omega), if_pos hpos]
    rfl

theorem found_counts {held : Entries} {counts : List (String × Nat)}
    (h : ∀ count ∈ counts, ∃ deadline : Int, T < deadline ∧
      Keeps held (scope ++ count.1) count.2 deadline) :
    found held T scope (counts.map Prod.fst) =
      (counts.filter (0 < ·.2)).map fun count => (count.1, .text (Numeral.ofNat count.2)) := by
  refine foundBy_counts (fun n => .text (Numeral.ofNat n)) fun count hmem => ?_
  obtain ⟨deadline, hlt, hkept⟩ := h count hmem
  exact text?_of_keeps hkept hlt

theorem denotes_found (counts : List (String × Nat)) : List.Forall₂ Denotes
    (((counts.filter (0 < ·.2)).map fun count => (count.1, .text (Numeral.ofNat count.2))).map
      fun entry : String × Value => (.text entry.1, entry.2))
    ((counts.map Prod.snd).filter (0 < ·)) :=
  denotes_counts (fun n => .text (Numeral.ofNat n)) fun count _ =>
    Numeral.integer_numeral _ count.2

theorem keeps_put {held : Entries} {entry : Entry} (h : Keeps held other n deadline)
    (hne : other ≠ key) : Keeps (put held key entry) other n deadline := by
  unfold Keeps put
  rw [Function.update_of_ne hne]
  exact h

theorem keeps_put_self (held : Entries) (key : String) (hpos : 0 < n) (hn : n < 2 ^ 63)
    (hlate : deadline ≤ instant) :
    Keeps (put held key ⟨Numeral.ofNat n, some instant⟩) key n deadline :=
  .inr ⟨hpos, hn, instant, Function.update_self .., hlate⟩

end

-- ---------------------------------------------------------------------------
-- The store over a server counts
-- ---------------------------------------------------------------------------

/-- The store over a client that answers as a server does, whatever is written in front of the
keys and whether the client is one of a cluster. -/
def counting {client : Client κ} {entries : κ → Entries} (h : Answers client entries)
    (scope : String) : CountingStore (RedisStore.State κ) where
  store := RedisStore.store client ⟨.text scope⟩
  limit := 2 ^ 63 - 1
  Ready s := s.initialized = true
  Keeps _ key n deadline s := Keeps (entries s.client) (scope ++ key) n deadline
  isInitialized hinit T := evaluates_isInitialized client _ (ofNat T) hinit
  later hkeeps _ := hkeeps
  write hinit hkeeps hT hn hlasts := by
    obtain ⟨instant, s', hlate, hrun, hinit', hheld⟩ :=
      evaluates_incrementBucket h hinit hkeeps hT hn hlasts
    refine ⟨_, s', hrun, hinit', ?_, fun other n' deadline' hne hother => ?_⟩
    · rw [hheld]
      exact keeps_put_self _ _ (Nat.succ_pos _) (by omega) hlate
    · rw [hheld]
      exact keeps_put hother fun heq => hne ((String.append_right_inj scope).mp heq)
  read {s T counts} hinit hT hnodup hkeeps := by
    obtain ⟨s', hrun, hinit', hheld⟩ := evaluates_getMulti h scope (ofNat T) hinit hnodup
    rw [clockAt_ofNat hT, found_counts hkeeps] at hrun
    refine ⟨_, _, s', hrun, denotes_found counts, .refl _, hinit', ?_⟩
    intro key n deadline hkept
    rwa [hheld]

-- ---------------------------------------------------------------------------
-- The same as the in-memory store
-- ---------------------------------------------------------------------------

theorem holds_start {client : Client κ} {entries : κ → Entries} (h : Answers client entries)
    (scope : String) (started : Binary64) {held : κ}
    (hfresh : ∀ key, entries held (scope ++ key) = none) :
    (counting h scope).Holds [] 0
      (RedisStore.start client ⟨.text scope⟩ started { client := held }).state := by
  obtain ⟨hinit, hheld⟩ := start_state h ⟨.text scope⟩ started { client := held }
  exact ⟨hinit, fun name window bucket => .inl ⟨rfl, by rw [hheld]; exact hfresh _⟩⟩

/-- Over a client that answers as a server does in which no key of the scope is present yet, calls
with fewer than 2^53 increments get the same totals as over a fresh in-memory store. -/
theorem replies_eq_inMemory {client : Client κ} {entries : κ → Entries} (h : Answers client entries)
    (scope : String) (started : Binary64) {held : κ}
    (hfresh : ∀ key, entries held (scope ++ key) = none) {calls : List (Nat × Request Nat)}
    (hp : Paced calls) (hfew : (calls.countP fun call => call.2.isIncrement) < 2 ^ 53) :
    ∃ totals : List Nat,
      Action.replies (serveWhole (RedisStore.store client ⟨.text scope⟩))
          (RedisStore.start client ⟨.text scope⟩ started { client := held }).state calls =
        totals.map (fun total => .ok (.number (ofNat total))) ∧
      Action.replies (serveWhole (MemoryStore.store {})) (MemoryStore.start {} {}).state calls =
        totals.map fun total => .ok (.number (ofNat total)) := by
  rw [replies_inMemory {} hp.sorted hp.early]
  apply Action.exists_replies
  rintro before ⟨T, request⟩ rest rfl
  rw [List.append_cons] at hp hfew
  have hbefore : ((before ++ [(T, request)]).countP fun call => call.2.isIncrement) < 2 ^ 53 := by
    rw [List.countP_append] at hfew
    omega
  obtain ⟨name, window, hcounter, -⟩ := hp.init.windows (T, request) (by simp)
  have hlimit : 2 ^ 53 ≤ (counting h scope).limit := by
    show 2 ^ 53 ≤ 2 ^ 63 - 1
    decide
  refine ⟨occurrences (before ++ [(T, request)]) name window T, ?_, ?_⟩
  · exact (counting h scope).reply_eq (holds_start h scope started hfresh) hp.init hcounter
      (Nat.le_trans (Nat.le_of_lt hbefore) hlimit) (Nat.le_of_lt hbefore)
  · exact reply_expiringMap {} (hp.init.regular hbefore) hcounter

/-- A cluster, three calls and a window that has left two of them behind. -/
theorem replies_eq_inMemory_cluster :
    ∃ totals : List Nat,
      Action.replies (serveWhole (RedisStore.store (client true) ⟨.text "velocity:"⟩))
          (RedisStore.start (client true) ⟨.text "velocity:"⟩ 0 { client := fun _ => none }).state
          [(0, .increment "a" 1 .undefined), (500, .increment "a" 1 (.number .nan)),
            (2999, .query "a" 1)] =
        totals.map (fun total => .ok (.number (ofNat total))) ∧
      Action.replies (serveWhole (MemoryStore.store {})) (MemoryStore.start {} {}).state
          [(0, .increment "a" 1 .undefined), (500, .increment "a" 1 (.number .nan)),
            (2999, .query "a" 1)] =
        totals.map fun total => .ok (.number (ofNat total)) := by
  refine replies_eq_inMemory (answers_client true) "velocity:" 0 (fun _ => rfl) ?_ (by decide)
  exact ⟨by decide, by decide, by simp [Request.counter?]⟩

-- ---------------------------------------------------------------------------
-- Beyond 2^53
-- ---------------------------------------------------------------------------

theorem coveredCounts_burst {n : Nat} (hpos : 0 < n) :
    coveredCounts (burst 1 n) "a" 1 0 = [n] := by
  have hcovered : Bucket.covered 1 0 = [-1, 0] := by decide
  simp [coveredCounts, keyCounts, hcovered, tally_burst, hpos]

def saturated (instant : Binary64) (n : Nat) : ExpiringMap.State :=
  if n = 0 then { initialized := true }
  else { initialized := true : ExpiringMap.State }.put (.text (Bucket.wholeKey "a" 1 0))
    ⟨.number (ofNat (min n (2 ^ 53))), some instant⟩

section
variable {instant : Binary64} (houtlasts : Bucket.Outlasts 1 0 instant)

include houtlasts

theorem holds_saturated (n : Nat) (bucket : Int) :
    Holds 1 bucket (if bucket = 0 then min n (2 ^ 53) else 0)
      ((saturated instant n).held (.text (Bucket.wholeKey "a" 1 bucket))) := by
  unfold saturated
  by_cases hn : n = 0
  · rw [if_pos hn]
    exact .inl ⟨by split <;> omega, rfl⟩
  · rw [if_neg hn]
    by_cases hbucket : bucket = 0
    · subst hbucket
      rw [if_pos rfl]
      exact .inr ⟨by omega, instant, by simp [ExpiringMap.State.put], houtlasts⟩
    · have hkey : Bucket.wholeKey "a" 1 bucket ≠ Bucket.wholeKey "a" 1 0 := fun heq =>
        hbucket (Bucket.wholeKey_inj heq).2.2
      rw [if_neg hbucket]
      exact .inl ⟨rfl, by simp [ExpiringMap.State.put, hkey]⟩

variable (hexpiry : ExpiringMap.expiry (ofNat 0) (Bucket.ttl (ofNat 1) .undefined) = some instant)

include hexpiry

theorem evaluates_write_saturated (n : Nat) :
    Evaluates (Counter.incrementBucket { store := ExpiringMap.store {}, now := ofNat 0 }
        (Bucket.wholeKey "a" 1 0) (Bucket.ttl (ofNat 1) .undefined)) (saturated instant n)
      (.number (ofNat (min (n + 1) (2 ^ 53)))) (saturated instant (n + 1)) := by
  rw [saturated.eq_def instant (n + 1), if_neg (Nat.succ_ne_zero n)]
  by_cases hn : n = 0
  · subst hn
    rw [Nat.min_eq_left (by omega), ← hexpiry]
    exact Counter.evaluates_incrementBucket_absent {} _ rfl rfl
  · have hheld : saturated instant n =
        { initialized := true : ExpiringMap.State }.put (.text (Bucket.wholeKey "a" 1 0))
          ⟨.number (ofNat (min n (2 ^ 53))), some instant⟩ := if_neg hn
    have hfind : (saturated instant n).find? (ofNat 0) (.text (Bucket.wholeKey "a" 1 0)) =
        some ⟨.number (ofNat (min n (2 ^ 53))), some instant⟩ := by
      refine find?_of_outlasts (T := 0) ?_ houtlasts (by decide) (by decide)
      rw [hheld]
      simp [ExpiringMap.State.put]
    have hinit : (saturated instant n).initialized = true := by rw [hheld]; rfl
    have hrun := Counter.evaluates_incrementBucket_again {} (Bucket.ttl (ofNat 1) .undefined) hinit
      (Nat.pos_of_ne_zero hn) hfind
    rw [hheld, ExpiringMap.put_put] at hrun
    rw [hheld]
    exact hrun

theorem evaluates_saturated (n : Nat) :
    Evaluates (serveWhole (ExpiringMap.store {}) (0, .increment "a" 1 .undefined))
      (saturated instant n) (.number (ofNat (min (n + 1) (2 ^ 53)))) (saturated instant (n + 1)) := by
  have hinit (n : Nat) : (saturated instant n).initialized = true := by
    unfold saturated
    split <;> rfl
  have hsum : ((Bucket.covered 1 0).map fun bucket : Int =>
      if bucket = 0 then min (n + 1) (2 ^ 53) else 0).sum = min (n + 1) (2 ^ 53) := by
    rw [show Bucket.covered 1 0 = [-1, 0] by decide]
    simp
  have hread : Evaluates (Counter.readWindow { store := ExpiringMap.store {}, now := ofNat 0 }
      (.text "a") (ofNat 1)) (saturated instant (n + 1)) ⟨ofNat (min (n + 1) (2 ^ 53)), true⟩
      (saturated instant (n + 1)) := by
    rw [← hsum]
    refine Counter.evaluates_readWindow (hinit (n + 1)) (by decide) (by decide) "a" ?_ ?_
    · rw [hsum]
      exact Nat.min_le_right _ _
    · intro bucket hmem
      exact (holds_saturated houtlasts (n + 1) bucket).counts (by decide)
        (Bucket.mem_between.mp hmem).1
  have hwrite := evaluates_write_saturated houtlasts hexpiry n
  have hbucket : Counter.currentBucket (ofNat 0) "a" (ofNat 1) = Bucket.wholeKey "a" 1 0 :=
    currentBucket_ofNat (by decide) (by decide) "a"
  rw [← hbucket] at hwrite
  exact Counter.evaluates_increment (w := { store := ExpiringMap.store {}, now := ofNat 0 })
    (ExpiringMap.evaluates_isInitialized {} (ofNat 0) (hinit n))
    (validWindow?_ofNat (by decide) (by decide)) (Value.asText_text "a") hwrite hread rfl

theorem stateAfter_burst (n : Nat) :
    Action.stateAfter (serveWhole (ExpiringMap.store {})) { initialized := true } (burst 1 n) =
      saturated instant n := by
  induction n with
  | zero => rfl
  | succ n ih =>
    rw [burst_succ, Action.stateAfter_append, ih, (evaluates_saturated houtlasts hexpiry n).state]

end

theorem replies_burst_ne {n : Nat} (hn : n < 2 ^ 63 - 1)
    (hne : Counter.totalOf [n + 1] ≠ ofNat (min (n + 1) (2 ^ 53))) :
    Action.replies (serveWhole (RedisStore.store (client false) ⟨.text "velocity:"⟩))
        (RedisStore.start (client false) ⟨.text "velocity:"⟩ 0 { client := fun _ => none }).state
        (burst 1 (n + 1)) ≠
      Action.replies (serveWhole (MemoryStore.store {})) (MemoryStore.start {} {}).state
        (burst 1 (n + 1)) := by
  have hserver := answers_client false
  have hpaced : Paced (burst 1 (n + 1)) := paced_burst (by decide) (by decide) _
  have hcounts := coveredCounts_burst (Nat.succ_pos n)
  have hfew := countP_burst 1 (n + 1)
  rw [replies_inMemory {} hpaced.sorted hpaced.early]
  rw [burst_succ] at hpaced hcounts hfew ⊢
  have hstart : (counting hserver "velocity:").Holds [] 0
      (RedisStore.start (client false) ⟨.text "velocity:"⟩ 0 { client := fun _ => none }).state :=
    holds_start hserver "velocity:" 0 fun _ => rfl
  obtain ⟨ns, hperm, hreply⟩ := CountingStore.reply_of_counts hstart hpaced rfl (hfew ▸ hn)
  rw [hcounts, List.perm_singleton] at hperm
  have hexpires : ∃ instant,
      MemoryStore.expiry (ofNat 0) (Bucket.ttl (ofNat 1) .undefined) = some instant ∧
        Bucket.Outlasts 1 (Bucket.wholeId 1 (0 : Nat)) instant :=
    Bucket.expiry_outlasts (by decide) (by decide) (by decide) .undefined
  obtain ⟨instant, hexpiry, houtlasts⟩ := hexpires
  have hmemory := (evaluates_saturated houtlasts hexpiry n).reply
  rw [← stateAfter_burst houtlasts hexpiry] at hmemory
  intro heq
  rw [Action.replies_append, Action.replies_append] at heq
  have hlast := List.head_eq_of_cons_eq (List.append_inj_right' heq rfl)
  rw [hmemory] at hlast
  rw [hperm] at hreply
  exact hne (Value.number.inj (Except.ok.inj (hreply.symm.trans hlast)))

/-- Past 2^53 increments of one bucket the numerals of a server count on and doubles do not. -/
theorem replies_ne_inMemory :
    Paced (burst 1 (2 ^ 53 + 2)) ∧
      Action.replies (serveWhole (RedisStore.store (client false) ⟨.text "velocity:"⟩))
          (RedisStore.start (client false) ⟨.text "velocity:"⟩ 0 { client := fun _ => none }).state
          (burst 1 (2 ^ 53 + 2)) ≠
        Action.replies (serveWhole (MemoryStore.store {})) (MemoryStore.start {} {}).state
          (burst 1 (2 ^ 53 + 2)) :=
  ⟨paced_burst (by decide) (by decide) _,
    replies_burst_ne (n := 2 ^ 53 + 1) (by decide) (by decide +kernel)⟩

end RedisServer

end SlidingTally
