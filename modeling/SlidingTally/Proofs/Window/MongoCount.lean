import SlidingTally.Proofs.Store.DocumentDatabase
import SlidingTally.Proofs.Window.CountingStore

/-!
# Counts over a document database

Over a model that acts on a database, the counter replies with the number of increments whose
bucket is in the range of the window, whichever documents the database removes from their expiry
on. Writes do not look at the expiry and reads do; both agree since no bucket is written or read
from its own deadline on, which its expiry does not come before. Main statement:
`reply_eq_countInRange`.
-/

namespace SlidingTally

open SlidingTally.Action (Evaluates)
open Binary64 (ofNat is_ofNat unitsPerOne_cast_pos)
open Bucket (wholeId wholeKey covered)
open Counter (Denotes totalOf)
open MongoStore (Client Settings)
open Request (serveWhole)

-- ---------------------------------------------------------------------------
-- Instants
-- ---------------------------------------------------------------------------

theorem Instant.ofNumber_within {x : Binary64} {a b : Int}
    (h : x.Within (a * unitsPerOne) (b * unitsPerOne)) (ha : 0 ≤ a) (hb : b ≤ limit) :
    ∃ k, ofNumber x = .at k ∧ a ≤ k ∧ k ≤ b := by
  have hlimit : limit = 8640000000000000 := rfl
  obtain ⟨k, hge, hle, htrunc⟩ := Binary64.trunc_within h ha (by omega)
  refine ⟨k, ?_, hge, hle⟩
  have hrange : -limit ≤ k ∧ k ≤ limit := ⟨by omega, by omega⟩
  simp only [ofNumber, htrunc.toInt?, if_pos hrange]

theorem Instant.ofNumber_ofNat {T : Nat} (hT : T ≤ 10 ^ 14) : ofNumber (ofNat T) = .at T := by
  have hlimit : limit = 8640000000000000 := rfl
  exact ofNumber_is (is_ofNat (by omega)) (by omega)

theorem Lasts.instant (h : Lasts T ttl deadline) :
    ∃ k, MongoStore.expiry (ofNat T) ttl = some (.at k) ∧ deadline ≤ k := by
  have hT := h.early
  have hlimit : Instant.limit = 8640000000000000 := rfl
  have hreading : (ofNat T).Is T := is_ofNat (by omega)
  obtain ⟨least, most, hwithin, -, hmost, hdeadline⟩ := h.milliseconds
  have hsum : (ofNat T + ttl * 1000).Within (((T + least : Nat) : Int) * unitsPerOne)
      (((T + most : Nat) : Int) * unitsPerOne) := by
    have hrise : least ≤ most := by
      have hle := Int.le_trans hwithin.ge hwithin.le
      have := Int.le_of_mul_le_mul_right hle unitsPerOne_cast_pos
      omega
    apply Binary64.add_within hreading.within hwithin
    · exact Binary64.representable_whole (by omega)
    · exact Binary64.representable_whole (by omega)
    · exact Int.le_of_eq (by push_cast; ring)
    · exact Int.le_of_eq (by push_cast; ring)
  obtain ⟨k, hinstant, hge, -⟩ := Instant.ofNumber_within hsum (by omega) (by omega)
  exact ⟨k, by rw [MongoStore.expiry, if_pos h.positive, hinstant], by omega⟩

-- ---------------------------------------------------------------------------
-- The range of a window
-- ---------------------------------------------------------------------------

def BucketRange.contains (range : BucketRange) (id : Binary64) : Bool :=
  range.first.le id && id.le range.last

/-- The increments among some calls whose bucket is in the range of the window at a reading. -/
def countInRange (calls : List (Nat × Request Nat)) (name : String) (window T : Nat) : Nat :=
  calls.countP fun call => call.2.increments name window &&
    (Bucket.range (Counter.seconds (ofNat T)) (ofNat window)).contains
      (Bucket.id (Counter.seconds (ofNat call.1)) (Bucket.width (ofNat window)))

theorem countInRange_eq {calls : List (Nat × Request Nat)} {window T : Nat}
    (hearly : ∀ call ∈ calls, call.1 ≤ 10 ^ 14) (hT : T ≤ 10 ^ 14) (hw : window ≤ 10 ^ 9)
    (name : String) : countInRange calls name window T = occurrences calls name window T := by
  refine List.countP_congr fun call hmem => ?_
  have hid := Bucket.id_is (hearly call hmem) hw
  have hcontains : (Bucket.range (Counter.seconds (ofNat T)) (ofNat window)).contains
      (Bucket.id (Counter.seconds (ofNat call.1)) (Bucket.width (ofNat window))) = true ↔
        wholeId window (T - 1000 * window) ≤ wholeId window call.1 ∧
          wholeId window call.1 ≤ wholeId window T := by
    unfold BucketRange.contains
    rw [Bool.and_eq_true]
    exact and_congr ((Bucket.id_sub_is hT hw).le_iff hid) (hid.le_iff (Bucket.id_is hT hw))
  rw [Bool.and_eq_true, Bool.and_eq_true, hcontains, Bool.and_eq_true, decide_eq_true_eq,
    decide_eq_true_eq]

namespace DocumentDatabase

-- ---------------------------------------------------------------------------
-- Buckets in the database
-- ---------------------------------------------------------------------------

/-- At a reading, a key with a count: none, or the count with an expiry that is late enough.
From the deadline on there is nothing to say. -/
def Keeps (documents : Documents) (T : Nat) (key : String) (n : Nat) (deadline : Int) : Prop :=
  deadline ≤ T ∨ n = 0 ∧ documents key = none ∨ 0 < n ∧ n ≤ 2 ^ 53 ∧
    ∃ instant, documents key = some ⟨.number (ofNat n), some (.at instant)⟩ ∧ deadline ≤ instant

section
variable {held left : Documents} {key other : String} {n T : Nat} {deadline : Int}

theorem isExpired_eq_false (hT : T ≤ 10 ^ 14) (value : Value) {instant : Int}
    (hlt : T < instant) : Document.isExpired ⟨value, some (.at instant)⟩ (ofNat T) = false := by
  have hbefore : (Instant.at T).before (.at instant) = true := decide_eq_true hlt
  rw [Document.isExpired, Option.any_some, Instant.ofNumber_ofNat hT, hbefore, Bool.not_true]

theorem keeps_purged (hT : T ≤ 10 ^ 14) (hpurged : Purged (ofNat T) held left)
    (h : Keeps held T key n deadline) : Keeps left T key n deadline := by
  by_cases hpast : deadline ≤ T
  · exact .inl hpast
  rcases h with hpast' | ⟨hzero, hnone⟩ | ⟨hpos, hn, instant, hsome, hlate⟩
  · exact absurd hpast' hpast
  · exact .inr (.inl ⟨hzero, hpurged.of_none hnone⟩)
  · -- Before the deadline it is not past the expiry, so the document may not go.
    have hleft := hpurged.of_some hsome (isExpired_eq_false hT _ (by omega))
    exact .inr (.inr ⟨hpos, hn, instant, hleft, hlate⟩)

theorem keeps_later {t : Nat} (h : Keeps held t key n deadline) (hle : t ≤ T) :
    Keeps held T key n deadline := by
  rcases h with hpast | hheld
  · exact .inl (by omega)
  · exact .inr hheld

theorem keeps_put {document : Document} (h : Keeps held T other n deadline) (hne : other ≠ key) :
    Keeps (put held key document) T other n deadline := by
  unfold Keeps put
  rw [Function.update_of_ne hne]
  exact h

theorem keeps_put_self (held : Documents) (T : Nat) (key : String) (hpos : 0 < n)
    (hn : n ≤ 2 ^ 53) (hlate : deadline ≤ instant) :
    Keeps (put held key ⟨.number (ofNat n), some (.at instant)⟩) T key n deadline :=
  .inr (.inr ⟨hpos, hn, instant, Function.update_self .., hlate⟩)

theorem value?_of_keeps (hT : T ≤ 10 ^ 14) (h : Keeps left T key n deadline) (hlt : T < deadline) :
    value? left (ofNat T) key = if 0 < n then some (.number (ofNat n)) else none := by
  rcases h with hpast | ⟨rfl, hnone⟩ | ⟨hpos, -, instant, hsome, hlate⟩
  · omega
  · rw [value?, hnone]
    rfl
  · have hlive : (Instant.at T).before (.at instant) = true := decide_eq_true (by omega)
    simp [value?, hsome, hpos, admits, Instant.ofNumber_ofNat hT, hlive, Option.filter]

section
variable {counts : List (String × Nat)}
  (h : ∀ count ∈ counts, ∃ deadline : Int, T < deadline ∧ Keeps left T count.1 count.2 deadline)

include h

theorem found_counts (hT : T ≤ 10 ^ 14) : found left (ofNat T) (counts.map Prod.fst) =
    (counts.filter (0 < ·.2)).map fun count => (count.1, .number (ofNat count.2)) := by
  refine foundBy_counts (fun n => .number (ofNat n)) fun count hmem => ?_
  obtain ⟨deadline, hlt, hkept⟩ := h count hmem
  exact value?_of_keeps hT hkept hlt

theorem denotes_found : List.Forall₂ Denotes
    (((counts.filter (0 < ·.2)).map fun count => (count.1, .number (ofNat count.2))).map
      fun entry : String × Value => (.text entry.1, entry.2))
    ((counts.map Prod.snd).filter (0 < ·)) := by
  refine denotes_counts (fun n => .number (ofNat n)) fun count hmem => ?_
  obtain ⟨deadline, hlt, hpast | ⟨hzero, -⟩ | ⟨-, hbound, -⟩⟩ := h count hmem
  · omega
  · exact Counter.denotes_number (by omega) _
  · exact Counter.denotes_number hbound _

end

end

section
variable {κ : Type} {client : Client κ} {documents : κ → Documents} {s : MongoStore.State κ}
  {held : Documents} {key : String} {n T : Nat} {deadline : Int} {ttl : Binary64}

theorem evaluates_incrementBucket (h : Acts client documents) (settings : Settings)
    (hhas : Has documents s held) (hkeeps : Keeps held T key n deadline) (hT : T < deadline)
    (hn : n < 2 ^ 53) (hlasts : Lasts T ttl deadline) :
    ∃ written s' held', Evaluates
      (Counter.incrementBucket { store := MongoStore.store client settings, now := ofNat T } key
        ttl) s (.number written) s' ∧ Has documents s' held' ∧
      Keeps held' T key (n + 1) deadline ∧
      ∀ other n' deadline', other ≠ key → Keeps held T other n' deadline' →
        Keeps held' T other n' deadline' := by
  have hearly := hlasts.early
  rcases hkeeps with hpast | ⟨rfl, hnone⟩ | ⟨hpos, -, instant, hsome, hlate⟩
  · omega
  · obtain ⟨k, hexpiry, hlate⟩ := hlasts.instant
    -- Two commands, and documents may go before either.
    obtain ⟨left, s', hpurged, hrun, hhas'⟩ :=
      evaluates_increment_none h settings (ofNat T) hhas hnone
    obtain ⟨left', s'', hpurged', hadd, hhas''⟩ := evaluates_addIfAbsent h settings
      (ofNat T) hhas' (hpurged.of_none hnone) (.number 1) ttl
    rw [hexpiry] at hhas''
    refine ⟨_, s'', _, Counter.evaluates_incrementBucket_added hrun hadd, hhas'',
      keeps_put_self _ _ _ (Nat.succ_pos 0) hn hlate, fun other n' deadline' hne hother => ?_⟩
    exact keeps_put (keeps_purged hearly hpurged' (keeps_purged hearly hpurged hother)) hne
  · obtain ⟨left, s', hpurged, hrun, hhas'⟩ := evaluates_increment_some h settings hhas hsome
      (isExpired_eq_false hearly _ (by omega))
    have hnext : ofNat n + 1 = ofNat (n + 1) := Binary64.ofNat_add hn
    rw [hnext] at hrun hhas'
    refine ⟨_, s', _, Counter.evaluates_incrementBucket_counted ttl hrun
      (isNumber_ofNat (k := 1) (by decide) (by omega)), hhas',
      keeps_put_self _ _ _ (Nat.succ_pos n) hn hlate, fun other n' deadline' hne hother => ?_⟩
    exact keeps_put (keeps_purged hearly hpurged hother) hne

end

-- ---------------------------------------------------------------------------
-- The store over a database counts
-- ---------------------------------------------------------------------------

def counting {client : Client κ} {documents : κ → Documents} (h : Acts client documents)
    (settings : Settings) : CountingStore (MongoStore.State κ) where
  store := MongoStore.store client settings
  limit := 2 ^ 53
  Ready s := s.initialized = true ∧ s.hasModel = true
  Keeps T key n deadline s := Keeps (documents s.client) T key n deadline
  isInitialized hready T := evaluates_isInitialized client settings (ofNat T) hready.1
  later hkeeps hle := keeps_later hkeeps hle
  write {s T key n deadline ttl} hready hkeeps hT hn hlasts := by
    obtain ⟨written, s', held', hrun, hhas, hwritten, hothers⟩ :=
      evaluates_incrementBucket h settings ⟨hready.1, hready.2, rfl⟩ hkeeps hT hn hlasts
    refine ⟨written, s', hrun, ⟨hhas.initialized, hhas.hasModel⟩, ?_, ?_⟩
    · rw [hhas.documents]
      exact hwritten
    · rw [hhas.documents]
      exact hothers
  read {s T counts} hready hT hnodup hkeeps := by
    obtain ⟨left, shown, s', hpurged, hperm, hrun, hhas⟩ :=
      evaluates_getMulti h settings ⟨hready.1, hready.2, rfl⟩ hnodup fun left hpurged =>
        found_counts (fun count hmem => by
          obtain ⟨deadline, hlt, hkept⟩ := hkeeps count hmem
          exact ⟨deadline, hlt, keeps_purged hT hpurged hkept⟩) hT
    obtain ⟨ns, hdenotes, hns⟩ := List.perm_comp_forall₂ (hperm.map _) (denotes_found hkeeps)
    refine ⟨_, ns, s', hrun, hdenotes, hns, ⟨hhas.initialized, hhas.hasModel⟩, ?_⟩
    intro key n deadline hkept
    rw [hhas.documents]
    exact keeps_purged hT hpurged hkept

theorem holds_start {client : Client κ} {documents : κ → Documents} (h : Acts client documents)
    (settings : Settings) (started : Binary64) {held : κ}
    (hfresh : ∀ id, documents held id = none) :
    (counting h settings).Holds [] 0
      (MongoStore.start client started { hasModel := true, client := held }).state := by
  obtain ⟨hinit, hmodel, hheld⟩ := start_state (s := { hasModel := true, client := held }) h started
    rfl hfresh
  refine ⟨⟨hinit, hmodel⟩, fun name window bucket => .inr (.inl ⟨rfl, ?_⟩)⟩
  rw [hheld]

-- ---------------------------------------------------------------------------
-- Whole runs
-- ---------------------------------------------------------------------------

/-- Over a model that acts on a database with no documents yet, whichever it removes from their
expiry on, a call gets the number of increments so far, itself included, whose bucket is in the
range of its window, as long as that is not more than doubles count. -/
theorem reply_eq_countInRange {client : Client κ} {documents : κ → Documents}
    (h : Acts client documents) (settings : Settings) (started : Binary64) {held : κ}
    (hfresh : ∀ id, documents held id = none) {before : List (Nat × Request Nat)} {T : Nat}
    {request : Request Nat} (hp : Paced (before ++ [(T, request)]))
    (hfew : ((before ++ [(T, request)]).countP fun call => call.2.isIncrement) ≤ 2 ^ 53)
    (hcounter : request.counter? = some (name, window)) :
    (serveWhole (MongoStore.store client settings) (T, request)
      (Action.stateAfter (serveWhole (MongoStore.store client settings))
        (MongoStore.start client started { hasModel := true, client := held }).state
        before)).reply =
      .ok (.number (ofNat (countInRange (before ++ [(T, request)]) name window T))) := by
  rw [countInRange_eq hp.early hp.early_last (hp.window_last hcounter).2]
  exact (counting h settings).reply_eq (holds_start h settings started hfresh) hp hcounter hfew hfew

/-- The last millisecond at which the documents of a bucket are still there. -/
theorem reply_eq_countInRange_prompt :
    (serveWhole (MongoStore.store prompt {}) (1999, .query "a" 1)
      (Action.stateAfter (serveWhole (MongoStore.store prompt {}))
        (MongoStore.start prompt 0 { hasModel := true, client := fun _ => none }).state
        [(0, .increment "a" 1 .undefined), (500, .increment "a" 1 (.number .nan))])).reply =
      .ok (.number (ofNat 2)) := by
  have hpaced : Paced ([(0, .increment "a" 1 .undefined), (500, .increment "a" 1 (.number .nan))] ++
      [(1999, .query "a" 1)]) := ⟨by decide, by decide, by simp [Request.counter?]⟩
  have hcount : countInRange ([(0, .increment "a" 1 .undefined),
      (500, .increment "a" 1 (.number .nan))] ++ [(1999, .query "a" 1)]) "a" 1 1999 = 2 := by
    rw [countInRange_eq hpaced.early (by decide) (by decide)]
    decide
  rw [← hcount]
  exact reply_eq_countInRange acts_prompt {} 0 (fun _ => rfl) hpaced (by decide) rfl

-- ---------------------------------------------------------------------------
-- Beyond 2^53
-- ---------------------------------------------------------------------------

theorem readWindow_lingering {calls : List (Nat × Request Nat)} {s : MongoStore.State Documents}
    {window T : Nat} {settings : Settings} (h : (counting acts_lingering settings).Holds calls T s)
    (hw : window ≤ 10 ^ 9) (hT : T ≤ 10 ^ 14) (name : String) :
    Evaluates (Counter.readWindow { store := MongoStore.store lingering settings, now := ofNat T }
      (.text name) (ofNat window)) s ⟨totalOf (coveredCounts calls name window T), true⟩ s := by
  have hhas : Has (fun documents => documents) s s.client := ⟨h.ready.1, h.ready.2, rfl⟩
  have hrun := evaluates_getMulti_lingering settings (ofNat T) hhas
    (nodup_keyCounts calls name window T)
  have hkeeps := h.keeps_keyCounts name window
  rw [found_counts hkeeps hT, keys_keyCounts] at hrun
  exact Counter.evaluates_readWindow_whole hT hw hrun (denotes_found hkeeps)

def brim : List (Nat × Request Nat) :=
  burst 2 (2 ^ 53) ++ [(1000, .increment "a" 2 .undefined)]

def flood : List (Nat × Request Nat) := brim ++ [(2000, .increment "a" 2 .undefined)]

theorem tally_flood (bucket : Int) : tally flood "a" 2 bucket =
    (if bucket = 0 then 2 ^ 53 else 0) + (if bucket = 1 then 1 else 0) +
      if bucket = 2 then 1 else 0 := by
  rw [flood, brim, tally_append, tally_append, tally_burst]
  simp [Request.increments, Bucket.wholeId, Bucket.wholeWidth, eq_comm]

theorem covered_flood : covered 2 2000 = [0, 1, 2] := by decide

theorem coveredCounts_flood : coveredCounts flood "a" 2 2000 = [2 ^ 53, 1, 1] := by
  simp [coveredCounts, keyCounts, covered_flood, tally_flood]

theorem paced_brim : Paced brim :=
  (paced_burst (by decide) (by decide) _).append_call (fun _ hmem => le_of_mem_burst hmem 1000)
    (by decide) rfl (by decide) (by decide)

theorem le_of_mem_brim : ∀ call ∈ brim, call.1 ≤ 2000 :=
  List.forall_mem_append.mpr
    ⟨fun _ hmem => le_of_mem_burst hmem 2000, List.forall_mem_singleton.mpr (by decide)⟩

theorem paced_flood : Paced flood :=
  paced_brim.append_call le_of_mem_brim (by decide) rfl (by decide) (by decide)

theorem countInRange_flood : countInRange flood "a" 2 2000 = 2 ^ 53 + 2 := by
  rw [countInRange_eq paced_flood.early (by decide) (by decide), ← sum_tally, covered_flood]
  simp [tally_flood]

theorem holds_brim {s : MongoStore.State Documents} {settings : Settings}
    (hstart : (counting acts_lingering settings).Holds [] 0 s) :
    (counting acts_lingering settings).Holds brim 1000
      (Action.stateAfter (serveWhole (MongoStore.store lingering settings)) s brim) := by
  have hburst : (counting acts_lingering settings).Holds (burst 2 (2 ^ 53)) 1000
      (Action.stateAfter (serveWhole (MongoStore.store lingering settings)) s (burst 2 (2 ^ 53))) :=
    CountingStore.holds_stateAfter hstart _ (paced_burst (by decide) (by decide) _)
      (Nat.le_of_eq (countP_burst _ _)) fun _ hmem => le_of_mem_burst hmem 1000
  have hroom : tally brim "a" 2 (wholeId 2 1000) ≤ 2 ^ 53 := by
    rw [brim, tally_append, tally_burst]
    decide
  obtain ⟨ns, s', hrun, -, hheld⟩ := hburst.serve paced_brim rfl hroom
  have hstate : (serveWhole (MongoStore.store lingering settings) (1000, .increment "a" 2 .undefined)
      (Action.stateAfter (serveWhole (MongoStore.store lingering settings)) s
        (burst 2 (2 ^ 53)))).state = s' := hrun.state
  rw [brim, Action.stateAfter_append, hstate]
  exact hheld

theorem reply_flood {s : MongoStore.State Documents} {settings : Settings}
    (hstart : (counting acts_lingering settings).Holds [] 0 s) :
    (serveWhole (MongoStore.store lingering settings) (2000, .increment "a" 2 .undefined)
      (Action.stateAfter (serveWhole (MongoStore.store lingering settings)) s brim)).reply =
      .ok (.number (totalOf [2 ^ 53, 1, 1])) := by
  have hbrim := (holds_brim hstart).later (show 1000 ≤ 2000 by decide)
  have hroom : tally brim "a" 2 (wholeId 2 2000) < 2 ^ 53 := by
    rw [brim, tally_append, tally_burst]
    decide
  obtain ⟨written, s', hwrite, hheld⟩ := hbrim.write (by decide) (by decide) (by decide) hroom
    .undefined
  have hflood : (counting acts_lingering settings).Holds flood 2000 s' := hheld
  have hread := readWindow_lingering hflood (show 2 ≤ 10 ^ 9 by decide) (by decide) "a"
  have hbucket : Counter.currentBucket (ofNat 2000) "a" (ofNat 2) =
      wholeKey "a" 2 (wholeId 2 (2000 : Nat)) := currentBucket_ofNat (by decide) (by decide) "a"
  rw [coveredCounts_flood] at hread
  rw [← hbucket] at hwrite
  exact Evaluates.reply (Counter.evaluates_increment
    (w := { store := MongoStore.store lingering settings, now := ofNat 2000 })
    (evaluates_isInitialized lingering settings (ofNat 2000) hbrim.ready.1)
    (validWindow?_ofNat (by decide) (by decide)) (Value.asText_text "a") hwrite hread rfl)

/-- Past 2^53 the total depends on the order of the buckets, and here it is too low. -/
theorem reply_ne_countInRange :
    Paced flood ∧
      (serveWhole (MongoStore.store lingering {}) (2000, .increment "a" 2 .undefined)
        (Action.stateAfter (serveWhole (MongoStore.store lingering {}))
          (MongoStore.start lingering 0 { hasModel := true, client := fun _ => none }).state
          brim)).reply ≠
        .ok (.number (ofNat (countInRange flood "a" 2 2000))) := by
  have hne : totalOf [2 ^ 53, 1, 1] ≠ ofNat (2 ^ 53 + 2) := by decide +kernel
  refine ⟨paced_flood, ?_⟩
  rw [reply_flood (holds_start acts_lingering {} 0 fun _ => rfl), countInRange_flood]
  exact fun heq => hne (Value.number.inj (Except.ok.inj heq))

end DocumentDatabase

end SlidingTally
