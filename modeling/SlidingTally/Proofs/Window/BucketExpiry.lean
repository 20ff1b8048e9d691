import SlidingTally.Proofs.Window.CountingStore

/-!
# Expiries of buckets

Over the in-memory store no bucket is without an expiry, and a bucket has the one that the
increment which created it gave it, whatever later increments ask for. `Founded` ties what an
expiring map holds to the first increment of each bucket; one call preserves it. The store holds
what the map does, or has dropped it: `Retains` says so of expired entries too. Main statement:
`expiry_since_creation`.
-/

namespace SlidingTally

open SlidingTally.Action (Alike Evaluates)
open Binary64 (ofNat is_ofNat)
open Bucket (wholeId wholeKey wholeWidth Outlasts)
open Request (serveWhole)

-- ---------------------------------------------------------------------------
-- What is stored
-- ---------------------------------------------------------------------------

namespace MemoryStore

/-- Besides what is to be seen, everything that is stored, expired or not, is held by the map. -/
def Retains (now : Binary64) (s : State) (m : ExpiringMap.State) : Prop :=
  Mirrors now s m ∧ s.All fun identity entry => m.held identity = some entry.held

theorem mirroring_retains (now : Binary64) : Mirroring now (Retains now) where
  mirrors h := h.1
  afterLook h key := ⟨h.1.afterLook key, h.2.afterLook now key⟩
  sweep h := ⟨h.1.sweep, h.2.sweep now⟩
  put {s m} h key entry hdated := by
    refine ⟨h.1.put key entry hdated, fun identity other hother => ?_⟩
    rw [State.put, Table.get?_insert] at hother
    dsimp only [ExpiringMap.State.put]
    split at hother
    · rename_i hsame
      cases hother
      rw [if_pos hsame]
    · rename_i hother'
      rw [if_neg hother']
      exact h.2 _ _ hother
  start h := ⟨(mirroring_mirrors now).start h.1, h.2⟩
  close hnow := ⟨mirrors_empty hnow, nofun⟩

theorem Retains.mono (h : Retains now s m) (hle : now.le later = true) : Retains later s m :=
  ⟨h.1.mono hle, h.2⟩

end MemoryStore

open MemoryStore (Retains mirroring_retains)

theorem alike_serveWhole_retains (options : MemoryStore.Options) (call : Nat × Request Nat) :
    Alike (Retains (ofNat call.1)) (serveWhole (MemoryStore.store options) call)
      (serveWhole (ExpiringMap.store options) call) :=
  alike_serve { store := MemoryStore.store options, now := ofNat call.1 }
    { store := ExpiringMap.store options, now := ofNat call.1 }
    ((mirroring_retains _).alike_call options) rfl rfl _

-- ---------------------------------------------------------------------------
-- First increments
-- ---------------------------------------------------------------------------

def incrementOf? (name : String) (window : Nat) (bucket : Int) :
    Nat × Request Nat → Option (Nat × Value)
  | (T, .increment name' window' maxTtl) =>
    if name' = name ∧ window' = window ∧ wholeId window T = bucket then some (T, maxTtl) else none
  | _ => none

/-- The increment of a bucket that comes first among some calls. -/
def founder? (calls : List (Nat × Request Nat)) (name : String) (window : Nat) (bucket : Int) :
    Option (Nat × Value) :=
  calls.findSome? (incrementOf? name window bucket)

theorem founder?_append (before : List (Nat × Request Nat)) (call : Nat × Request Nat) :
    founder? (before ++ [call]) name window bucket =
      (founder? before name window bucket).or (incrementOf? name window bucket call) := by
  rw [founder?, List.findSome?_append, List.findSome?_singleton]
  rfl

theorem founder?_concat {before : List (Nat × Request Nat)} {name : String} {window T : Nat}
    (maxTtl : Value) (hnone : founder? before name window (wholeId window T) = none) :
    founder? (before ++ [(T, .increment name window maxTtl)]) name window (wholeId window T) =
      some (T, maxTtl) := by
  rw [founder?_append, hnone, Option.none_or]
  exact if_pos ⟨rfl, rfl, rfl⟩

theorem incrementOf?_eq_some (h : incrementOf? name window bucket call = some (T, maxTtl)) :
    call = (T, .increment name window maxTtl) ∧ wholeId window T = bucket := by
  unfold incrementOf? at h
  split at h
  · split at h
    · rename_i hhit
      obtain ⟨rfl, rfl, hbucket⟩ := hhit
      cases h
      exact ⟨rfl, hbucket⟩
    · cases h
  · cases h

theorem founder?_eq_some (h : founder? calls name window bucket = some (T, maxTtl)) :
    ∃ before after, calls = before ++ (T, .increment name window maxTtl) :: after ∧
      wholeId window T = bucket ∧ founder? before name window bucket = none := by
  obtain ⟨before, call, after, rfl, hcall, hbefore⟩ := List.findSome?_eq_some_iff.mp h
  obtain ⟨rfl, hbucket⟩ := incrementOf?_eq_some hcall
  exact ⟨before, after, rfl, hbucket, List.findSome?_eq_none_iff.mpr hbefore⟩

theorem founder?_of_prefix (h : calls <+: more) (hsome : founder? calls name window bucket = some found) :
    founder? more name window bucket = some found := by
  obtain ⟨rest, rfl⟩ := h
  rw [founder?, List.findSome?_append]
  rw [founder?] at hsome
  rw [hsome]
  rfl

-- ---------------------------------------------------------------------------
-- What the map holds
-- ---------------------------------------------------------------------------

def Bucket.expiryOf (window T : Nat) (maxTtl : Value) : Binary64 :=
  ofNat T + Bucket.ttl (ofNat window) maxTtl * 1000

/-- A bucket as its first increment founded it: a count, which does not go beyond 2^53, and the
expiry that it got then; or nothing before there is one. -/
def FoundedBy (window : Nat) : Option (Nat × Value) → Option ExpiringMap.Held → Prop
  | none, held => held = none
  | some (T, maxTtl), held => ∃ n, 0 < n ∧
    held = some ⟨.number (ofNat (min n (2 ^ 53))), some (Bucket.expiryOf window T maxTtl)⟩

structure Founded (calls : List (Nat × Request Nat)) (m : ExpiringMap.State) : Prop where
  initialized : m.initialized = true
  held : ∀ name window bucket, FoundedBy window (founder? calls name window bucket)
    (m.held (.text (wholeKey name window bucket)))
  only : ∀ identity held, m.held identity = some held →
    ∃ name window bucket, identity = .text (wholeKey name window bucket)

theorem founded_empty : Founded [] { initialized := true } :=
  ⟨rfl, fun _ _ _ => rfl, nofun⟩

section
variable {before : List (Nat × Request Nat)} {m : ExpiringMap.State} {name : String}
variable {window T : Nat} {maxTtl : Value}

theorem Founded.query (h : Founded before m) (name : String) (window : Nat) :
    Founded (before ++ [(T, .query name window)]) m :=
  ⟨h.initialized, fun name' window' bucket => by
    rw [founder?_append]
    exact (Option.or_none ▸ h.held name' window' bucket), h.only⟩

theorem Founded.increment (h : Founded before m) (hpos : 0 < n)
    (hfounder : founder? (before ++ [(T, .increment name window maxTtl)]) name window
      (wholeId window T) = some found) :
    Founded (before ++ [(T, .increment name window maxTtl)])
      (m.put (.text (wholeKey name window (wholeId window T)))
        ⟨.number (ofNat (min n (2 ^ 53))), some (Bucket.expiryOf window found.1 found.2)⟩) := by
  refine ⟨h.initialized, fun name' window' bucket => ?_, fun identity held hheld => ?_⟩
  · by_cases hkey : wholeKey name' window' bucket = wholeKey name window (wholeId window T)
    · obtain ⟨rfl, rfl, rfl⟩ := Bucket.wholeKey_inj hkey
      rw [hfounder]
      exact ⟨n, hpos, by simp [ExpiringMap.State.put]⟩
    · have hmiss : incrementOf? name' window' bucket (T, .increment name window maxTtl) = none := by
        refine if_neg ?_
        rintro ⟨rfl, rfl, rfl⟩
        exact hkey rfl
      rw [founder?_append, hmiss, Option.or_none]
      simpa [ExpiringMap.State.put, hkey] using h.held name' window' bucket
  · simp only [ExpiringMap.State.put] at hheld
    split at hheld
    · rename_i hidentity
      exact ⟨name, window, wholeId window T, hidentity⟩
    · exact h.only identity held hheld

theorem Bucket.outlasts_expiryOf (hpos : 1 ≤ window) (hw : window ≤ 10 ^ 9) (hT : T ≤ 10 ^ 14)
    (maxTtl : Value) : Outlasts window (wholeId window T) (expiryOf window T maxTtl) := by
  obtain ⟨instant, hexpiry, houtlasts⟩ := expiry_outlasts hpos hw hT maxTtl
  rw [MemoryStore.expiry, if_pos (ttl_pos hpos hw maxTtl)] at hexpiry
  cases hexpiry
  exact houtlasts

/-- An increment founds its bucket, or finds it, since no window reaches its expiry. -/
theorem Founded.write (options : MemoryStore.Options) (h : Founded before m)
    (hp : Paced (before ++ [(T, .increment name window maxTtl)])) :
    ∃ n found, 0 < n ∧ founder? (before ++ [(T, .increment name window maxTtl)]) name window
        (wholeId window T) = some found ∧
      Evaluates (Counter.incrementBucket { store := ExpiringMap.store options, now := ofNat T }
          (wholeKey name window (wholeId window T)) (Bucket.ttl (ofNat window) maxTtl)) m
        (.number (ofNat (min n (2 ^ 53))))
        (m.put (.text (wholeKey name window (wholeId window T)))
          ⟨.number (ofNat (min n (2 ^ 53))), some (Bucket.expiryOf window found.1 found.2)⟩) := by
  obtain ⟨hpos, hw⟩ := hp.window_last rfl
  have hT : T ≤ 10 ^ 14 := hp.early_last
  have hheld := h.held name window (wholeId window T)
  cases hfounder : founder? before name window (wholeId window T) with
  | none =>
    rw [hfounder] at hheld
    have hfind : m.find? (ofNat T) (.text (wholeKey name window (wholeId window T))) = none := by
      rw [ExpiringMap.State.find?, Key.identity_text, hheld]
      rfl
    have hexpiry : ExpiringMap.expiry (ofNat T) (Bucket.ttl (ofNat window) maxTtl) =
        some (Bucket.expiryOf window T maxTtl) := if_pos (Bucket.ttl_pos hpos hw maxTtl)
    have hrun := Counter.evaluates_incrementBucket_absent options
      (Bucket.ttl (ofNat window) maxTtl) h.initialized hfind
    refine ⟨1, (T, maxTtl), Nat.one_pos, founder?_concat maxTtl hfounder, ?_⟩
    rw [← hexpiry, Nat.min_eq_left (by omega)]
    exact hrun
  | some found =>
    rw [hfounder] at hheld
    obtain ⟨n, hn, hsome⟩ := hheld
    obtain ⟨earlier, after, heq, hbucket, -⟩ := founder?_eq_some hfounder
    have hearly : found.1 ≤ 10 ^ 14 :=
      hp.init.early (found.1, .increment name window found.2) (by rw [heq]; simp)
    have houtlasts := Bucket.outlasts_expiryOf hpos hw hearly found.2
    rw [hbucket] at houtlasts
    have hfind := find?_of_outlasts hsome houtlasts hT (Bucket.wholeId_mono (by omega))
    refine ⟨n + 1, found, Nat.succ_pos n, ?_, ?_⟩
    · rw [founder?_append, hfounder, Option.some_or]
    · exact Counter.evaluates_incrementBucket_again options _ h.initialized hn hfind

theorem state_increment (options : MemoryStore.Options) (hinit : m.initialized = true)
    (hp : Paced (before ++ [(T, .increment name window maxTtl)])) {x : Binary64}
    {m' : ExpiringMap.State}
    (hwrite : Evaluates (Counter.incrementBucket
        { store := ExpiringMap.store options, now := ofNat T }
        (wholeKey name window (wholeId window T)) (Bucket.ttl (ofNat window) maxTtl)) m
      (.number x) m') :
    (serveWhole (ExpiringMap.store options) (T, .increment name window maxTtl) m).state = m' := by
  obtain ⟨hpos, hw⟩ := hp.window_last rfl
  rw [← currentBucket_ofNat hp.early_last hw name] at hwrite
  refine (Counter.state_increment (w := { store := ExpiringMap.store options, now := ofNat T })
    (ExpiringMap.evaluates_isInitialized options (ofNat T) hinit) (validWindow?_ofNat hpos hw)
    (Value.asText_text name) hwrite).trans ?_
  refine Alike.preserves (I := fun s => s = m') (Counter.alike_readWindow ?_ rfl rfl _ _) rfl
  exact fun call hcall => Alike.of_preserves fun s hs => by rw [ExpiringMap.store_read hcall s, hs]

theorem Founded.step (options : MemoryStore.Options) {call : Nat × Request Nat}
    (h : Founded before m) (hp : Paced (before ++ [call])) :
    Founded (before ++ [call]) (serveWhole (ExpiringMap.store options) call m).state := by
  obtain ⟨T, request⟩ := call
  obtain ⟨name, window, hcounter, -⟩ :=
    hp.windows _ (List.mem_append_right _ List.mem_cons_self)
  cases request with
  | increment name window maxTtl =>
    obtain ⟨n, found, hn, hfounder, hwrite⟩ := h.write options hp
    rw [state_increment options h.initialized hp hwrite]
    exact h.increment hn hfounder
  | query name window =>
    have hread : (serveWhole (ExpiringMap.store options) (T, .query name window) m).state = m := by
      refine serve_preserves (I := fun m' => m' = m) (fun call hcall m' hm' => ?_) rfl rfl
      rw [ExpiringMap.store_read hcall m', hm']
    rw [hread]
    exact h.query name window
  | _ => cases hcounter

end

theorem founded_stateAfter (options : MemoryStore.Options) (calls : List (Nat × Request Nat))
    (hp : Paced calls) :
    Founded calls (Action.stateAfter (serveWhole (ExpiringMap.store options))
      { initialized := true } calls) := by
  refine Action.stateAfter_induct (I := fun calls m => Paced calls → Founded calls m)
    (fun _ => founded_empty) ?_ calls hp
  intro before call m ih hp
  exact (ih hp.init).step options hp

-- ---------------------------------------------------------------------------
-- What the in-memory store holds
-- ---------------------------------------------------------------------------

def inMemory (options : MemoryStore.Options) (calls : List (Nat × Request Nat)) :
    MemoryStore.State :=
  Action.stateAfter (serveWhole (MemoryStore.store options)) (MemoryStore.start options {}).state
    calls

section
variable {options : MemoryStore.Options} {calls before : List (Nat × Request Nat)}

theorem retains_inMemory {call : Nat × Request Nat} (hp : Paced (before ++ [call])) :
    Retains (ofNat call.1) (inMemory options (before ++ [call]))
      (Action.stateAfter (serveWhole (ExpiringMap.store options)) { initialized := true }
        (before ++ [call])) := by
  have hzero : (ofNat 0).BoundedBelow := Binary64.boundedBelow_of_isFinite (is_ofNat (by omega)).1
  have hrising := rising_of_sorted (T := 0)
    (List.pairwise_cons.mpr ⟨fun _ _ => Nat.zero_le _, hp.sorted⟩) hp.early
  have hbefore := Alike.stateAfter (fun _ _ _ _ hle h => h.mono hle)
    (alike_serveWhole_retains options) call before (ofNat 0) { initialized := true }
    { initialized := true } ⟨⟨hzero, rfl, fun _ _ _ => rfl⟩, nofun⟩ hrising
  rw [inMemory, start_state, Action.stateAfter_append, Action.stateAfter_append]
  exact (alike_serveWhole_retains options call _ _ hbefore).2

theorem stored_founded (hp : Paced calls)
    (hentry : (inMemory options calls).entries.get? identity = some entry) :
    ∃ name window bucket found, identity = .text (wholeKey name window bucket) ∧
      founder? calls name window bucket = some found ∧
      entry.expiresAt = some (Bucket.expiryOf window found.1 found.2) := by
  have hheld : (Action.stateAfter (serveWhole (ExpiringMap.store options)) { initialized := true }
      calls).held identity = some entry.held := by
    rcases List.eq_nil_or_concat' calls with rfl | ⟨before, call, rfl⟩
    · rw [inMemory, start_state] at hentry
      cases hentry
    · exact (retains_inMemory hp).2 _ _ hentry
  have hfounded := founded_stateAfter options calls hp
  obtain ⟨name, window, bucket, rfl⟩ := hfounded.only _ _ hheld
  have hbucket := hfounded.held name window bucket
  rw [hheld] at hbucket
  cases hfounder : founder? calls name window bucket with
  | none =>
    rw [hfounder] at hbucket
    cases hbucket
  | some found =>
    rw [hfounder] at hbucket
    obtain ⟨n, -, hsome⟩ := hbucket
    exact ⟨name, window, bucket, found, rfl, hfounder,
      congrArg ExpiringMap.Held.expiresAt (Option.some.inj hsome)⟩

theorem isSome_of_founder {name : String} {window T : Nat} {maxTtl : Value}
    (hp : Paced (before ++ [(T, .increment name window maxTtl)]))
    (hnone : founder? before name window (wholeId window T) = none) :
    ((inMemory options (before ++ [(T, .increment name window maxTtl)])).entries.get?
      (.text (wholeKey name window (wholeId window T)))).isSome = true := by
  obtain ⟨hpos, hw⟩ := hp.window_last rfl
  have hheld := (founded_stateAfter options _ hp).held name window (wholeId window T)
  rw [founder?_concat maxTtl hnone] at hheld
  obtain ⟨n, -, hsome⟩ := hheld
  have hfind := find?_of_outlasts hsome
    (Bucket.outlasts_expiryOf hpos hw hp.early_last maxTtl) hp.early_last
    (Bucket.wholeId_mono (by omega))
  rw [(retains_inMemory hp).1.find?] at hfind
  obtain ⟨entry, hlive, -⟩ := Option.map_eq_some_iff.mp hfind
  exact Option.isSome_of_eq_some (Option.filter_eq_some_iff.mp hlive).1

end

/-- Whatever is stored has an expiry, and the one that the increment which created it gave it: nothing
was stored before that call, something is after it, and no later call leaves another expiry. The expiry
is the window and one bucket after the call at the earliest, and twice the window at the latest. -/
theorem expiry_since_creation (options : MemoryStore.Options) {calls : List (Nat × Request Nat)}
    (hp : Paced calls) (hentry : (inMemory options calls).entries.get? identity = some entry) :
    ∃ (before : List (Nat × Request Nat)) (T : Nat) (name : String) (window : Nat) (maxTtl : Value)
        (after : List (Nat × Request Nat)),
      calls = before ++ (T, .increment name window maxTtl) :: after ∧
      identity = .text (wholeKey name window (wholeId window T)) ∧
      (inMemory options before).entries.get? identity = none ∧
      ((inMemory options (before ++ [(T, .increment name window maxTtl)])).entries.get?
        identity).isSome = true ∧
      entry.expiresAt = some (Bucket.expiryOf window T maxTtl) ∧
      (ofNat (T + 1000 * (window + wholeWidth window))).le (Bucket.expiryOf window T maxTtl) = true ∧
      (Bucket.expiryOf window T maxTtl).le (ofNat (T + 2000 * window)) = true ∧
      ∀ served other, served <+: after →
        (inMemory options (before ++ (T, .increment name window maxTtl) :: served)).entries.get?
          identity = some other → other.expiresAt = entry.expiresAt := by
  obtain ⟨name, window, bucket, ⟨T, maxTtl⟩, rfl, hfounder, hexpires⟩ := stored_founded hp hentry
  obtain ⟨before, after, rfl, rfl, hnone⟩ := founder?_eq_some hfounder
  have hserved {served : List (Nat × Request Nat)} (hstart : served <+: after) :
      Paced (before ++ (T, .increment name window maxTtl) :: served) := by
    obtain ⟨rest, rfl⟩ := hstart
    rw [← List.cons_append, ← List.append_assoc] at hp
    exact hp.init
  have hcreation : Paced (before ++ [(T, .increment name window maxTtl)]) :=
    hserved (List.nil_prefix)
  obtain ⟨hpos, hw⟩ := hcreation.window_last rfl
  have hwidth := Bucket.wholeWidth_bounds window
  have hT : T ≤ 10 ^ 14 := hcreation.early_last
  have hwithin := Bucket.sum_within hpos hw hT maxTtl
  refine ⟨before, T, name, window, maxTtl, after, rfl, rfl, ?_, isSome_of_founder hcreation hnone,
    hexpires, ?_, ?_, fun served other hstart hother => ?_⟩
  · refine Option.eq_none_iff_forall_ne_some.mpr fun other hother => ?_
    obtain ⟨name', window', bucket', found, hidentity, hfounder', -⟩ :=
      stored_founded hcreation.init hother
    obtain ⟨rfl, rfl, rfl⟩ := Bucket.wholeKey_inj (Key.Identity.text.inj hidentity)
    rw [hnone] at hfounder'
    cases hfounder'
  · exact (is_ofNat (by omega)).within.le_within hwithin (Int.le_refl _)
  · exact hwithin.le_within (is_ofNat (by omega)).within (Int.le_refl _)
  · obtain ⟨name', window', bucket', found, hidentity, hfounder', hexpires'⟩ :=
      stored_founded (hserved hstart) hother
    obtain ⟨rfl, rfl, rfl⟩ := Bucket.wholeKey_inj (Key.Identity.text.inj hidentity)
    have hcreated : before ++ [(T, .increment name window maxTtl)] <+:
        before ++ (T, .increment name window maxTtl) :: served := ⟨served, by simp⟩
    have hsame := founder?_of_prefix hcreated (founder?_concat maxTtl hnone)
    rw [hsame] at hfounder'
    cases hfounder'
    rw [hexpires', hexpires]

/-- The second increment asks for another time to live. -/
theorem expiry_since_creation_second :
    let calls : List (Nat × Request Nat) :=
      [(0, .increment "a" 1 .undefined), (500, .increment "a" 1 (.number 9))]
    ∃ entry, (inMemory {} calls).entries.get? (.text (wholeKey "a" 1 0)) = some entry ∧
      ∃ (before : List (Nat × Request Nat)) (T : Nat) (name : String) (window : Nat) (maxTtl : Value)
          (after : List (Nat × Request Nat)),
        calls = before ++ (T, .increment name window maxTtl) :: after ∧
          entry.expiresAt = some (Bucket.expiryOf window T maxTtl) := by
  intro calls
  have hstored : ((inMemory {} calls).entries.get? (.text (wholeKey "a" 1 0))).isSome = true := by
    decide +kernel
  obtain ⟨entry, hentry⟩ := Option.isSome_iff_exists.mp hstored
  have hp : Paced calls := ⟨by decide, by decide, by simp [calls, Request.counter?]⟩
  obtain ⟨before, T, name, window, maxTtl, after, hcalls, -, -, -, hexpires, -⟩ :=
    expiry_since_creation {} hp hentry
  exact ⟨entry, hentry, before, T, name, window, maxTtl, after, hcalls, hexpires⟩

end SlidingTally
