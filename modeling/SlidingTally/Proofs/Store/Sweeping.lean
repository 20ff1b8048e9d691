import SlidingTally.Proofs.Number.Exact
import SlidingTally.Proofs.Store.MemorySteps

/-!
# Sweeps of the in-memory store

An entry that is not looked at again is dropped by a sweep, and a sweep comes with the storing of a new
entry if the last one is an interval ago. The store compares a rounded difference of readings, which
`due_iff` shows to be exact where it matters. From the steps of the store it follows when the last sweep
was, what a sweep leaves and what it spares. Main statement: `wellSwept`.
-/

namespace SlidingTally.MemoryStore

open Binary64 (is_ofNat one_is thousand_is unitsPerOne_cast_pos)

-- ---------------------------------------------------------------------------
-- Times to live
-- ---------------------------------------------------------------------------

/-- Zero or less, or a positive whole number of milliseconds: the double that is nearest to so many
thousandths, or one that the store takes for so many milliseconds. -/
def WholeMilliseconds (ttl : Binary64) : Prop :=
  ttl.le .zero = true ∨ ∃ n : Nat, 0 < n ∧ (ttl = .ofNat n / 1000 ∨ (ttl * 1000).Is n)

theorem one_le_ofNat (h : 0 < n) : (1 : Binary64).le (.ofNat n) = true := by
  rcases Nat.lt_or_eq_of_le h with hlt | rfl
  · obtain ⟨hone, hn, hrank⟩ := Binary64.lt_iff.mp (Binary64.ofNat_lt_ofNat (by decide) hlt)
    exact Binary64.le_iff.mpr ⟨hone, hn, Int.le_of_lt hrank⟩
  · exact Binary64.le_refl (Binary64.isNaN_of_isFinite one_is.1)

/-- A thousandth of a whole number is rounded, but to no less than what a thousandth is rounded to,
and a thousand times that is more than one. -/
theorem one_le_milliseconds (h : 0 < n) : (1 : Binary64).le (.ofNat n / 1000 * 1000) = true := by
  have hle := one_le_ofNat h
  rcases Binary64.nonneg_cases (Binary64.le_trans (by decide +kernel) hle) with hinf | ⟨hfinite, -⟩
  · rw [hinf]
    decide +kernel
  · have hone := unitsPerOne_cast_pos
    have hthousand : 0 < (1000 : Binary64).units := by decide +kernel
    have hthousandth : 0 < ((1 : Binary64) / 1000).units := by decide +kernel
    have hproduct : (unitsPerOne * unitsPerOne : Int) ≤
        ((1 : Binary64) / 1000).units * (1000 : Binary64).units := by decide +kernel
    have hunits := (Binary64.le_iff.mp hle).2.2
    rw [Binary64.rank_of_isFinite one_is.1, Binary64.rank_of_isFinite hfinite] at hunits
    have hquotient := Binary64.div_units_mono one_is.1 hfinite thousand_is.1 hthousand
      (by rw [one_is.2]; omega) hunits (Binary64.isFinite_div hfinite thousand_is (by decide))
    have hwhole := Binary64.representable_whole (k := 1) (by decide)
    rw [Int.one_mul] at hwhole
    have hbelow := Int.mul_le_mul_of_nonneg_right hquotient (Int.le_of_lt hthousand)
    obtain ⟨hnan, hrank⟩ := Binary64.le_rank_mul (m := unitsPerOne)
      (Int.lt_of_lt_of_le hthousandth hquotient) hthousand hwhole.1 hwhole.2
      (Int.le_trans hproduct hbelow)
    refine Binary64.le_iff.mpr ⟨Binary64.isNaN_of_isFinite one_is.1, hnan, ?_⟩
    rwa [Binary64.rank_of_isFinite one_is.1, one_is.2, Int.one_mul]

theorem WholeMilliseconds.cases (h : WholeMilliseconds ttl) :
    ttl.le .zero = true ∨ (1 : Binary64).le (ttl * 1000) = true := by
  rcases h with hle | ⟨n, hn, rfl | hmilliseconds⟩
  · exact .inl hle
  · exact .inr (one_le_milliseconds hn)
  · exact .inr ((one_is.le_iff hmilliseconds).mpr (by omega))

/-- A millisecond is enough to pass any reading at which doubles have no gaps. -/
theorem timely_of_milliseconds {now ttl : Binary64} (hnow : Binary64.zero.le now = true)
    (hsmall : now.lt (Binary64.ofNat (2 ^ 53)) = true) (httl : WholeMilliseconds ttl) :
    Timely now ttl := by
  intro instant hinstant
  unfold expiry at hinstant
  split at hinstant
  · rename_i hpos
    cases hinstant
    refine Binary64.lt_add_of_one_le hnow hsmall ?_
    rcases httl.cases with hle | hone
    · rw [(Binary64.nonpositive_iff_le.mpr hle).lt_eq_false] at hpos
      cases hpos
    · exact hone
  · cases hinstant

-- ---------------------------------------------------------------------------
-- The interval
-- ---------------------------------------------------------------------------

/-- At least the interval of sweeps lies between the readings, exactly. -/
def Apart (earlier later : Binary64) : Prop := earlier.units + 60000 * unitsPerOne ≤ later.units

theorem sweepInterval_is : sweepInterval.Is 60000 := is_ofNat (n := 60000) (by decide)

theorem representable_interval : Representable (60000 * unitsPerOne) :=
  Binary64.representable_whole (by decide)

/-- The difference that is looked at is rounded only where that does not matter: before the first
sweep it is the reading itself, and later, if it is too short, then the last sweep is not far back. -/
theorem due_iff {last now : Binary64} (hlast : last.isFinite = true) (hnow : now.isFinite = true)
    (hle : last.units ≤ now.units) (hfirst : last.units = 0 ∨ 60000 * unitsPerOne ≤ last.units) :
    (now - last).lt sweepInterval = false ↔ Apart last now := by
  have hinterval := sweepInterval_is
  have hone := unitsPerOne_cast_pos
  have hlastWithin := Binary64.within_units hlast
  have hnowWithin := Binary64.within_units hnow
  rw [← Bool.not_eq_true]
  by_cases hapart : Apart last now
  · refine iff_of_true ?_ hapart
    unfold Apart at hapart
    have hdiff : (now - last).Within (60000 * unitsPerOne) now.units :=
      Binary64.sub_within hnowWithin hlastWithin representable_interval now.representable_units
        (by omega) (by omega)
    rw [Binary64.lt_iff_units hdiff.finite hinterval.1, hinterval.2]
    exact Int.not_lt.mpr hdiff.ge
  · refine iff_of_false (not_not.mpr ?_) hapart
    unfold Apart at hapart
    have hdiff : (now - last).Within (now.units - last.units) (now.units - last.units) := by
      rcases hfirst with hzero | hlater
      · have hr := now.representable_units
        rw [hzero, Int.sub_zero]
        exact Binary64.sub_within hnowWithin hlastWithin hr hr (by omega) (by omega)
      · exact Binary64.sub_exact hnow hlast (by omega) hle (by omega)
    rw [Binary64.lt_iff_units hdiff.finite hinterval.1, hinterval.2]
    have hunits := hdiff.le
    omega

-- ---------------------------------------------------------------------------
-- One sweep
-- ---------------------------------------------------------------------------

/-- The operation sweeps: it gets as far as that, and the interval is over. -/
def Sweeps (options : Options) (s : State) (step : Binary64 × Operation) : Prop :=
  step.2.Stores options step.1 s ∧ (step.1 - s.lastSweepAt).lt sweepInterval = false

/-- The entry of the key is still stored; if the operation is about that key, then perhaps another. -/
def Operation.Spares (operation : Operation) (key : Key) (entry : Entry) (s : State) : Prop :=
  ∃ kept, s.stored? key = some kept ∧
    ((∀ written ∈ operation.key?, written.identity ≠ key.identity) → kept = entry)

/-- No entry was expired at the last sweep. -/
def State.Current (s : State) : Prop := s.All fun _ entry => entry.isExpired s.lastSweepAt = false

/-- When the last sweep was, by the clock: there is none in the first interval. -/
structure Clocked (now : Binary64) (s : State) : Prop where
  finite : s.lastSweepAt.isFinite = true
  first : s.lastSweepAt.units = 0 ∨ 60000 * unitsPerOne ≤ s.lastSweepAt.units
  le : s.lastSweepAt.le now = true

section
variable {options : Options} {now later : Binary64} {s s' : State} {operation : Operation} {key : Key}
  {entry : Entry}

theorem isExpired_earlier (hle : now.le later = true) (h : entry.isExpired later = false) :
    entry.isExpired now = false := by
  rw [← Bool.not_eq_true] at h ⊢
  exact fun hexpired => h (Entry.isExpired_later hle hexpired)

theorem sweep_of_not_due (h : (now - s.lastSweepAt).lt sweepInterval = true) : s.sweep now = s := by
  unfold State.sweep
  rw [if_pos h]

theorem lastSweepAt_of_due (h : (now - s.lastSweepAt).lt sweepInterval = false) :
    (s.sweep now).lastSweepAt = now := by
  unfold State.sweep
  rw [h]
  rfl

theorem all_of_due (h : (now - s.lastSweepAt).lt sweepInterval = false) :
    (s.sweep now).All fun _ entry => entry.isExpired now = false := by
  unfold State.sweep
  intro identity entry hentry
  rw [h, if_neg Bool.false_ne_true, Table.get?_filter] at hentry
  simpa using (Option.filter_eq_some_iff.mp hentry).2

theorem Step.lastSweepAt (h : Step options now s operation s') (hopen : operation ≠ .call .close) :
    (Sweeps options s (now, operation) → s'.lastSweepAt = now) ∧
      (¬Sweeps options s (now, operation) → s'.lastSweepAt = s.lastSweepAt) := by
  have hswept (hstores : operation.Stores options now s) {s₁ : State} (hlooked : Looked now s s₁) :
      (Sweeps options s (now, operation) → (s₁.sweep now).lastSweepAt = now) ∧
        (¬Sweeps options s (now, operation) → (s₁.sweep now).lastSweepAt = s.lastSweepAt) := by
    rw [Sweeps, and_iff_right hstores, Bool.not_eq_false, ← hlooked.lastSweepAt]
    exact ⟨lastSweepAt_of_due, fun hnot => by rw [sweep_of_not_due hnot]⟩
  cases h with
  | closed h => exact absurd h hopen
  | started h =>
    subst h
    exact ⟨fun hsweeps => hsweeps.1.elim, fun _ => rfl⟩
  | looked hnot _ hlooked => exact ⟨fun hsweeps => absurd hsweeps.1 hnot, fun _ => hlooked.lastSweepAt⟩
  | rewritten hnot => exact ⟨fun hsweeps => absurd hsweeps.1 hnot, fun _ => rfl⟩
  | stored hstores hlooked => exact hswept hstores hlooked
  | refused hstores hlooked => exact hswept hstores hlooked

theorem Step.eq_of_close (h : Step options now s operation s') (hclose : operation = .call .close) :
    s' = {} := by
  subst hclose
  cases h with
  | closed => rfl
  | started h => cases h
  | looked _ hopen => exact absurd rfl hopen
  | rewritten _ hkey => cases hkey
  | stored hstores => exact hstores.elim
  | refused hstores => exact hstores.elim

theorem Step.all {P : Key.Identity → Entry → Prop} (h : Step options now s operation s')
    (hnot : ¬Sweeps options s (now, operation)) (hall : s.All P)
    (hfresh : ∀ identity fresh, operation.MayWrite now fresh → P identity fresh) : s'.All P := by
  have hsame {s₁ : State} (hstores : operation.Stores options now s) (hlooked : Looked now s s₁) :
      s₁.sweep now = s₁ := by
    refine sweep_of_not_due ?_
    rw [hlooked.lastSweepAt, ← Bool.not_eq_false]
    exact fun hdue => hnot ⟨hstores, hdue⟩
  cases h with
  | closed => nofun
  | started => exact hall
  | looked _ _ hlooked => exact hlooked.all hall
  | rewritten _ _ _ hmay => exact hall.put (hfresh _ _ hmay)
  | stored hstores hlooked _ hmay =>
    rw [hsame hstores hlooked]
    exact (hlooked.all hall).put (hfresh _ _ hmay)
  | refused hstores hlooked =>
    rw [hsame hstores hlooked]
    exact hlooked.all hall

theorem Step.cleared (h : Step options now s operation s') (hsweeps : Sweeps options s (now, operation))
    (htimely : operation.IsTimely now) : s'.All fun _ entry => entry.isExpired now = false := by
  obtain ⟨hstores, hdue⟩ := hsweeps
  cases h with
  | closed h =>
    subst h
    exact hstores.elim
  | started h =>
    subst h
    exact hstores.elim
  | looked hnot => exact absurd hstores hnot
  | rewritten hnot => exact absurd hstores hnot
  | stored _ hlooked _ hfresh =>
    rw [← hlooked.lastSweepAt] at hdue
    exact (all_of_due hdue).put (hfresh htimely)
  | refused _ hlooked =>
    rw [← hlooked.lastSweepAt] at hdue
    exact all_of_due hdue

theorem spares_of_live (operation : Operation) (h : s.live? now key = some entry) :
    operation.Spares key entry s :=
  ⟨entry, (Option.filter_eq_some_iff.mp h).1, fun _ => rfl⟩

theorem spares_put {written : Key} (hkey : operation.key? = some written) (fresh : Entry)
    (h : s.live? now key = some entry) : operation.Spares key entry (s.put written fresh) := by
  rw [Operation.Spares, State.stored?, State.put, Table.get?_insert]
  split
  · rename_i hsame
    exact ⟨fresh, rfl, fun hnot => absurd hsame.symm (hnot written hkey)⟩
  · exact spares_of_live operation h

theorem Step.spares (h : Step options now s operation s') (hopen : operation ≠ .call .close)
    (hlive : s.live? now key = some entry) : operation.Spares key entry s' := by
  cases h with
  | closed h => exact absurd h hopen
  | started => exact spares_of_live operation hlive
  | looked _ _ hlooked =>
    rw [← hlooked.live?] at hlive
    exact spares_of_live operation hlive
  | rewritten _ hkey => exact spares_put hkey _ hlive
  | stored _ hlooked hkey =>
    rw [← hlooked.live?, ← live?_sweep fun _ => id] at hlive
    exact spares_put hkey _ hlive
  | refused _ hlooked =>
    rw [← hlooked.live?, ← live?_sweep fun _ => id] at hlive
    exact spares_of_live operation hlive

-- ---------------------------------------------------------------------------
-- What lasts
-- ---------------------------------------------------------------------------

theorem clocked_empty (h : Binary64.zero.le now = true) : Clocked now {} := ⟨rfl, .inl rfl, h⟩

theorem Clocked.mono (h : Clocked now s) (hle : now.le later = true) : Clocked later s :=
  ⟨h.finite, h.first, Binary64.le_trans h.le hle⟩

theorem Clocked.units_le (h : Clocked now s) (hnow : now.isFinite = true) :
    s.lastSweepAt.units ≤ now.units := by
  have hle := (Binary64.le_iff.mp h.le).2.2
  rwa [Binary64.rank_of_isFinite h.finite, Binary64.rank_of_isFinite hnow] at hle

theorem Clocked.due_iff (h : Clocked now s) (hnow : now.isFinite = true) :
    (now - s.lastSweepAt).lt sweepInterval = false ↔ Apart s.lastSweepAt now :=
  MemoryStore.due_iff h.finite hnow (h.units_le hnow) h.first

theorem Clocked.step (h : Clocked now s) (hnow : now.isFinite = true)
    (hzero : Binary64.zero.le now = true) (hstep : Step options now s operation s') :
    Clocked now s' := by
  by_cases hclose : operation = .call .close
  · rw [hstep.eq_of_close hclose]
    exact clocked_empty hzero
  · obtain ⟨hmoved, hkept⟩ := hstep.lastSweepAt hclose
    by_cases hsweeps : Sweeps options s (now, operation)
    · have hapart := (h.due_iff hnow).mp hsweeps.2
      have hone := unitsPerOne_cast_pos
      have hfirst := h.first
      unfold Apart at hapart
      refine ⟨?_, .inr ?_, ?_⟩ <;> rw [hmoved hsweeps]
      · exact hnow
      · omega
      · exact Binary64.le_refl (Binary64.isNaN_of_isFinite hnow)
    · refine ⟨?_, ?_, ?_⟩ <;> rw [hkept hsweeps]
      · exact h.finite
      · exact h.first
      · exact h.le

theorem current_empty : State.Current {} := nofun

theorem State.Current.step (h : s.Current) (hclocked : Clocked now s)
    (hstep : Step options now s operation s') (htimely : operation.IsTimely now) : s'.Current := by
  by_cases hclose : operation = .call .close
  · rw [hstep.eq_of_close hclose]
    exact current_empty
  · obtain ⟨hmoved, hkept⟩ := hstep.lastSweepAt hclose
    by_cases hsweeps : Sweeps options s (now, operation)
    · rw [State.Current, hmoved hsweeps]
      exact hstep.cleared hsweeps htimely
    · rw [State.Current, hkept hsweeps]
      refine hstep.all hsweeps h fun _ fresh hfresh => ?_
      exact isExpired_earlier hclocked.le (hfresh htimely)

end

-- ---------------------------------------------------------------------------
-- Runs
-- ---------------------------------------------------------------------------

/-- Operations by a clock that does not fall from zero. -/
structure Paced (operations : List (Binary64 × Operation)) : Prop where
  rising : Action.Rising Prod.fst .zero operations
  finite : ∀ step ∈ operations, step.1.isFinite = true

def reached (options : Options) (operations : List (Binary64 × Operation)) : State :=
  Action.stateAfter (perform options) {} operations

section
variable {options : Options} {operations before between rest : List (Binary64 × Operation)}
  {first second last : Binary64 × Operation}

theorem step_reached : Step options last.1 (reached options before) last.2
    (reached options (before ++ [last])) := by
  unfold reached
  rw [Action.stateAfter_append]
  exact step_perform

theorem rising_of_append {now : Binary64} (h : Action.Rising Prod.fst now (before ++ rest)) :
    Action.Rising Prod.fst now before := by
  induction before generalizing now with
  | nil => trivial
  | cons step others ih => exact ⟨h.1, ih h.2⟩

theorem Paced.of_append (h : Paced (before ++ rest)) : Paced before :=
  ⟨rising_of_append h.rising, fun step hmem => h.finite step (List.mem_append_left _ hmem)⟩

theorem Paced.finite_last (h : Paced (before ++ [last])) : last.1.isFinite = true :=
  h.finite last (List.mem_append_right _ List.mem_cons_self)

theorem clocked_stateAfter {s : State} {now : Binary64} (hs : Clocked now s)
    (hnow : Binary64.zero.le now = true)
    (hrising : Action.Rising Prod.fst now (before ++ [last]))
    (hfinite : ∀ step ∈ before, step.1.isFinite = true) :
    Clocked last.1 (Action.stateAfter (perform options) s before) := by
  induction before generalizing s now with
  | nil => exact hs.mono hrising.1
  | cons step rest ih =>
    obtain ⟨hstep, hrest⟩ := List.forall_mem_cons.mp hfinite
    have hzero := Binary64.le_trans hnow hrising.1
    exact ih ((hs.mono hrising.1).step hstep hzero step_perform) hzero hrising.2 hrest

theorem Paced.clocked (h : Paced (before ++ [last])) : Clocked last.1 (reached options before) :=
  clocked_stateAfter (clocked_empty (Binary64.le_refl rfl)) (Binary64.le_refl rfl) h.rising
    h.of_append.finite

theorem Paced.current (h : Paced operations) (htimely : ∀ step ∈ operations, step.2.IsTimely step.1) :
    (reached options operations).Current := by
  induction operations using List.reverseRecOn with
  | nil => exact current_empty
  | append_singleton before last ih =>
    obtain ⟨hbefore, hlast⟩ := List.forall_mem_append.mp htimely
    exact (ih h.of_append hbefore).step h.clocked step_reached (hlast last List.mem_cons_self)

theorem Paced.le_lastSweepAt (h : Paced (before ++ first :: between))
    (hopen : ∀ step ∈ between, step.2 ≠ .call .close)
    (hsweeps : Sweeps options (reached options before) first) :
    first.1.le (reached options (before ++ first :: between)).lastSweepAt = true := by
  induction between using List.reverseRecOn with
  | nil =>
    have hfirst : first.2 ≠ .call .close := fun hclose => by
      have hstores := hsweeps.1
      rw [hclose] at hstores
      exact hstores
    rw [(step_reached.lastSweepAt hfirst).1 hsweeps]
    exact Binary64.le_refl (Binary64.isNaN_of_isFinite h.finite_last)
  | append_singleton between step ih =>
    obtain ⟨hbetween, hstep⟩ := List.forall_mem_append.mp hopen
    rw [← List.cons_append, ← List.append_assoc] at h ⊢
    have hle := ih h.of_append hbetween
    have hlast : Step options step.1 (reached options (before ++ first :: between)) step.2 _ :=
      step_reached
    obtain ⟨hmoved, hkept⟩ := hlast.lastSweepAt (hstep step List.mem_cons_self)
    by_cases hagain : Sweeps options (reached options (before ++ first :: between)) step
    · rw [hmoved hagain]
      exact Binary64.le_trans hle h.clocked.le
    · rwa [hkept hagain]

theorem Paced.apart (h : Paced (before ++ first :: between ++ [second]))
    (hopen : ∀ step ∈ between, step.2 ≠ .call .close)
    (hfirst : Sweeps options (reached options before) first)
    (hsecond : Sweeps options (reached options (before ++ first :: between)) second) :
    Apart first.1 second.1 := by
  have hmem : first ∈ before ++ first :: between := List.mem_append_right _ List.mem_cons_self
  have hle := (Binary64.le_iff.mp (h.of_append.le_lastSweepAt hopen hfirst)).2.2
  have hclocked : Clocked second.1 (reached options (before ++ first :: between)) := h.clocked
  have hdue := (hclocked.due_iff h.finite_last).mp hsecond.2
  rw [Binary64.rank_of_isFinite (h.of_append.finite first hmem),
    Binary64.rank_of_isFinite hclocked.finite] at hle
  unfold Apart at hdue ⊢
  omega

structure WellSwept (options : Options) (operations : List (Binary64 × Operation)) : Prop where
  current : (∀ step ∈ operations, step.2.IsTimely step.1) → (reached options operations).Current
  /-- What stores a new entry once the interval is over leaves no expired one. -/
  cleared : ∀ before last, operations = before ++ [last] → last.2.IsTimely last.1 →
    Answered options last.1 (reached options before) last.2 →
    Apart (reached options before).lastSweepAt last.1 →
    (reached options operations).All fun _ entry => entry.isExpired last.1 = false
  /-- Nothing is dropped that is not expired. -/
  spared : ∀ before last, operations = before ++ [last] → last.2 ≠ .call .close →
    ∀ key entry, (reached options before).live? last.1 key = some entry →
      last.2.Spares key entry (reached options operations)
  /-- The time of the last sweep is the reading of the last operation that swept. -/
  moved : ∀ before last, operations = before ++ [last] → last.2 ≠ .call .close →
    (Sweeps options (reached options before) last →
      (reached options operations).lastSweepAt = last.1) ∧
    (¬Sweeps options (reached options before) last →
      (reached options operations).lastSweepAt = (reached options before).lastSweepAt)
  /-- Of two sweeps without a close in between the later one comes an interval later, if not more. -/
  apart : ∀ before first between second, operations = before ++ first :: between ++ [second] →
    (∀ step ∈ between, step.2 ≠ .call .close) → Sweeps options (reached options before) first →
    Sweeps options (reached options (before ++ first :: between)) second → Apart first.1 second.1

/-- Every run is well swept by a clock that does not fall. The times to live that this asks for are
those that advance the clock, as whole milliseconds do at every reading below 2^53. -/
theorem wellSwept (options : Options) :
    (∀ now ttl, Binary64.zero.le now = true → now.lt (Binary64.ofNat (2 ^ 53)) = true →
      WholeMilliseconds ttl → Timely now ttl) ∧
    ∀ operations, Paced operations → WellSwept options operations := by
  refine ⟨fun now ttl => timely_of_milliseconds, fun operations h => ⟨h.current, ?_, ?_, ?_, ?_⟩⟩
  · rintro before last rfl htimely hanswered hapart
    exact step_reached.cleared ⟨hanswered.stores, (h.clocked.due_iff h.finite_last).mpr hapart⟩ htimely
  · rintro before last rfl hopen key entry hlive
    exact step_reached.spares hopen hlive
  · rintro before last rfl hopen
    exact step_reached.lastSweepAt hopen
  · rintro before first between second rfl hopen hfirst hsecond
    exact h.apart hopen hfirst hsecond

/-- Two writes a minute apart both sweep, and the second one drops what the first one stored. -/
theorem wellSwept_minute :
    let started : List (Binary64 × Operation) := [(0, .call .start)]
    let first : Binary64 × Operation :=
      (60000, .call (.set (.text "a") (.number 1) (.number (1 / 1000))))
    let second : Binary64 × Operation :=
      (120000, .call (.set (.text "b") (.number 1) (.number .zero)))
    Paced (started ++ [first] ++ [second]) ∧ WellSwept {} (started ++ [first] ++ [second]) ∧
      Timely 60000 (1 / 1000) ∧ (reached {} (started ++ [first] ++ [second])).Current ∧
      Apart 60000 120000 ∧ (reached {} (started ++ [first] ++ [second])).size = 1 := by
  intro started first second
  have hmillisecond : Timely 60000 (1 / 1000) := (wellSwept {}).1 _ _ (by decide +kernel)
    (by decide +kernel) (.inr ⟨1, Nat.one_pos, .inl rfl⟩)
  have hnever : Timely 120000 .zero := (wellSwept {}).1 _ _ (by decide +kernel)
    (by decide +kernel) (.inl (by decide +kernel))
  have hpaced : Paced (started ++ [first] ++ [second]) :=
    ⟨⟨by decide +kernel, by decide +kernel, by decide +kernel, trivial⟩, by decide +kernel⟩
  have hwell := (wellSwept {}).2 _ hpaced
  have htimely : ∀ step ∈ started ++ [first] ++ [second], step.2.IsTimely step.1 := by
    intro step hmem ttl httl seconds hseconds
    simp only [started, first, second, List.cons_append, List.nil_append, List.mem_cons,
      List.not_mem_nil, or_false] at hmem
    rcases hmem with rfl | rfl | rfl <;> cases httl <;> cases hseconds
    · exact hmillisecond
    · exact hnever
  have hfirst : Sweeps {} (reached {} started) first := ⟨rfl, by decide +kernel⟩
  have hinitialized : (reached {} (started ++ [first])).initialized = true := by decide +kernel
  have hsecond : Sweeps {} (reached {} (started ++ [first])) second :=
    ⟨hinitialized, by decide +kernel⟩
  exact ⟨hpaced, hwell, hmillisecond, hwell.current htimely,
    hwell.apart started first [] second rfl nofun hfirst hsecond, by decide +kernel⟩

/-- At 2^53 a millisecond is rounded away: what is written is expired from the start. -/
theorem not_current_at_limit :
    let operations : List (Binary64 × Operation) :=
      [(.ofNat (2 ^ 53), .call .start),
        (.ofNat (2 ^ 53), .call (.set (.text "a") (.number 1) (.number (1 / 1000))))]
    Paced operations ∧ WholeMilliseconds (1 / 1000) ∧ ¬(reached {} operations).Current := by
  intro operations
  have hexpired : ((reached {} operations).stored? (.text "a")).any
      (·.isExpired (reached {} operations).lastSweepAt) = true := by decide +kernel
  refine ⟨⟨⟨by decide +kernel, by decide +kernel, trivial⟩, by decide +kernel⟩,
    .inr ⟨1, Nat.one_pos, .inl rfl⟩, fun hall => ?_⟩
  cases hstored : (reached {} operations).stored? (.text "a") with
  | none =>
    rw [hstored] at hexpired
    cases hexpired
  | some entry =>
    rw [hstored, Option.any_some, hall _ entry hstored] at hexpired
    cases hexpired

end

end SlidingTally.MemoryStore
