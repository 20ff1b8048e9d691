import SlidingTally.Proofs.Service.Answers
import SlidingTally.Proofs.Store.ExpiringCalls

/-!
# Reads go unnoticed

The in-memory store drops entries when they are looked at, so a read does write to it. Nothing
shows of that: the store goes on mirroring the same expiring map, and what it shows is what the map
does. Over no store whatever does a request that reads ask for anything else than to read. Main
statement: `reads_unnoticed`.
-/

namespace SlidingTally

open SlidingTally.Action (Alike Preserves Rising replies repliesTo)

-- ---------------------------------------------------------------------------
-- What is asked for
-- ---------------------------------------------------------------------------

section
variable {σ α : Type} {w : Wiring σ}

def CallsOnly (kind : StoreCall → Prop) (x : Service σ α) : Prop :=
  ∀ s, ∀ answer ∈ answers (x s).journal, kind answer.1

variable (w) in
theorem composite_callsOnly (kind : StoreCall → Prop) : Composite w kind (CallsOnly kind) where
  pure _ _ _ hmem := nomatch hmem
  fail _ _ _ hmem := nomatch hmem
  bind hx hf s answer hmem := by
    rw [Action.run_bind] at hmem
    split at hmem
    · rw [answers_append] at hmem
      rcases List.mem_append.mp hmem with hmem | hmem
      · exact hx s answer hmem
      · exact hf _ _ answer hmem
    · exact hx s answer hmem
  rescue hx hfault s answer hmem := by
    unfold rescue at hmem
    dsimp only at hmem
    split at hmem
    · rw [answers_append] at hmem
      rcases List.mem_append.mp hmem with hmem | hmem
      · exact hx s answer hmem
      · exact hfault _ _ answer hmem
    · exact hx s answer hmem
  say _ _ _ _ _ hmem := nomatch hmem
  ask call hcall s answer hmem := by
    have hanswers : answers (ask w call s).journal = [(call, (w.store w.now call s).reply)] :=
      answers_callEntries w call s
    rw [hanswers, List.mem_singleton] at hmem
    rwa [hmem]

theorem callsOnly_observe (kind : StoreCall → Prop) (metric : Metric) :
    CallsOnly kind (observe w metric) := by
  unfold observe
  split
  · exact (composite_callsOnly w kind).fail _
  · intro s answer hmem
    cases hmem

theorem callsOnly_serve_read {request : Request Binary64} (hrequest : request.isRead = true) :
    CallsOnly (·.isRead = true) (request.serve w) :=
  (composite_callsOnly w _).serve_read (fun _ hcall => hcall) (callsOnly_observe _) hrequest

end

-- ---------------------------------------------------------------------------
-- Runs with and without reads
-- ---------------------------------------------------------------------------

inductive Turn where
  | serve (request : Request Binary64)
  | ask (call : StoreCall)

namespace Turn

def take (store : CounterStore σ) (now : Binary64) : Turn → Service σ Value
  | .serve request => request.serve { store := store, now := now }
  | .ask call => demand { store := store, now := now } call

/-- The requests that read. -/
def isRead : Turn → Bool
  | .serve request => request.isRead
  | .ask _ => false

theorem alike_take {R : σ → τ → Prop} {store : CounterStore σ} {store' : CounterStore τ}
    {now : Binary64} (h : ∀ call, Alike R (store now call) (store' now call)) (turn : Turn) :
    Alike R (turn.take store now) (turn.take store' now) := by
  cases turn with
  | serve request =>
    exact alike_serve { store := store, now := now } { store := store', now := now } h rfl rfl request
  | ask call =>
    exact alike_demand (w := { store := store, now := now }) (h call)

theorem take_read (options : MemoryStore.Options) (now : Binary64) {turn : Turn}
    (hread : turn.isRead = true) (m : ExpiringMap.State) :
    (turn.take (ExpiringMap.store options) now m).state = m := by
  cases turn with
  | serve request =>
    exact serve_preserves (I := (· = m)) (w := { store := ExpiringMap.store options, now := now })
      (fun call hcall => ExpiringMap.preserves_read hcall) hread rfl
  | ask call => cases hread

end Turn

/-- A turn of a run at a clock reading, which may be one that is inserted into the run. -/
structure Visit where
  now : Binary64
  turn : Turn
  inserted : Bool
  read : inserted = true → turn.isRead = true

def Visit.own (now : Binary64) (turn : Turn) : Visit :=
  ⟨now, turn, false, (absurd · Bool.false_ne_true)⟩

def Visit.take (store : CounterStore σ) (visit : Visit) : Service σ Value :=
  visit.turn.take store visit.now

namespace MemoryStore

def Twins (now : Binary64) (s t : State) : Prop := ∃ m, Mirrors now s m ∧ Mirrors now t m

section
variable {now : Binary64} {s t : State}

theorem Twins.mono (h : Twins now s t) (hle : now.le later = true) : Twins later s t := by
  obtain ⟨m, hs, ht⟩ := h
  exact ⟨m, hs.mono hle, ht.mono hle⟩

theorem alike_twins (options : Options) (now : Binary64) (turn : Turn) :
    Alike (Twins now) (turn.take (store options) now) (turn.take (store options) now) := by
  rintro s t ⟨m, hs, ht⟩
  have htake : Alike (Mirrors now) (turn.take (store options) now)
      (turn.take (ExpiringMap.store options) now) := turn.alike_take (alike_store options)
  obtain ⟨hreply, hstate⟩ := htake s m hs
  obtain ⟨hreply', hstate'⟩ := htake t m ht
  exact ⟨hreply.trans hreply'.symm, _, hstate, hstate'⟩

/-- A read leaves a twin of what it was, since the map that both mirror stays as it is. -/
theorem Twins.read (options : Options) {turn : Turn} (hread : turn.isRead = true)
    (h : Twins now s t) : Twins now (turn.take (store options) now s).state t := by
  obtain ⟨m, hs, ht⟩ := h
  have hmirrors := (turn.alike_take (alike_store options) s m hs).2
  rw [Turn.take_read options now hread] at hmirrors
  exact ⟨m, hmirrors, ht⟩

end

end MemoryStore

/-- Reads that are inserted into a run over the in-memory store, in any of its modes, change the
reply to nothing else in it. Over any store, no request that reads asks for anything but whether
the store is initialized and for the values of keys. -/
theorem reads_unnoticed (options : MemoryStore.Options) {start : Binary64}
    (hstart : start.isFinite = true) (visits : List Visit) (hrising : Rising Visit.now start visits) :
    repliesTo (!·.inserted) (Visit.take (MemoryStore.store options)) {} visits =
        replies (Visit.take (MemoryStore.store options)) {} (visits.filter (!·.inserted)) ∧
      ∀ {σ : Type} (w : Wiring σ) (request : Request Binary64) (s : σ), request.isRead = true →
        ∀ answer ∈ answers (request.serve w s).journal, answer.1.isRead = true := by
  refine ⟨?_, fun w request s hrequest => callsOnly_serve_read hrequest s⟩
  have htwins : MemoryStore.Twins start {} {} :=
    have hempty := MemoryStore.mirrors_empty (Binary64.boundedBelow_of_isFinite hstart)
    ⟨{}, hempty, hempty⟩
  refine Alike.repliesTo (R := MemoryStore.Twins) (fun _ _ _ _ hle h => h.mono hle)
    (fun visit _ => MemoryStore.alike_twins options visit.now visit.turn)
    (fun visit s t hinserted h => ?_) visits start {} {} htwins hrising
  exact h.read options (visit.read (by simpa using hinserted))

/-- A read that drops what expired, before the key is added again. -/
theorem reads_unnoticed_dropped :
    let visits : List Visit :=
      [.own 0 (.ask .start),
        .own 0 (.serve (.set (.text "a") (.number 7) (.number 1))),
        ⟨1000, .serve (.getInteger (.text "a") .undefined), true, fun _ => rfl⟩,
        .own 1500 (.ask (.addIfAbsent (.text "a") (.number 8) (.number 1))),
        .own 1500 (.serve (.getInteger (.text "a") .undefined))]
    repliesTo (!·.inserted) (Visit.take (MemoryStore.store {})) {} visits =
        replies (Visit.take (MemoryStore.store {})) {} (visits.filter (!·.inserted)) ∧
      ∀ answer ∈ answers ((Request.query "a" 60).serve { store := unwordedStore, now := 0 } ()).journal,
        answer.1.isRead = true := by
  intro visits
  have hstart : (0 : Binary64).isFinite = true := by decide +kernel
  have hrising : Rising Visit.now 0 visits :=
    ⟨by decide +kernel, by decide +kernel, by decide +kernel, by decide +kernel, by decide +kernel,
      trivial⟩
  obtain ⟨hreplies, hcalls⟩ := reads_unnoticed {} hstart visits hrising
  exact ⟨hreplies, hcalls { store := unwordedStore, now := 0 } (.query "a" 60) () rfl⟩

end SlidingTally
