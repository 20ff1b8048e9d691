import SlidingTally.Proofs.Service.Answers

/-!
# What a service observes

Each request is one operation, and ends with one observation of how it went. Everything else that
a service does observes nothing, but for the number of buckets that a window read covers. Main
statement: `composite_quiet`.
-/

namespace SlidingTally

open SlidingTally.Action (Triple)

-- ---------------------------------------------------------------------------
-- Observations
-- ---------------------------------------------------------------------------

def metrics (j : List Event) : List Metric := j.filterMap Event.metric?

@[simp] theorem metrics_append (j new : List Event) : metrics (j ++ new) = metrics j ++ metrics new :=
  List.filterMap_append ..

@[simp] theorem metrics_log (line : LogLine) : metrics [.log line] = [] := rfl

@[simp] theorem metrics_metric (metric : Metric) : metrics [.metric metric] = [metric] := rfl

@[simp] theorem metrics_callEntries (w : Wiring σ) (call : StoreCall) (s : σ) :
    metrics (callEntries w call s) = [] := by
  refine List.filterMap_eq_nil_iff.mpr fun event hmem => ?_
  rcases mem_callEntries hmem with ⟨line, rfl⟩ | rfl
  · rfl
  · rfl

theorem mem_metrics : metric ∈ metrics j ↔ .metric metric ∈ j := by
  unfold metrics
  rw [List.mem_filterMap]
  constructor
  · rintro ⟨event, hmem, hmetric⟩
    cases event with
    | metric observed => cases hmetric; exact hmem
    | _ => cases hmetric
  · exact fun hmem => ⟨_, hmem, rfl⟩

theorem unfinished_of_nil (h : metrics j = []) : Unfinished j := by
  intro metric hmem
  rw [← mem_metrics, h] at hmem
  cases hmem

-- ---------------------------------------------------------------------------
-- Operations
-- ---------------------------------------------------------------------------

inductive Operation where
  | increment
  | query
  | keyValue (operation : KeyValueOperation)
deriving DecidableEq

def Operation.ended (status : Status) : Operation → Metric
  | .increment => .increment status
  | .query => .query status
  | .keyValue operation => .keyValue operation status

namespace Request

def operation : Request ω → Operation
  | .increment _ _ _ => .increment
  | .query _ _ => .query
  | .getText _ _ => .keyValue .getText
  | .getInteger _ _ => .keyValue .getInteger
  | .getFloat _ _ => .keyValue .getFloat
  | .set _ _ _ => .keyValue .set

def ended (status : Status) (request : Request ω) : Metric := request.operation.ended status

end Request

-- ---------------------------------------------------------------------------
-- Actions without observations
-- ---------------------------------------------------------------------------

section
variable {σ α : Type} {w : Wiring σ}

def Quiet (x : Service σ α) : Prop := ∀ s, metrics (x s).journal = []

theorem Quiet.triple {x : Service σ α} (h : Quiet x) (s : σ) (j : List Event) :
    Triple x s j (fun _ _ j' => metrics j' = metrics j) fun _ _ j' => metrics j' = metrics j := by
  have hafter : metrics (j ++ (x s).journal) = metrics j := by
    rw [metrics_append, h, List.append_nil]
  unfold Triple
  split
  · exact hafter
  · exact hafter

variable (w) in
theorem composite_quiet : Composite w (fun _ => True) Quiet where
  pure _ _ := rfl
  fail _ _ := rfl
  bind hx hf s := by
    rw [Action.run_bind]
    split
    · rw [metrics_append, hx, hf, List.append_nil]
    · exact hx s
  rescue hx hfault s := by
    unfold rescue
    dsimp only
    split
    · rw [metrics_append, hx, hfault, List.append_nil]
    · exact hx s
  say _ _ _ _ := rfl
  ask call _ s := metrics_callEntries w call s

theorem Asks.quiet {x : Service σ α} (h : Asks x given Q E) (hquiet : Quiet x)
    (hanswers : answers j = given) (hmetrics : metrics j = []) :
    Triple x s j (fun a _ j' => Q a (answers j') ∧ metrics j' = [])
      fun halt _ j' => E halt (answers j') ∧ metrics j' = [] := by
  refine ((h s j hanswers (unfinished_of_nil hmetrics)).and (hquiet.triple s j)).mono ?_ ?_
  · exact fun _ _ _ h => ⟨h.1.1, h.2.trans hmetrics⟩
  · exact fun _ _ _ h => ⟨h.1.1, h.2.trans hmetrics⟩

end

end SlidingTally
