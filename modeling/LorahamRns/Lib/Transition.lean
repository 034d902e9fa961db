import Mathlib

/-!
# Labelled transition systems

Runs with the labels of their steps, restriction to permitted steps, and the
rules that carry a property from one step to whole runs.
-/

namespace LorahamRns.Lib

/-- Starting states and labelled steps. -/
structure System (State Label : Type) where
  init : State → Prop
  step : State → Label → State → Prop

namespace System

variable {State Label Other : Type}

/-- A state reached from a starting state by the steps of the trace. -/
inductive Run (system : System State Label) : State → List Label → Prop where
  | start {state : State} (initial : system.init state) : Run system state []
  | step {state after : State} {trace : List Label} {label : Label}
      (run : Run system state trace) (taken : system.step state label after) :
      Run system after (trace ++ [label])

/-- The same system with only the permitted steps. -/
def restrict (system : System State Label) (permitted : State → Label → State → Prop) :
    System State Label where
  init := system.init
  step state label after := system.step state label after ∧ permitted state label after

variable {system : System State Label} {permitted : State → Label → State → Prop}

/-- A property of the start that every step keeps holds after every run. -/
theorem Run.invariant {holds : State → Prop} (initial : ∀ state, system.init state → holds state)
    (kept : ∀ state label after, holds state → system.step state label after → holds after)
    {state : State} {trace : List Label} (run : system.Run state trace) : holds state := by
  induction run with
  | start h => exact initial _ h
  | step _ taken ih => exact kept _ _ _ ih taken

/-- The rule for a property that also speaks of the trace. -/
theorem Run.invariant_trace {holds : State → List Label → Prop}
    (initial : ∀ state, system.init state → holds state [])
    (kept : ∀ state trace label after, holds state trace → system.step state label after →
      holds after (trace ++ [label]))
    {state : State} {trace : List Label} (run : system.Run state trace) : holds state trace := by
  induction run with
  | start h => exact initial _ h
  | step _ taken ih => exact kept _ _ _ _ ih taken

/-- A run under a stronger restriction is one under a weaker one. -/
theorem Run.restrict_mono {weaker : State → Label → State → Prop}
    (implies : ∀ state label after, permitted state label after → weaker state label after)
    {state : State} {trace : List Label} (run : (system.restrict permitted).Run state trace) :
    (system.restrict weaker).Run state trace := by
  induction run with
  | start h => exact .start h
  | step _ taken ih => exact .step ih ⟨taken.1, implies _ _ _ taken.2⟩

/-- A restricted run is a run. -/
theorem Run.of_restrict {state : State} {trace : List Label}
    (run : (system.restrict permitted).Run state trace) : system.Run state trace := by
  induction run with
  | start h => exact .start h
  | step _ taken ih => exact .step ih taken.1

/-- A run whose labels are permitted, whatever the states, is a restricted one. -/
theorem Run.restrict_of_labels {state : State} {trace : List Label} (run : system.Run state trace)
    (all : ∀ label ∈ trace, ∀ state after, permitted state label after) :
    (system.restrict permitted).Run state trace := by
  induction run with
  | start h => exact .start h
  | step _ taken ih =>
      refine .step (ih fun label member => all label (List.mem_append_left _ member)) ⟨taken, ?_⟩
      exact all _ (List.mem_append_right _ (List.mem_singleton_self _)) _ _

end System

end LorahamRns.Lib
