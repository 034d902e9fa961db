import Mathlib

/-!
# Processes with named points

Code with unbounded loops is a process: at each of its points it either makes one
call, going on at a point that depends on the answer, or stops with a result.
-/

namespace LorahamRns.Lib

/-- What a process does next at one of its points. -/
inductive Action (ε : Type) (answer : ε → Type) (Point Result : Type) where
  | call (effect : ε) (resume : answer effect → Point)
  | stop (result : Result)

end LorahamRns.Lib
