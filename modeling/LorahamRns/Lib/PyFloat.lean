import LorahamRns.Lib.Json

/-!
# Sums of Python floats

Exact within the float range, infinite beyond it, and no number where two
infinities cancel; products with a positive number alike.
-/

namespace LorahamRns.Lib.PyFloat

def neg : PyFloat → PyFloat
  | .finite value inRange =>
      .finite (-value) (by rwa [NegMemClass.coe_neg, abs_neg])
  | .infinity negative => .infinity !negative
  | .nan => .nan

def add : PyFloat → PyFloat → PyFloat
  | .nan, _ => .nan
  | _, .nan => .nan
  | .finite left _, .finite right _ => .ofDecimal (left + right)
  | .finite _ _, .infinity negative => .infinity negative
  | .infinity negative, .finite _ _ => .infinity negative
  | .infinity left, .infinity right => if left = right then .infinity left else .nan

def sub (left right : PyFloat) : PyFloat := left.add right.neg

/-- The product with a positive number. -/
def scale (factor : Decimal) : PyFloat → PyFloat
  | .finite value _ => .ofDecimal (value * factor)
  | .infinity negative => .infinity negative
  | .nan => .nan

end LorahamRns.Lib.PyFloat
