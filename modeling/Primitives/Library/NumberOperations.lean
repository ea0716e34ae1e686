import Primitives.Library.Operation
import Primitives.Number.Functions
import Primitives.Session.Draws

/-!
# Number operations

The operations on numbers that programs call by name, with the draws from the random stream of the
session, and the constants.

## Main definitions

* `numberOperations`: the operations.
* `numberConstants`: the constants by name.
-/

namespace Primitives

open Arguments

variable [Surroundings]

/-- A double as a value, or the fault of an integer that is too large for one. -/
def doubleValue (r : Except TooLargeForDouble Double) : Except Fault Value :=
  match r with
  | .ok x => .ok (.double x)
  | .error _ => .error .tooLargeForDouble

/-- A truth value, or the fault of an integer that is too large for a double. -/
def truthValue (r : Except TooLargeForDouble Bool) : Except Fault Value :=
  match r with
  | .ok b => .ok (.bool b)
  | .error _ => .error .tooLargeForDouble

/-- An operation that is a function of a number. -/
def functionOf (name : String) (f : Number → Except TooLargeForDouble Double) : Operation :=
  .checked name "" do return doubleValue (f (← number))

/-- An operation that is a function of doubles. -/
def functionOfDouble (name : String) (f : Double → Double) : Operation :=
  functionOf name (·.applied f)

/-- An operation that is a function of two numbers. -/
def functionOfTwo (name : String) (f : Number → Number → Except TooLargeForDouble Double) :
    Operation :=
  .checked name "" do return doubleValue (f (← number) (← number))

/-- An operation that asks something of the double that a number is rounded to. -/
def questionOf (name : String) (f : Double → Bool) : Operation :=
  .checked name "" do return truthValue ((← number).applied f)

/-- The factorial of an integer as a value. -/
def factorialValue (n : Int) : Except Fault Value :=
  match Integer.factorial n with
  | .ok n => .ok (.int n)
  | .error _ => .error .factorialTooLarge

/-- The point between two numbers as a value. -/
def lerpValue (a b t : Number) : Except Fault Value :=
  match Number.lerp a b t with
  | .ok x => .ok (.ofNumber x)
  | .error _ => .error .tooLargeForDouble

def numberOperations : List Operation :=
  [.plain "abs" "" do return .ofNumber (← number).abs,
    .plain "sign" "1, -1 or 0; NaN has no sign and gives 0" do return .int (← number).sign,
    .plain "min" "" do return .ofNumber ((← number).min (← number)),
    .plain "max" "" do return .ofNumber ((← number).max (← number)),
    .plain "clamp" "Clamp x into [lo, hi]

        Precondition: lo <= hi. Callers must not pass reversed bounds; the
        result for lo > hi is not part of the contract." do
      return .ofNumber ((← number).clamp (← number) (← number)),
    functionOfDouble "floor" Double.floor,
    functionOfDouble "ceil" Double.ceil,
    .checked "round" "Round half away from zero, like C round()" do
      return doubleValue ((← number).applied Double.round),
    functionOfDouble "trunc" Double.trunc,
    functionOfTwo "pow" Number.pow,
    functionOf "sqrt" Number.sqrt,
    functionOfDouble "cbrt" Double.cbrt,
    functionOf "exp" fun x => .ok x.exp,
    functionOf "expm1" fun x => .ok x.expm1,
    functionOfDouble "log" Double.log,
    functionOfDouble "log2" Double.log2,
    functionOfDouble "log10" Double.log10,
    functionOfDouble "log1p" Double.log1p,
    functionOfDouble "sin" Double.sin,
    functionOfDouble "cos" Double.cos,
    functionOfDouble "tan" Double.tan,
    functionOf "asin" Number.asin,
    functionOf "acos" Number.acos,
    functionOfDouble "atan" Double.atan,
    functionOfTwo "atan2" (Number.applied₂ Double.atan2),
    functionOfDouble "sinh" Double.sinh,
    functionOf "cosh" fun x => .ok x.cosh,
    functionOfDouble "tanh" Double.tanh,
    functionOfDouble "asinh" Double.asinh,
    functionOf "acosh" Number.acosh,
    functionOf "atanh" Number.atanh,
    functionOf "toRadians" Number.toRadians,
    functionOf "toDegrees" Number.toDegrees,
    functionOfTwo "hypot" (Number.applied₂ Double.hypot),
    functionOfTwo "fmod" Number.fmod,
    .checked "lerp" "" do return lerpValue (← number) (← number) (← number),
    questionOf "isNaN" Double.isNaN,
    questionOf "isInf" Double.isInfinite,
    questionOf "isFinite" Double.isFinite,
    .acting "random" "" do return Value.double <$> Action.drawFraction,
    .acting "randomInt" "" do return Value.int <$> Action.drawInt (← int) (← int),
    .acting "randomFloat" "" do
      return Value.ofNumber <$> Action.drawDouble (← number) (← number),
    .acting "seed" "" do
      let n ← int
      return do
        Action.seedStream n
        return .null,
    .plain "gcd" "Greatest common divisor of |a| and |b|; gcd(0, 0) == 0" do
      return .int (Integer.gcd (← int) (← int)),
    .plain "lcm" "Least common multiple of |a| and |b|; 0 if either is 0" do
      return .int (Integer.lcm (← int) (← int)),
    .checked "factorial" "n! for n >= 0, and 0 for negative n" do
      return factorialValue (← int),
    .plain "fibonacci" "0-indexed Fibonacci number; n <= 0 gives 0" do
      return .int (Integer.fibonacci (← int)),
    .plain "isPrime" "Trial division by odd numbers up to sqrt(n)" do
      return .bool (Integer.isPrime (← int))]

/-- The constants by name. -/
def numberConstants : List (String × Value) :=
  [("PI", .double Number.pi), ("E", .double Number.euler), ("TAU", .double Number.tau),
    ("SQRT2", .double Number.sqrtTwo), ("SQRT1_2", .double Number.sqrtHalf),
    ("LN2", .double Number.lnTwo), ("LN10", .double Number.lnTen),
    ("LOG2E", .double Number.logTwoOfE), ("LOG10E", .double Number.logTenOfE),
    ("INT_MAX", .int int64Max), ("INT_MIN", .int int64Min),
    ("FLOAT_MAX", .double Number.greatestDouble), ("FLOAT_MIN", .double Number.leastDouble),
    ("INFINITY", .double (.infinite false)), ("NEG_INFINITY", .double (.infinite true)),
    ("NAN", .double .nan)]

end Primitives
