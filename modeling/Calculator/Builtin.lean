import Calculator.Elementary
import Calculator.Error
import Calculator.Value

/-!
# Built-in constants and functions

The names that every session knows.  A built-in function is given with the
number of its arguments, so that its action never has to look for one.
-/

namespace Calculator

/-- What a built-in name stands for. -/
inductive Builtin where
  | constant (v : Float)
  | unary (action : Float → Except EvalError Value)
  | binary (action : Float → Float → Except EvalError Value)
  /-- A function whose second argument may be left out. -/
  | unaryOrBinary (action : Float → Option Float → Except EvalError Value)

namespace Builtin

/-- The least and the greatest number of arguments. -/
def arity? : Builtin → Option (Nat × Nat)
  | constant _ => none
  | unary _ => some (1, 1)
  | binary _ => some (2, 2)
  | unaryOrBinary _ => some (1, 2)

/-- A call of a built-in under its name. -/
def call (b : Builtin) (name : String) (arguments : List Float) : Except EvalError Value :=
  match b, arguments with
  | constant _, _ => .error (.notCallable name)
  | unary action, [a] => action a
  | unary _, _ => .error (.wrongArity name 1 1 arguments.length)
  | binary action, [a, b] => action a b
  | binary _, _ => .error (.wrongArity name 2 2 arguments.length)
  | unaryOrBinary action, [a] => action a none
  | unaryOrBinary action, [a, b] => action a (some b)
  | unaryOrBinary _, _ => .error (.wrongArity name 1 2 arguments.length)

/-! ## Actions -/

/-- A result that is an error where it is no number. -/
def checked (name : String) (v : Float) : Except EvalError Value :=
  if v.isNaN then .error (.domain name) else .ok (.number v)

/-- The integer value of a double without a fraction that fits a 64-bit word.
The bound is strict on both sides. -/
def integral (name : String) (v : Float) : Except EvalError Int :=
  match Binary64.whole? v with
  | some n => if n.natAbs < Nat.pow 2 63 then .ok n else .error (.domain name)
  | none => .error (.domain name)

/-- An inverse trigonometric function, defined from `-1` to `1`. -/
def inverseTrig (name : String) (f : Float → Float) (v : Float) : Except EvalError Value :=
  if -1 ≤ v ∧ v ≤ 1 then .ok (.number (f v)) else .error (.domain name)

/-- The factorial of a natural number; beyond 170 it exceeds every double. -/
def factorial (v : Float) : Except EvalError Value := do
  let n ← integral "fact" v
  if n < 0 then .error (.domain "fact")
  else if 170 < n then .ok (.number Binary64.infinity)
  else
    .ok (.number ((List.range (n.toNat - 1)).foldl (fun p k => p * Float.ofNat (k + 2)) 1))

/-- A finite double as an integer in a radix, its fraction dropped. -/
def truncatedInRadix (name : String) (radix : Nat) (v : Float) : Except EvalError Value :=
  match Binary64.truncate? v with
  | some n => if n.natAbs < Nat.pow 2 63 then .ok (.integer n radix) else .error (.domain name)
  | none => .error (.domain name)

def pi : Float :=
  .ofBits 0x400921FB54442D18

def euler : Float :=
  .ofBits 0x4005BF0A8B145769

variable [Elementary]

/-- The logarithm to a base, which is Euler's number if left out. -/
def logarithm (name : String) (v : Float) (base : Option Float) : Except EvalError Value :=
  if v ≤ 0 then .error (.domain name)
  else
    match base with
    | none => .ok (.number (Elementary.ln v))
    | some b =>
      if b ≤ 0 then .error (.domain name)
      else if b == 1 then .error .divisionByZero
      else .ok (.number (Elementary.ln v / Elementary.ln b))

/-- The built-in of a given name. -/
def find? (name : String) : Option Builtin :=
  match name with
  | "sin" => some (unary fun v => .ok (.number (Elementary.sin v)))
  | "cos" => some (unary fun v => .ok (.number (Elementary.cos v)))
  | "tan" => some (unary fun v => .ok (.number (Elementary.tan v)))
  | "asin" => some (unary (inverseTrig "asin" Elementary.asin))
  | "acos" => some (unary (inverseTrig "acos" Elementary.acos))
  | "atan" => some (unary fun v => .ok (.number (Elementary.atan v)))
  | "log" => some (unaryOrBinary (logarithm "log"))
  | "ln" => some (unaryOrBinary (logarithm "ln"))
  | "sqrt" =>
    some (unary fun v => if v < 0 then .error (.domain "sqrt") else .ok (.number v.sqrt))
  | "exp" => some (unary fun v => .ok (.number (Elementary.exp v)))
  | "pi" => some (constant pi)
  | "e" => some (constant euler)
  | "pow" => some (binary fun a b => checked "pow" (Elementary.pow a b))
  | "root" =>
    some (binary fun a b =>
      if b == 0 then .error .divisionByZero
      else checked "root" (Elementary.pow a (1 / b)))
  | "fact" => some (unary factorial)
  | "bin" => some (unary (truncatedInRadix "bin" 2))
  | "hex" => some (unary (truncatedInRadix "hex" 16))
  | "oct" => some (unary (truncatedInRadix "oct" 8))
  | "dec" => some (unary fun v => (integral "dec" v).map (Value.integer · 10))
  | "deg" => some (unary fun v => .ok (.number (v * (180 / pi))))
  | "rad" => some (unary fun v => .ok (.number (v * (pi / 180))))
  | _ => none

/-- Whether a name is built in, and so not free for the user. -/
def isName (name : String) : Bool :=
  (find? name).isSome

end Builtin
end Calculator
