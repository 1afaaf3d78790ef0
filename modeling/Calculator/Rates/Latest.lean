import Calculator.Json

/-!
# Published exchange rates

The answer of a rate service: an object with a member `rates`, which maps codes
to numbers.  Other members are ignored, and without that member there are no
rates.  An array of the same fields in order, of which there is only the one, is
read as well.
-/

namespace Calculator

/-- The rates of an answer, in its order. -/
structure LatestRates where
  entries : List (String × Float)

namespace LatestRates

/-- The name of the member that holds the rates. -/
def memberName : String := "rates"

/-- The rate of a code; the last entry counts. -/
def find? (latest : LatestRates) (code : String) : Option Float :=
  latest.entries.reverse.lookup code

variable [Json.Doubles]

/-- A map from codes to numbers. -/
def ofMap? : Json → Option LatestRates
  | .object members =>
    (members.mapM fun (member : Option String × Json) => do
      some (← member.1, ← member.2.toFloat?)).map LatestRates.mk
  | _ => none

/-- The rates that a JSON value gives.  The member must not be repeated. -/
def ofJson? : Json → Option LatestRates
  | .object members =>
    if members.any (·.1.isNone) then none
    else
      match members.filter (·.1 == some memberName) with
      | [] => some ⟨[]⟩
      | [(_, rates)] => ofMap? rates
      | _ => none
  | .array [] => some ⟨[]⟩
  | .array [rates] => ofMap? rates
  | _ => none

/-- The rates that the body of an answer gives. -/
def read? [Json.Reader] (body : ByteArray) : Option LatestRates := do
  ofJson? (← Json.Reader.value? (← String.fromUTF8? body))

end LatestRates
end Calculator
