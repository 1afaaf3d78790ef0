import Calculator.Rates.Latest
import Calculator.Session

/-!
# A rate service

The rates from a currency are fetched from an address of their own.  Whatever
goes wrong on the way, there is then no rate; a rate that is not a positive
finite number is none either.
-/

namespace Calculator

/-- What comes of asking for an address. -/
inductive Response where
  | unreachable
  | answered (status : Nat) (body : ByteArray)

namespace RateService

/-- The service that is asked unless another is given. -/
def defaultAddress : String := "https://api.exchangerate-api.com/v4/latest"

/-- The address without slashes at its end. -/
def baseAddress (address : String) : String :=
  String.ofList (address.toList.reverse.dropWhile (· == '/')).reverse

/-- Where the rates from a currency are found. -/
def addressOf (address source : String) : String :=
  baseAddress address ++ "/" ++ source

/-- Whether a rate can be used. -/
def isUsable (rate : Float) : Bool :=
  rate.isFinite && 0 < rate

/-- The body of a response that is not a failure. -/
def body? : Response → Option ByteArray
  | .unreachable => none
  | .answered status body => if status < 400 then some body else none

/-- The rates of the service at an address, given how addresses respond. -/
def rates [Json.Doubles] [Json.Reader] (fetch : String → Response) (address : String) :
    RateSource :=
  fun source target => do
    let source := source.map Char.toUpper
    let target := target.map Char.toUpper
    let body ← body? (fetch (addressOf address source))
    let latest ← LatestRates.read? body
    (latest.find? target).filter isUsable

end RateService
end Calculator
