/-!
# Registered unit conversions

Ten pairs of units, each with its conversion in both directions.  Keys are
compared exactly, in particular with regard to case.
-/

namespace Calculator

/-- How a quantity changes with its unit. -/
inductive UnitConversion where
  | times (factor : Float)
  | dividedBy (factor : Float)
  | fahrenheitToCelsius
  | celsiusToFahrenheit

namespace UnitConversion

/-- The converted quantity in any arithmetic, into which the constants are read. -/
def applyIn {α : Type} [Add α] [Sub α] [Mul α] [Div α] (read : Float → α) :
    UnitConversion → α → α
  | times factor, v => v * read factor
  | dividedBy factor, v => v / read factor
  | fahrenheitToCelsius, v => (v - read 32) * read 5 / read 9
  | celsiusToFahrenheit, v => v * read 9 / read 5 + read 32

/-- The converted quantity in doubles, where every operation rounds. -/
def apply (u : UnitConversion) (v : Float) : Float :=
  u.applyIn id v

theorem apply_eq_applyIn (u : UnitConversion) (v : Float) : u.apply v = u.applyIn id v :=
  rfl

/-- The registered conversions, by the key `<from> to <to>`. -/
def registry : List (String × UnitConversion) :=
  [ ("cm to in", dividedBy 2.54),
    ("in to cm", times 2.54),
    ("m to ft", times 3.28084),
    ("ft to m", dividedBy 3.28084),
    ("km to mile", times 0.621371),
    ("mile to km", dividedBy 0.621371),
    ("acre to m^2", times 4046.86),
    ("m^2 to acre", dividedBy 4046.86),
    ("gal(US) to L", times 3.78541),
    ("L to gal(US)", dividedBy 3.78541),
    ("oz to g", times 28.3495),
    ("g to oz", dividedBy 28.3495),
    ("km/h to m/s", dividedBy 3.6),
    ("m/s to km/h", times 3.6),
    ("atm to Pa", times 101325),
    ("Pa to atm", dividedBy 101325),
    ("hp to kW", times 0.7457),
    ("kW to hp", dividedBy 0.7457),
    ("F to C", fahrenheitToCelsius),
    ("C to F", celsiusToFahrenheit) ]

/-- The conversion registered under a key. -/
def find? (key : String) : Option UnitConversion :=
  registry.lookup key

end UnitConversion
end Calculator
