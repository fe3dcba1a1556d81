import Mathlib.Data.Rat.Defs

/-!
# JSON values as the Python decoder delivers them

Integers are unbounded, and a number written with a fraction or an exponent becomes a float which
need not be finite.
-/

namespace Hermes

/-- A decoded JSON float: `json.loads` also accepts `NaN` and the infinities. -/
inductive PyFloat
  | finite (value : ℚ)
  | nan
  | infinite (negative : Bool)
  deriving DecidableEq, Repr

inductive Json
  | null
  | bool (value : Bool)
  | int (value : Int)
  | float (value : PyFloat)
  | str (value : String)
  | arr (items : List Json)
  | obj (fields : List (String × Json))

namespace Json

/-- `dict.get` on the fields of a decoded object. -/
def get? (fields : List (String × Json)) (key : String) : Option Json :=
  (fields.find? fun field => field.1 == key).map (·.2)

end Json
end Hermes
