/-!
The values of a TOML document.
-/

set_option autoImplicit false
set_option relaxedAutoImplicit false

namespace MeteredVm.Toml

/-- A value. Floats and dates are kept as they are written. -/
inductive Value where
  | string (text : String)
  | integer (number : Int)
  | boolean (truth : Bool)
  | float (written : String)
  | dateTime (written : String)
  | array (items : List Value)
  | table (entries : List (String × Value))

end MeteredVm.Toml
