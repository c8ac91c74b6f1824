/-!
# TOML values

**Contents.**  The type of values that a TOML document holds.  The entries of a table stand in
the order of the document and have distinct keys.  Settings read no float and no date-time, so
the number of a float is not kept, and a date-time is kept as its canonical text.
-/

namespace WrapLint
namespace Toml

/-- A value. -/
inductive Value where
  | string (text : String)
  | integer (value : Int)
  | float
  | datetime (text : String)
  | boolean (value : Bool)
  | array (items : List Value)
  | table (entries : List (String × Value))

end Toml
end WrapLint
