import CoordStore.Config.Toml.Datetime
import CoordStore.Config.Number
/-!
# TOML values

The values a TOML document holds: strings, integers, floats, booleans, date-times, arrays and
tables. Tables written inside a value (`{ a = 1 }`) are inline tables. A table keeps, for each
entry, the stretch of the document its value was written in, so that a later step can point
at it.
-/

namespace CoordStore.Config.Toml

/-- A TOML value. -/
inductive Value where
  | text (s : String)
  | int (i : Int)
  | float (x : Number)
  | bool (b : Bool)
  | datetime (d : Datetime)
  | array (items : List Value)
  /-- A table: each entry's key, value, and where the value is written (where its key is
  written, for a table made only on the way to another). -/
  | table (entries : List (String × Value × Span))
  deriving Repr

/-- The name of a value's type, as reports give it; a table that is a value is an inline
table. -/
def Value.typeName : Value → String
  | .text _ => "string"
  | .int _ => "integer"
  | .float _ => "float"
  | .bool _ => "boolean"
  | .datetime _ => "datetime"
  | .array _ => "array"
  | .table _ => "inline table"

end CoordStore.Config.Toml
