import CoordStore.Config.Toml.Value
import CoordStore.Float.Shortest
import CoordStore.Text.Quoted
/-!
# Tables that stand for date-times

A document is handed on as values, and a date-time travels as a table with the single key
`$__toml_private_datetime` whose value is its text. So a table whose first entry has that key
is read as the date-time its text names, whatever else it holds; the other entries are not
looked at. Its value must be text that reads as a date-time (`Datetime.ofText`); otherwise the
document is refused at the stretch where that value is written, naming what was found there
(an integer, a float, a boolean, a map for tables and date-times, a sequence for arrays).

Tables are looked at entry by entry in document order and arrays item by item, so a refusal
names the first such value.
-/

namespace CoordStore.Config.Toml

/-- The key that marks a table as a date-time. -/
def datetimeKey : String := "$__toml_private_datetime"

/-- How a refusal names a value that is not text. -/
def Value.found : Value → String
  | .text s => "string " ++ Text.quote s
  | .int i => "integer `" ++ toString i ++ "`"
  | .float x => "floating point `" ++ x.toBinary64.positionalWithPoint ++ "`"
  | .bool b => "boolean `" ++ toString b ++ "`"
  | .datetime _ | .table _ => "map"
  | .array _ => "sequence"

/-- A refusal of the text written at a stretch. -/
def refusedStretch (span : Span) (cause : Cause) : Error :=
  { pos := some span.start, notes := [], cause := some cause, stop := some span.stop }

/-- The date-time that the value of a marked table, written at `span`, names. -/
def stamped (v : Value) (span : Span) : Except Error Value :=
  match v with
  | .text s =>
    match Datetime.ofText s with
    | .ok d => .ok (.datetime d)
    | .error cause => .error (refusedStretch span cause)
  | other => .error (refusedStretch span (.datetimeNotText other.found))

mutual

/-- A value with every marked table in it read as its date-time. -/
def Value.settle : Value → Except Error Value
  | .array xs => .array <$> Value.settleItems xs
  | .table es =>
    match es with
    | (k, v, span) :: _ =>
      if k = datetimeKey then stamped v span else .table <$> Value.settleEntries es
    | [] => .ok (.table [])
  | v => .ok v

/-- Items with every marked table in them read as its date-time. -/
def Value.settleItems : List Value → Except Error (List Value)
  | [] => .ok []
  | x :: xs => do
    let y ← x.settle
    pure (y :: (← Value.settleItems xs))

/-- Entries with every marked table in their values read as its date-time. -/
def Value.settleEntries :
    List (String × Value × Span) → Except Error (List (String × Value × Span))
  | [] => .ok []
  | (k, v, span) :: es => do
    let w ← v.settle
    pure ((k, w, span) :: (← Value.settleEntries es))

end

end CoordStore.Config.Toml
