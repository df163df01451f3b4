import CoordStore.Config.Toml
import CoordStore.Config.Settings
/-!
# Why settings do not load

Loading settings fails when a named file is missing or of no known format, when a file is not
well-formed TOML, when a value does not convert to the type of its setting or a section is not
a table, when settings too large to be written back are laid under an override, when a key path asks an
array to grow beyond what it can hold, and, on request, when the settings loaded are not
valid.
-/

namespace CoordStore.Config

/-- Why settings do not load. -/
inductive LoadError where
  /-- No file answers to the name. -/
  | notFound (name : String)
  /-- A file answers to the name but its extension names no known format; `path` is where it
  is, written in full. -/
  | unknownFormat (path : String)
  /-- The file at `uri` is not well-formed TOML; `text` is what it holds. -/
  | malformed (uri : String) (error : Toml.Error) (text : String)
  /-- The file at `uri` stands for a value that is not a table; `found` names it. -/
  | notAMap (found uri : String)
  /-- A value does not convert: what was found, what was expected, at which key and from
  which source, when known. -/
  | wrongType (found expected : String) (key origin : Option String)
  /-- A section holds a value of another kind than a table or an array. -/
  | notASection (found structName : String)
  /-- A number is too large to be laid as a signed 64-bit integer. -/
  | tooLarge (n : Nat)
  /-- The settings loaded are not valid. -/
  | invalid (reason : Invalid)
  /-- A key path asks an array to grow beyond the items it can hold; the load cannot go on. -/
  | overflow
  deriving Repr

/-- The sentence that reports why settings do not load. File names stand between plain quotes,
as they are; strings found stand quoted and escaped. -/
def LoadError.message : LoadError → String
  | .notFound n => "configuration file \"" ++ n ++ "\" not found"
  | .unknownFormat p => "configuration file \"" ++ p ++ "\" is not of a registered file format"
  | .malformed uri e text => e.render text ++ " in " ++ uri
  | .notAMap found uri =>
    "invalid type: " ++ found ++ ", expected a map in " ++ uri ++ " in " ++ uri
  | .wrongType found expected key origin =>
    "invalid type: " ++ found ++ ", expected " ++ expected ++
      (match key with
        | some k => " for key `" ++ k ++ "`"
        | none => "") ++
      (match origin with
        | some o => " in " ++ o
        | none => "")
  | .notASection found structName => "invalid type: " ++ found ++ ", expected struct " ++ structName
  | .tooLarge n =>
    "value " ++ toString n ++ " is greater than the max " ++ toString (Nat.pow 2 63 - 1)
  | .invalid r => r.message
  | .overflow => "capacity overflow"

end CoordStore.Config
