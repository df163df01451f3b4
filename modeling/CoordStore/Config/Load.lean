import CoordStore.Config.Source
/-!
# Loading settings

Settings load in layers, each over the one before:
1. The defaults.
2. The file named by the settings path, if one is set. It must exist.
3. The environment.

An override lays a file and then the environment once more over settings already loaded. A
file that fails to read, or a value that does not convert, stops the load with its error.

Settings are read from the laid values section by section. A section is a table whose fields
are read by name (others are ignored), or an array whose items are its fields in order. A field
that is missing keeps its default.
-/

namespace CoordStore.Config

/-- Where settings come from. -/
structure Sources where
  /-- The files that can be named. -/
  folder : Folder
  /-- The name of the file laid over the defaults, if any. -/
  settingsPath : Option String := none
  /-- The environment's variables, names and values. -/
  environment : List (String × String) := []
  deriving Repr

namespace DirectorySettings

/-- The directory's settings as values of no source. -/
def toValue (s : DirectorySettings) : Value :=
  .table none [("session_id", .int none s.sessionId), ("base_path", .text none s.basePath)]

/-- Reads the directory's fields of a table, one entry after the other. -/
def readFields (s : DirectorySettings) :
    List (String × Value) → Except LoadError DirectorySettings
  | [] => .ok s
  | (k, v) :: rest => do
    let s ←
      if k = "session_id" then
        (fun i => { s with sessionId := i }) <$> v.toInt "directory.session_id"
      else if k = "base_path" then
        (fun b => { s with basePath := b }) <$> v.toText "directory.base_path"
      else pure s
    readFields s rest

/-- The directory's settings read from a section. -/
def ofValue (v : Value) : Except LoadError DirectorySettings :=
  match v with
  | .table _ es => readFields {} es
  | .array _ xs => do
    let sessionId ← match Value.itemAt? xs 0 with
      | some x => x.toInt "directory[0]"
      | none => pure ({} : DirectorySettings).sessionId
    let basePath ← match Value.itemAt? xs 1 with
      | some x => x.toText "directory[1]"
      | none => pure ({} : DirectorySettings).basePath
    pure { sessionId, basePath }
  | _ => .error (.notASection v.foundBySection "DirectoryConfig")

end DirectorySettings

namespace ReactorSettings

/-- The reactor's settings as values of no source; a worker count beyond the signed 64-bit
range cannot be laid. -/
def toValue (s : ReactorSettings) : Except LoadError Value :=
  if s.threads > Value.maxInt.toNat then .error (.tooLarge s.threads)
  else .ok (.table none
    [("identifier", .text none s.identifier), ("threads", .int none s.threads)])

/-- Reads the reactor's fields of a table, one entry after the other. -/
def readFields (s : ReactorSettings) :
    List (String × Value) → Except LoadError ReactorSettings
  | [] => .ok s
  | (k, v) :: rest => do
    let s ←
      if k = "identifier" then
        (fun i => { s with identifier := i }) <$> v.toText "reactor.identifier"
      else if k = "threads" then
        (fun n => { s with threads := n }) <$> v.toNat "reactor.threads"
      else pure s
    readFields s rest

/-- The reactor's settings read from a section. -/
def ofValue (v : Value) : Except LoadError ReactorSettings :=
  match v with
  | .table _ es => readFields {} es
  | .array _ xs => do
    let identifier ← match Value.itemAt? xs 0 with
      | some x => x.toText "reactor[0]"
      | none => pure ({} : ReactorSettings).identifier
    let threads ← match Value.itemAt? xs 1 with
      | some x => x.toNat "reactor[1]"
      | none => pure ({} : ReactorSettings).threads
    pure { identifier, threads }
  | _ => .error (.notASection v.foundBySection "ReactorConfig")

end ReactorSettings

namespace Settings

/-- The settings as values of no source. -/
def toValue (s : Settings) : Except LoadError Value := do
  let reactor ← s.reactor.toValue
  pure (.table none [("directory", s.directory.toValue), ("reactor", reactor)])

/-- Reads the sections of the top-level table, one entry after the other. -/
def readSections (s : Settings) : List (String × Value) → Except LoadError Settings
  | [] => .ok s
  | (k, v) :: rest => do
    let s ←
      if k = "directory" then (fun d => { s with directory := d }) <$> DirectorySettings.ofValue v
      else if k = "reactor" then (fun r => { s with reactor := r }) <$> ReactorSettings.ofValue v
      else pure s
    readSections s rest

/-- The settings read from the laid values. -/
def ofValue (v : Value) : Except LoadError Settings :=
  readSections {} v.tableParts.2

/-- The entries of settings as a source. -/
def entries (s : Settings) : Except LoadError (List (String × Value)) :=
  (·.tableParts.2) <$> s.toValue

/-- Lays the entries of a source over a value; an array that would grow too far stops the
load. -/
def laid (root : Value) (entries : List (String × Value)) : Except LoadError Value :=
  match root.layer entries with
  | some v => .ok v
  | none => .error .overflow

/-- Lays a file and then the environment over settings, and reads the result. -/
def layerOver (base : List (String × Value)) (src : Sources) (file : Option String) :
    Except LoadError Settings := do
  let root ← laid Value.emptyTable base
  let root ← match file with
    | some name => laid root (← src.folder.read name)
    | none => pure root
  ofValue (← laid root (Environment.entries src.environment))

/-- Loads settings: the defaults, the file at the settings path if one is set, then the
environment. -/
def load (src : Sources) : Except LoadError Settings := do
  layerOver (← ({} : Settings).entries) src src.settingsPath

/-- Lays the file of a name and then the environment over loaded settings. -/
def withOverride (s : Settings) (src : Sources) (name : String) : Except LoadError Settings := do
  layerOver (← s.entries) src (some name)

/-- Checks loaded settings. -/
def check (s : Settings) : Except LoadError Settings :=
  s.validate.mapError .invalid

end Settings

/-- A request for settings: where they come from, the name of a file to lay over them, if any,
and whether to check them. -/
structure LoadRequest where
  sources : Sources
  overrideWith : Option String := none
  check : Bool := false
  deriving Repr

/-- Loads the settings of a request, lays the override over them, then checks them if asked. -/
def LoadRequest.run (r : LoadRequest) : Except LoadError Settings := do
  let s ← Settings.load r.sources
  let s ← match r.overrideWith with
    | some name => s.withOverride r.sources name
    | none => pure s
  if r.check then s.check else pure s

end CoordStore.Config
