import CoordStore.Path
import CoordStore.Text.Blank
/-!
# Settings

The settings of a directory node: the session its handle acts for and the base path of its
entities, and the identifier and worker count of its reactor. Each has a default. Settings are
valid when the base path makes a `Base`, the identifier is not blank and there is at least one
worker; the directory's settings are checked before the reactor's.
-/

namespace CoordStore.Config

/-- The directory's settings. -/
structure DirectorySettings where
  sessionId : Int := 0
  basePath : String := "/"
  deriving DecidableEq, Repr

/-- The reactor's settings. -/
structure ReactorSettings where
  identifier : String := "directory-reactor"
  threads : Nat := 2
  deriving DecidableEq, Repr

/-- All settings of a node. -/
structure Settings where
  directory : DirectorySettings := {}
  reactor : ReactorSettings := {}
  deriving DecidableEq, Repr

/-- Why settings are not valid. -/
inductive Invalid where
  /-- The base path does not make a `Base`. -/
  | basePath (given : String) (reason : PathError)
  | blankIdentifier
  | noThreads
  deriving DecidableEq, Repr

/-- The sentence that reports invalid settings. -/
def Invalid.message : Invalid → String
  | .basePath b r => "directory.base_path " ++ Text.quote b ++ " is invalid: Invalid argument: " ++
      r.message
  | .blankIdentifier => "reactor.identifier must not be empty"
  | .noThreads => "reactor.threads must be at least 1"

namespace Settings

/-- Checks the settings, the directory's first. -/
def validate (s : Settings) : Except Invalid Settings :=
  match Base.ofString s.directory.basePath with
  | .error r => .error (.basePath s.directory.basePath r)
  | .ok _ =>
    if (Text.trimBlanks s.reactor.identifier).isEmpty then .error .blankIdentifier
    else if s.reactor.threads = 0 then .error .noThreads
    else .ok s

/-- The base below which entities live, as a path prefix. -/
def normalizedBase (s : Settings) : Option String :=
  (Base.ofString s.directory.basePath).toOption.map (·.path)

end Settings

end CoordStore.Config
