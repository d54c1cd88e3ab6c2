import RobotBench.Json.Basic
import RobotBench.Text.Blank
import RobotBench.Text.Quoted

/-!
# Configurations

The settings of a run, their defaults, the checks that they must pass, and their text as a
JSON document. `Config.check` names the first check that fails, in a fixed order.
-/

namespace RobotBench

/-- The settings of a run. -/
structure Config where
  schemaVersion : UInt32
  /-- The control program. -/
  target : String
  /-- The texts that mark its header. -/
  markers : List String
  /-- The process to clean up before a run. -/
  engine : Option String
  /-- How many milliseconds that process has to end. -/
  cleanupTimeout : UInt64
  seed : Option UInt64
  /-- The procedure to call after the payload. -/
  entryPoint : Option String
  maxSteps : Option UInt64
  deriving DecidableEq

/-- Why settings are refused. -/
inductive ConfigFault where
  | unsupportedSchema (version : UInt32)
  | emptyTarget
  | noMarker
  | blankMarker
  | notBareEngine (name : String)
  | zeroTimeout
  | blankEntryPoint
  | zeroMaxSteps
  deriving DecidableEq

/-- Why settings are refused, in words. -/
def ConfigFault.message : ConfigFault → String
  | unsupportedSchema version => s!"unsupported config schema_version {version}"
  | emptyTarget => "target must not be empty"
  | noMarker => "import_markers must list at least one marker"
  | blankMarker => "import_markers entries must not be blank"
  | notBareEngine name =>
    s!"engine_process must be a bare process name (got {Text.quoted name})"
  | zeroTimeout => "cleanup_timeout_ms must be positive"
  | blankEntryPoint => "entry_point must not be blank"
  | zeroMaxSteps => "max_steps must be positive when set"

namespace Config

/-- The version of the settings that is understood. -/
def schema : UInt32 := 1

/-- The settings of a run for which nothing is set. -/
def standard : Config where
  schemaVersion := schema
  target := "transbot.ctl"
  markers := ["import"]
  engine := some "NAR"
  cleanupTimeout := 2000
  seed := none
  entryPoint := none
  maxSteps := none

/-- A process name that is not blank and has no slash. -/
def isBareName (name : String) : Bool := !Text.allBlank name && !name.toList.contains '/'

/-- The first check that the settings do not pass. -/
def fault? (c : Config) : Option ConfigFault :=
  if c.schemaVersion ≠ schema then some (.unsupportedSchema c.schemaVersion)
  else if c.target = "" then some .emptyTarget
  else if c.markers = [] then some .noMarker
  else if c.markers.any Text.allBlank then some .blankMarker
  else match c.engine.filter (fun name => !isBareName name) with
    | some name => some (.notBareEngine name)
    | none =>
      if c.cleanupTimeout = 0 then some .zeroTimeout
      else if c.entryPoint.any Text.allBlank then some .blankEntryPoint
      else if c.maxSteps = some 0 then some .zeroMaxSteps
      else none

/-- Passes settings on or names the first check that fails. -/
def check (c : Config) : Except ConfigFault Unit :=
  match c.fault? with
  | some fault => .error fault
  | none => .ok ()

/-- A field that is written only when it is set. -/
def optionalField {α : Type} (key : String) (write : α → Json) (value : Option α) :
    List (String × Json) :=
  match value with
  | some a => [(key, write a)]
  | none => []

/-- The settings as a document. The process is written as null when there is none; other
settings that are not set are left out. -/
def document (c : Config) : Json :=
  .object ([("schema_version", .natural c.schemaVersion.toNat), ("target", .text c.target),
      ("import_markers", .array (c.markers.map .text)),
      ("engine_process", match c.engine with
        | some name => .text name
        | none => .null),
      ("cleanup_timeout_ms", .natural c.cleanupTimeout.toNat)] ++
    optionalField "seed" (fun n => .natural n.toNat) c.seed ++
    optionalField "entry_point" .text c.entryPoint ++
    optionalField "max_steps" (fun n => .natural n.toNat) c.maxSteps)

/-- The settings as a text on several lines. -/
def text (c : Config) : String := c.document.pretty

end Config

end RobotBench
