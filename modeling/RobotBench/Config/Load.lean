import RobotBench.Config.Reader
import RobotBench.Files.Basic

/-!
# Settings in files

A run takes its settings from the file it is told to take, which must be there, or else
from the standard file of its directory if that is there, or else from the defaults. What
comes from a file must pass all checks.
-/

namespace RobotBench

/-- Why no settings came out of a file. -/
inductive LoadFault where
  | unreadable (path : String) (fault : FileFault)
  | unparsable (path : String) (fault : ReadFault)
  | refused (fault : ConfigFault)
  deriving DecidableEq

/-- The messages of a fault, outermost first. -/
def LoadFault.messages : LoadFault → List String
  | unreadable path fault => [s!"read config {path}", fault.message]
  | unparsable path fault => [s!"parse config JSON {path}", fault.message]
  | refused fault => [fault.message]

namespace Config

/-- The name of the standard file. -/
def standardFile : String := "mockbot.json"

/-- The settings that a document holds, if they pass all checks. -/
def ofDocument (path : String) (document : ByteArray) : Except LoadFault Config :=
  match read document with
  | .error fault => .error (.unparsable path fault)
  | .ok c => match c.check with
    | .error fault => .error (.refused fault)
    | .ok () => .ok c

variable {m : Type → Type} [Monad m]

/-- The settings in a file. -/
def load (files : Files m) (path : String) : m (Except LoadFault Config) := do
  match ← files.read path with
  | .error fault => return .error (.unreadable path fault)
  | .ok document => return ofDocument path document

/-- The path of the standard file of a directory. -/
def standardPath (directory : String) : String :=
  if Path.endsInSlash directory then directory ++ standardFile
  else directory ++ "/" ++ standardFile

/-- The settings of a run: those of the file it is told, of the standard file, or the
defaults. -/
def resolve (files : Files m) (told : Option String) (directory : String) :
    m (Except LoadFault Config) := do
  match told with
  | some path => load files path
  | none =>
    if ← files.isFile (standardPath directory) then load files (standardPath directory)
    else return .ok standard

end Config

end RobotBench
