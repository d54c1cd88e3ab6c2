import RobotBench.CommandLine.Command
import RobotBench.ProcessTable

/-!
# The program

The command line on the files and processes of a machine. Processes of an earlier run are
waited for and not signalled; what is left after the wait stops the run.
-/

namespace RobotBench.Main

/-- The code of an error, which comes with either sign. -/
def isCode (expected code : UInt32) : Bool := code = expected || code = -expected

/-- What went wrong with a file. -/
def faultOf : IO.Error → FileFault
  | .noFileOrDirectory .. => .notFound
  | .permissionDenied .. => .permissionDenied
  | .alreadyExists .. => .alreadyExists
  | .inappropriateType _ code _ => if isCode 21 code then .isDirectory else .notDirectory
  | error@(.invalidArgument _ code _) =>
    if isCode 36 code then .nameTooLong else .other (toString error)
  | error => .other (toString error)

/-- The result of an action on a path, or what went wrong. -/
def attempt {α : Type} (path : String) (action : IO α) : IO (Except FileFault α) := do
  if let some fault := Path.fault? path then return .error fault
  try return .ok (← action)
  catch error => return .error (faultOf error)

/-- The path leads to a file of the machine. -/
def isFile (path : String) : IO Bool := do
  let kind ← attempt path do return (← ((← IO.currentDir) / path).metadata).type
  return match kind with
    | .ok .file => true
    | _ => false

/-- The files of the machine. -/
def files : Files IO where
  read path := attempt path (IO.FS.readBinFile path)
  isFile := isFile
  createDirectory path := attempt path (IO.FS.createDirAll path)
  write path content := attempt path (IO.FS.writeBinFile path content)

/-- The content of a file, if it can be read. -/
def contentOf (path : String) : IO (Option ByteArray) := do
  return (← attempt path (IO.FS.readBinFile path)).toOption

/-- The processes of the machine. -/
def processes : IO ProcessTable := do
  let root := (← IO.currentDir) / "/proc"
  let mut entries := #[]
  for entry in ← root.readDir do
    if (ProcessTable.number? entry.fileName).isSome then
      let place := "/proc/" ++ entry.fileName
      entries := entries.push
        ⟨entry.fileName, ← contentOf (place ++ "/comm"), ← contentOf (place ++ "/stat")⟩
  return ⟨entries.toList⟩

/-- The number of this process. -/
def ownNumber : IO Int := do
  let stat := ProcessTable.text? (← contentOf "/proc/self/stat")
  return (stat.bind fun s => ProcessTable.number? ((s.splitOn " ").headD "")).getD 0

/-- The processes that are left after a number of looks, 25 milliseconds apart. -/
def waitFor (numbers : List Int) : Nat → IO (List Int)
  | 0 => return (← processes).remaining numbers
  | looks + 1 => do
    let left := (← processes).remaining numbers
    if left.isEmpty then return []
    IO.sleep 25
    waitFor left looks

/-- Waits for the processes of a name to end. -/
def cleanUp (name : String) (timeout : UInt64) : IO (Except (List String) (List Int)) := do
  match ← attempt "/proc" (do return (← processes).find (← ownNumber) name) with
  | .error fault => return .error ["list /proc", fault.message]
  | .ok numbers => return .ok (← waitFor numbers (timeout.toNat / 25))

/-- The surroundings of a command on the machine. -/
def surroundings : IO (CommandLine.Surroundings IO) := do
  let directory := toString (← IO.currentDir)
  return {
    files
    directory
    cleanUp
    chance := do return UInt64.ofNat (← IO.rand 0 (UInt64.size - 1)) }

end RobotBench.Main

/-- Carries out a command line. A wrong one ends with status 2. -/
def main (words : List String) : IO UInt32 := do
  let around ← RobotBench.Main.surroundings
  match ← RobotBench.CommandLine.perform around words with
  | none =>
    IO.eprintln "Usage: mockbot <run|payload|config> [OPTIONS]"
    return 2
  | some shown =>
    let output ← IO.getStdout
    output.write shown.output
    output.flush
    IO.eprint shown.notice
    return shown.exit
