import RobotBench.CommandLine.Options
import RobotBench.Config.Load
import RobotBench.Report

/-!
# Commands

What each command does with its surroundings, and what it shows: an exit status and the
texts on both outputs. A command fails with a chain of messages; the first failing stage
decides, and a run whose payload fails still writes its report.
-/

namespace RobotBench.CommandLine

/-- What a command acts on. -/
structure Surroundings (m : Type → Type) where
  files : Files m
  /-- The directory in which the command was started, as it is shown. -/
  directory : String
  /-- Ends the processes of a name within a time and lists those that are left. -/
  cleanUp : String → UInt64 → m (Except (List String) (List Int))
  /-- A seed for a run that has none. -/
  chance : m UInt64
  /-- Compiles the pattern of the markers. -/
  compile : Pattern.Compiler := Pattern.bounded

/-- What a command shows. -/
structure Shown where
  exit : UInt32
  output : ByteArray
  notice : String

/-- The messages of a failure, outermost first. -/
abbrev Messages := List String

/-- The lines of a message after the first one, moved right. -/
def indent (blanks : Nat) (message : String) : String :=
  String.ofList (message.toList.flatMap fun c =>
    if c = '\n' then '\n' :: List.replicate blanks ' ' else [c])

/-- A number, moved right to five columns. -/
def columns (n : Nat) : String :=
  let digits := Nat.toDigits 10 n
  String.ofList (List.replicate (5 - digits.length) ' ' ++ digits)

/-- The causes of a failure, one below the other; several are numbered from zero. -/
def causes : Messages → String
  | [] => ""
  | [cause] => "\n\nCaused by:\n    " ++ indent 4 cause
  | many => "\n\nCaused by:" ++ String.join (many.zipIdx.map fun (cause, n) =>
      "\n" ++ columns n ++ ": " ++ indent 7 cause)

/-- The notice of a failure. -/
def failureNotice : Messages → String
  | [] => "Error: \n"
  | message :: more => "Error: " ++ message ++ causes more ++ "\n"

/-- The version of the program. -/
def versionText : String := "mockbot 0.1.0\n"

section

variable {m : Type → Type} [Monad m] (around : Surroundings m)

/-- A stage of a command, which may fail with messages. -/
abbrev Stage (m : Type → Type) (α : Type) : Type := ExceptT Messages m α

/-- A stage that is known to succeed or fail. -/
def Stage.ofExcept {ε α : Type} (messages : ε → Messages) (result : Except ε α) :
    Stage m α :=
  match result with
  | .ok a => pure a
  | .error e => throw (messages e)

/-- What the surroundings answer, taken as it is. -/
def Stage.ask {α : Type} (x : m α) : Stage m α := ExceptT.lift x

/-- The settings of a command: those it finds, with the target it is told. -/
def settings (source : Source) : Stage m Config := do
  let config ← Stage.ofExcept LoadFault.messages
    (← Stage.ask (Config.resolve around.files source.config around.directory))
  return { config with target := source.target.getD config.target }

/-- Passes settings on that pass all checks. -/
def checked (config : Config) : Stage m Config := do
  Stage.ofExcept (fun fault : ConfigFault => [fault.message]) config.check
  return config

/-- The payload of the control program. -/
def loadPayload (config : Config) : Stage m Payload := do
  let markers ← Stage.ofExcept MarkerFault.messages
    (Markers.ofList config.markers around.compile)
  let unreadable (fault : FileFault) : Messages :=
    [s!"read target program {config.target}", fault.message]
  let content ← Stage.ofExcept unreadable (← Stage.ask (around.files.read config.target))
  match String.fromUTF8? content with
  | some text => return (Program.ofText text).payload markers
  | none => throw (unreadable .notText)

/-- Makes sure that no process of an earlier run is left. -/
def cleanUpEngine (config : Config) : Stage m Unit := do
  match config.engine with
  | none => return
  | some name =>
    let left ← Stage.ofExcept (fun messages => s!"clean up process {name}" :: messages)
      (← Stage.ask (around.cleanUp name config.cleanupTimeout))
    if left ≠ [] then
      let numbers := ", ".intercalate (left.map toString)
      throw [s!"process {name} still running after cleanup (pids [{numbers}])"]

/-- Writes a report, in a directory that is made when it is missing. -/
def writeReport (path text : String) : Stage m Unit := do
  if let some parent := Path.parent? path then
    Stage.ofExcept (fun fault : FileFault => [s!"create parent dir {parent}", fault.message])
      (← Stage.ask (around.files.createDirectory parent))
  Stage.ofExcept (fun fault : FileFault => [s!"write {path}", fault.message])
    (← Stage.ask (around.files.write path text.toUTF8))

/-- The settings of a run: those it finds, with what the command line sets. -/
def runSettings (o : RunOptions) : Stage m Config := do
  let config ← settings around o.source
  checked { config with seed := o.seed.or config.seed, maxSteps := o.maxSteps.or config.maxSteps }

/-- Runs a payload and writes the report; gives what was printed and how the run ended. A
failed payload hides a failure to write. -/
def runPayload (o : RunOptions) (config : Config) (payload : Payload) :
    m (ByteArray × Except Messages Unit) := do
  let seed ← match config.seed with
    | some seed => pure seed
    | none => around.chance
  let (result, machine) := Trial.simulate seed config.maxSteps config.entryPoint payload
  let written ← match o.report with
    | none => pure (.ok ())
    | some path =>
      (writeReport around path (Report.text config.target payload result machine)).run
  let outcome := match result with
    | .error fault => .error fault.messages
    | .ok () => written
  return (machine.world.sink.bytes, outcome)

/-- The command `run`. -/
def runCommand (o : RunOptions) : m Shown := do
  let prepare : Stage m (Config × Payload) := do
    let config ← runSettings around o
    if !o.skipCleanup then cleanUpEngine around config
    return (config, ← loadPayload around config)
  match ← prepare.run with
  | .error messages => return ⟨1, .empty, failureNotice messages⟩
  | .ok (config, payload) =>
    match ← runPayload around o config payload with
    | (output, .ok ()) => return ⟨0, output, ""⟩
    | (output, .error messages) => return ⟨1, output, failureNotice messages⟩

/-- Where the payload of a program begins, in words. -/
def payloadNotice (target : String) (payload : Payload) : String :=
  match payload.cutIndex with
  | some k =>
    s!"{target}: payload starts at line {payload.firstLine} (last import on line {k + 1})\n"
  | none => s!"{target}: no import marker; whole file is payload\n"

/-- The command `payload`. -/
def payloadCommand (source : Source) : m Shown := do
  let load : Stage m (Config × Payload) := do
    let config ← checked (← settings around source)
    return (config, ← loadPayload around config)
  match ← load.run with
  | .error messages => return ⟨1, .empty, failureNotice messages⟩
  | .ok (config, payload) =>
    return ⟨0, payload.text.toUTF8, payloadNotice config.target payload⟩

/-- What a command line does; nothing when it is wrong. -/
def perform (words : List String) : m (Option Shown) := do
  match read words with
  | none => return none
  | some .version => return some ⟨0, versionText.toUTF8, ""⟩
  | some .help => return some ⟨0, .empty, ""⟩
  | some .config => return some ⟨0, (Config.standard.text ++ "\n").toUTF8, ""⟩
  | some (.payload source) => return some (← payloadCommand around source)
  | some (.run options) => return some (← runCommand around options)

end

end RobotBench.CommandLine
