import RobotBench.Text.Numeral

/-!
# Command lines

What the words of a command line ask for. Options are written `--name value` or
`--name=value`, flags `--name`; each may be given once. Help and the version are answered
as soon as they are met, so only what stands before them can be wrong.
-/

namespace RobotBench.CommandLine

/-- The options of every command that loads a control program. -/
structure Source where
  target : Option String := none
  config : Option String := none
  deriving DecidableEq

/-- The options of a run. -/
structure RunOptions where
  source : Source := {}
  seed : Option UInt64 := none
  skipCleanup : Bool := false
  maxSteps : Option UInt64 := none
  report : Option String := none
  deriving DecidableEq

/-- What is asked for. -/
inductive Request where
  | version
  | help
  | run (options : RunOptions)
  | payload (source : Source)
  | config
  deriving DecidableEq

/-- A 64-bit number: digits after an optional plus. -/
def word64? (text : String) : Option UInt64 :=
  let digits := match text.toList with
    | '+' :: rest => rest
    | cs => cs
  ((Text.natural? digits).filter fun n => n < UInt64.size).map UInt64.ofNat

/-- A path, which is never empty. -/
def path? (text : String) : Option String := if text = "" then none else some text

/-- A value that is not there yet. -/
def fresh {α : Type} (old : Option α) (new : Option α) : Option (Option α) :=
  match old, new with
  | none, some a => some (some a)
  | _, _ => none

/-- The options with one more. Nothing comes out when there is no such option, when it has
been given before, or when its value is not of its kind. -/
def RunOptions.set? (o : RunOptions) (name value : String) : Option RunOptions :=
  match name with
  | "target" =>
    (fresh o.source.target (path? value)).map fun target => { o with source.target := target }
  | "config" =>
    (fresh o.source.config (path? value)).map fun config => { o with source.config := config }
  | "seed" => (fresh o.seed (word64? value)).map fun seed => { o with seed }
  | "max-steps" => (fresh o.maxSteps (word64? value)).map fun maxSteps => { o with maxSteps }
  | "report" => (fresh o.report (path? value)).map fun report => { o with report }
  | _ => none

/-- The options with one more flag. -/
def RunOptions.flag? (o : RunOptions) (name : String) : Option RunOptions :=
  if name = "skip-cleanup" ∧ !o.skipCleanup then some { o with skipCleanup := true } else none

/-- One word of a command line, as it looks. -/
inductive Word where
  /-- As in `--name`. -/
  | long (name : String)
  /-- As in `--name=value`. -/
  | assigned (name value : String)
  /-- As in `-x`, with any letters after it. -/
  | short (letter : Char)
  /-- Only `--`. -/
  | escape
  | plain (text : String)

/-- The look of a word. -/
def Word.ofString (text : String) : Word :=
  match text.toList with
  | ['-', '-'] => .escape
  | '-' :: '-' :: rest =>
    match rest.dropWhile (· ≠ '=') with
    | [] => .long (String.ofList rest)
    | _ :: value => .assigned (String.ofList (rest.takeWhile (· ≠ '='))) (String.ofList value)
  | '-' :: c :: _ => .short c
  | _ => .plain text

/-- The names that stand alone. -/
def isFlag (name : String) : Bool := name = "skip-cleanup"

/-- What the words after a command ask for, with the options that the command knows. -/
def readOptions (known : List String) (finish : RunOptions → Request) :
    List String → RunOptions → Option Request
  | [], o => some (finish o)
  | word :: rest, o =>
    match Word.ofString word with
    | .escape => if rest = [] then some (finish o) else none
    | .short c => if c = 'h' then some .help else none
    | .plain _ => none
    | .assigned name value =>
      if known.contains name ∧ !isFlag name then
        (o.set? name value).bind (readOptions known finish rest)
      else none
    | .long name =>
      if name = "help" then some .help
      else if !known.contains name then none
      else if isFlag name then (o.flag? name).bind (readOptions known finish rest)
      else match rest with
        | [] => none
        | value :: rest => match Word.ofString value with
          | .plain value => (o.set? name value).bind (readOptions known finish rest)
          | _ => none

/-- The commands by name. -/
def commands : List String := ["run", "payload", "config", "help"]

/-- What a command with the words after it asks for. -/
def readCommand (command : String) (rest : List String) : Option Request :=
  match command with
  | "run" =>
    readOptions ["target", "config", "seed", "skip-cleanup", "max-steps", "report"] .run rest {}
  | "payload" => readOptions ["target", "config"] (fun o => .payload o.source) rest {}
  | "config" => readOptions [] (fun _ => .config) rest {}
  | "help" =>
    match rest with
    | [] => some .help
    | [topic] => if commands.contains topic then some .help else none
    | _ => none
  | _ => none

/-- What a command line asks for, or nothing when it is wrong. -/
def read : List String → Option Request
  | [] => none
  | word :: rest =>
    match Word.ofString word with
    | .plain command => readCommand command rest
    | .short 'V' => some .version
    | .short 'h' => some .help
    | .long "version" => some .version
    | .long "help" => some .help
    | _ => none

end RobotBench.CommandLine
