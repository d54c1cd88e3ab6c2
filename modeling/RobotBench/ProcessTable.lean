import RobotBench.Files.Basic
import RobotBench.Text.Blank
import RobotBench.Text.Numeral

/-!
# Processes by name

A table of processes as the kernel shows it: a directory for each process, named by its
number, with the short name of the process in one file and its state in another. `find`
lists the live processes of a name in order, and `remaining` those of a list that are
still alive.
-/

namespace RobotBench

/-- A directory of the table and the files in it. -/
structure ProcessEntry where
  directory : String
  comm : Option ByteArray
  stat : Option ByteArray

/-- A table of processes. -/
structure ProcessTable where
  entries : List ProcessEntry

namespace ProcessTable

/-- The length to which the kernel cuts the names of processes. -/
def nameLimit : Nat := 15

/-- The process number that a directory is named by: a 32-bit integer with or without a
sign. -/
def number? (directory : String) : Option Int :=
  let number := match directory.toList with
    | '-' :: digits => (Text.natural? digits).map fun n => -(n : Int)
    | '+' :: digits => (Text.natural? digits).map Int.ofNat
    | digits => (Text.natural? digits).map Int.ofNat
  number.filter fun i => -2147483648 ≤ i ∧ i ≤ 2147483647

/-- A short name is the name of a process cut to the limit in bytes. -/
def nameMatches (comm name : String) : Bool :=
  comm.toUTF8.data.toList = name.toUTF8.data.toList.take nameLimit

/-- The text without the line feeds at its end. -/
def withoutFinalBreaks (text : String) : String :=
  String.ofList (text.toList.reverse.dropWhile (· = '\n')).reverse

/-- What follows the last closing parenthesis. -/
def afterLastParen? (cs : List Char) : Option (List Char) :=
  if ')' ∈ cs then some (cs.reverse.takeWhile (· ≠ ')')).reverse else none

/-- The state in the text of a state file: the first word after the command's name. -/
def state? (stat : String) : Option String :=
  ((afterLastParen? stat.toList).bind Text.firstWord?).map String.ofList

/-- The state is that of a process that still runs. -/
def isRunning (state : Option String) : Bool :=
  match state with
  | none => false
  | some s => s ≠ "Z" ∧ s ≠ "X"

/-- The content of a file that is text. -/
def text? (content : Option ByteArray) : Option String := content.bind String.fromUTF8?

/-- The process of a number runs, as its state file says. -/
def isAlive (table : ProcessTable) (number : Int) : Bool :=
  match table.entries.find? fun entry => entry.directory = toString number with
  | none => false
  | some entry => match text? entry.stat with
    | none => false
    | some stat => isRunning (state? stat)

/-- The number of an entry that is a live process of the name. -/
def candidate? (table : ProcessTable) (own : Int) (name : String) (entry : ProcessEntry) :
    Option Int :=
  match number? entry.directory, text? entry.comm with
  | some number, some comm =>
    if number ≠ own ∧ nameMatches (withoutFinalBreaks comm) name ∧ table.isAlive number then
      some number
    else none
  | _, _ => none

/-- The numbers of the live processes of a name in ascending order, except for one's own. -/
def find (table : ProcessTable) (own : Int) (name : String) : List Int :=
  (table.entries.filterMap (table.candidate? own name)).mergeSort

/-- The processes of a list that still run, in the order of the list. -/
def remaining (table : ProcessTable) (numbers : List Int) : List Int :=
  numbers.filter table.isAlive

end ProcessTable

end RobotBench
