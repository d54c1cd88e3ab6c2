import RobotBench.Pattern
import RobotBench.Text.Blank
import RobotBench.Text.Lines
import RobotBench.Text.Quoted

/-!
# Payloads

A control program is a header of declarations followed by its payload. The header ends with
the last line that contains a marker; without such a line the whole program is payload.
Markers are plain texts, found by a pattern that has to be compiled first. The payload keeps the
line numbers of the program.
-/

namespace RobotBench

/-- Why texts are no markers. -/
inductive MarkerFault where
  | noMarker
  | blankMarker (marker : String)
  | badPattern (cause : String)
  deriving DecidableEq

/-- What is wrong with markers, in words. -/
def MarkerFault.message : MarkerFault → String
  | noMarker => "at least one import marker is required"
  | blankMarker marker => s!"import marker {Text.quoted marker} is blank"
  | badPattern _ => "compile import marker pattern"

/-- The messages of a fault, outermost first. -/
def MarkerFault.messages (fault : MarkerFault) : List String :=
  match fault with
  | badPattern cause => [fault.message, cause]
  | _ => [fault.message]

/-- The texts that mark lines of a header. -/
structure Markers where
  texts : List String

namespace Markers

/-- Markers from a list with at least one text and no blank one, whose pattern compiles. -/
def ofList (texts : List String) (compile : Pattern.Compiler := Pattern.bounded) :
    Except MarkerFault Markers :=
  if texts = [] then .error .noMarker
  else match texts.find? Text.allBlank with
    | some marker => .error (.blankMarker marker)
    | none => match compile (Pattern.anyOf texts) with
      | .error cause => .error (.badPattern cause)
      | .ok () => .ok ⟨texts⟩

/-- The characters contain the others as a connected part. -/
def isPartOf (part : List Char) : List Char → Bool
  | [] => part.isEmpty
  | c :: rest => part.isPrefixOf (c :: rest) || isPartOf part rest

/-- A line contains one of the markers. -/
def matchChars (m : Markers) (line : List Char) : Bool :=
  m.texts.any fun marker => isPartOf marker.toList line

/-- A text contains one of the markers. -/
def appearIn (m : Markers) (line : String) : Bool := m.matchChars line.toList

end Markers

/-- The part of a program to run. -/
structure Payload where
  /-- The index of the last marker line, counted from zero. -/
  cutIndex : Option Nat
  /-- The number of the payload's first line in the program, counted from one. -/
  firstLine : Nat
  text : String
  deriving DecidableEq

/-- The number of lines of the payload. -/
def Payload.lineCount (p : Payload) : Nat := (Text.lines p.text.toList).length

/-- The index of the last item that passes a test. -/
def lastIndex? {α : Type} (test : α → Bool) : List α → Option Nat
  | [] => none
  | a :: rest => match lastIndex? test rest with
    | some k => some (k + 1)
    | none => if test a then some 0 else none

/-- A program: its lines with their breaks. -/
structure Program where
  lines : List (List Char)

namespace Program

/-- The program that a text is. -/
def ofText (text : String) : Program := ⟨Text.pieces text.toList⟩

/-- The number of lines of the program. -/
def lineCount (p : Program) : Nat := p.lines.length

/-- The index of the last line with a marker. -/
def lastMarker? (m : Markers) (p : Program) : Option Nat := lastIndex? m.matchChars p.lines

/-- What follows the last line with a marker. -/
def payload (m : Markers) (p : Program) : Payload :=
  let cutIndex := p.lastMarker? m
  let start := match cutIndex with
    | some k => k + 1
    | none => 0
  ⟨cutIndex, start + 1, String.ofList (p.lines.drop start).flatten⟩

end Program

end RobotBench
