import RobotBench.Number.Layout

/-!
# JSON documents

Documents as trees and their two texts: `compact` has no blanks, `pretty` puts every item
of an array and every field of an object on a line of its own, two spaces deeper than what
it stands in. Fields keep their order. Strings escape quotes, backslashes and the control
characters below space, and nothing else.
-/

namespace RobotBench

/-- A JSON document. Whole numbers are kept apart from binary64 numbers, whose text always
shows a point or a power of ten. -/
inductive Json where
  | null
  | bool (b : Bool)
  | natural (n : Nat)
  | number (x : Number)
  | text (s : String)
  | array (items : List Json)
  | object (fields : List (String × Json))

namespace Json

/-- The four hexadecimal digits of a control character. -/
def hexPair (c : Char) : List Char :=
  ['0', '0', Nat.digitChar (c.toNat / 16), Nat.digitChar (c.toNat % 16)]

/-- How a character is written inside a string. -/
def escape (c : Char) : List Char :=
  if c = '"' then ['\\', '"']
  else if c = '\\' then ['\\', '\\']
  else if c = '\x08' then ['\\', 'b']
  else if c = '\t' then ['\\', 't']
  else if c = '\n' then ['\\', 'n']
  else if c = '\x0c' then ['\\', 'f']
  else if c = '\r' then ['\\', 'r']
  else if c < ' ' then '\\' :: 'u' :: hexPair c
  else [c]

/-- A string in quotes. -/
def quote (s : String) : List Char := '"' :: (s.toList.flatMap escape ++ ['"'])

/-- The texts of the documents that hold no others. -/
def ofBool (b : Bool) : List Char := if b then "true".toList else "false".toList

/-- A line break and the blanks in front of the next line. -/
def newLine (depth : Nat) : List Char := '\n' :: List.replicate (2 * depth) ' '

/-- Parts with a comma between any two. -/
def commas : List (List Char) → List Char
  | [] => []
  | [part] => part
  | part :: more => part ++ ',' :: commas more

mutual

/-- The text without blanks. -/
def compactChars : Json → List Char
  | null => "null".toList
  | bool b => ofBool b
  | natural n => Nat.toDigits 10 n
  | number x => x.json.toList
  | text s => quote s
  | array items => '[' :: (commas (compactItems items) ++ [']'])
  | object fields => '\x7b' :: (commas (compactFields fields) ++ ['\x7d'])
  termination_by structural document => document

/-- The texts of items without blanks. -/
def compactItems : List Json → List (List Char)
  | [] => []
  | item :: more => compactChars item :: compactItems more
  termination_by structural items => items

/-- The texts of fields without blanks. -/
def compactFields : List (String × Json) → List (List Char)
  | [] => []
  | field :: more => compactField field :: compactFields more
  termination_by structural fields => fields

/-- The text of a field without blanks. -/
def compactField : String × Json → List Char
  | (key, value) => quote key ++ ':' :: compactChars value
  termination_by structural field => field

end

/-- Brackets around parts on lines of their own; no parts stay on one line. -/
def spread (first last : Char) (depth : Nat) (parts : List (List Char)) : List Char :=
  if parts = [] then [first, last]
  else first :: (commas (parts.map fun part => newLine (depth + 1) ++ part) ++
    newLine depth ++ [last])

mutual

/-- The text with every item and field on its own line, inside `depth` others. -/
def prettyChars (depth : Nat) : Json → List Char
  | null => "null".toList
  | bool b => ofBool b
  | natural n => Nat.toDigits 10 n
  | number x => x.json.toList
  | text s => quote s
  | array items => spread '[' ']' depth (prettyItems (depth + 1) items)
  | object fields => spread '\x7b' '\x7d' depth (prettyFields (depth + 1) fields)
  termination_by structural document => document

/-- The texts of items inside `depth` others. -/
def prettyItems (depth : Nat) : List Json → List (List Char)
  | [] => []
  | item :: more => prettyChars depth item :: prettyItems depth more
  termination_by structural items => items

/-- The texts of fields inside `depth` others. -/
def prettyFields (depth : Nat) : List (String × Json) → List (List Char)
  | [] => []
  | field :: more => prettyField depth field :: prettyFields depth more
  termination_by structural fields => fields

/-- The text of a field inside `depth` others. -/
def prettyField (depth : Nat) : String × Json → List Char
  | (key, value) => quote key ++ ':' :: ' ' :: prettyChars depth value
  termination_by structural field => field

end

/-- The text of a document without blanks. -/
def compact (j : Json) : String := String.ofList (compactChars j)

/-- The text of a document on several lines. -/
def pretty (j : Json) : String := String.ofList (prettyChars 0 j)

end Json

end RobotBench
