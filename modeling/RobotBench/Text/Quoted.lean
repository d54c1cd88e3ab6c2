import RobotBench.Text.Hidden

/-!
# Quoted text in messages

A text between double quotes with every character visible: quotes, backslashes and the
common control characters have short escapes, and other characters that do not show are
written by number.
-/

namespace RobotBench.Text

/-- How a character is written inside quotes. -/
def showChar (c : Char) : List Char :=
  if c = '\x00' then ['\\', '0']
  else if c = '\t' then ['\\', 't']
  else if c = '\r' then ['\\', 'r']
  else if c = '\n' then ['\\', 'n']
  else if c = '"' then ['\\', '"']
  else if c = '\\' then ['\\', '\\']
  else if isHidden c then
    '\\' :: 'u' :: '\x7b' :: (Nat.toDigits 16 c.toNat ++ ['\x7d'])
  else [c]

/-- The text between quotes, every character visible. -/
def quoted (text : String) : String :=
  String.ofList ('"' :: (text.toList.flatMap showChar ++ ['"']))

end RobotBench.Text
