import RobotBench.Number.Literal

/-!
# The front of a JSON document

A document is read from its bytes one front at a time: a scalar as a whole, and of an array
or object only the opening bracket, so that a reader can refuse a document without having
seen all of it. Bytes outside strings are ASCII; a string is decoded as UTF-8 once its end
is found. `Head.read` gives the front and the bytes after it, or what is malformed.
-/

namespace RobotBench

namespace Json

/-- What can be malformed in a document. -/
inductive SyntaxFault where
  | endInArray
  | endInObject
  | endInString
  | endInValue
  | expectedColon
  | expectedCommaOrBracket
  | expectedCommaOrBrace
  | expectedIdent
  | expectedValue
  | invalidEscape
  | invalidNumber
  | numberOutOfRange
  | invalidCodePoint
  | controlCharacter
  | keyNotString
  | loneSurrogate
  | endOfHexEscape
  | trailingComma
  | trailingCharacters
  deriving DecidableEq

/-- What is malformed, in words. -/
def SyntaxFault.message : SyntaxFault → String
  | endInArray => "EOF while parsing a list"
  | endInObject => "EOF while parsing an object"
  | endInString => "EOF while parsing a string"
  | endInValue => "EOF while parsing a value"
  | expectedColon => "expected `:`"
  | expectedCommaOrBracket => "expected `,` or `]`"
  | expectedCommaOrBrace => "expected `,` or `\x7d`"
  | expectedIdent => "expected ident"
  | expectedValue => "expected value"
  | invalidEscape => "invalid escape"
  | invalidNumber => "invalid number"
  | numberOutOfRange => "number out of range"
  | invalidCodePoint => "invalid unicode code point"
  | controlCharacter => "control character (\\u0000-\\u001F) found while parsing a string"
  | keyNotString => "key must be a string"
  | loneSurrogate => "lone leading surrogate in hex escape"
  | endOfHexEscape => "unexpected end of hex escape"
  | trailingComma => "trailing comma"
  | trailingCharacters => "trailing characters"

/-- Bytes still to be read. -/
abbrev Bytes := List UInt8

/-- The byte of an ASCII character. -/
def byte (c : Char) : UInt8 := c.toNat.toUInt8

/-- A byte that may stand between the parts of a document. -/
def isBlankByte (b : UInt8) : Bool :=
  b = byte ' ' || b = byte '\n' || b = byte '\t' || b = byte '\r'

/-- What follows the blanks. -/
def skipBlanks (bytes : Bytes) : Bytes := bytes.dropWhile isBlankByte

/-- The value of a hexadecimal digit. -/
def hexDigit? (b : UInt8) : Option Nat :=
  if byte '0' ≤ b ∧ b ≤ byte '9' then some (b.toNat - 48)
  else if byte 'a' ≤ b ∧ b ≤ byte 'f' then some (b.toNat - 87)
  else if byte 'A' ≤ b ∧ b ≤ byte 'F' then some (b.toNat - 55)
  else none

/-- The value of four hexadecimal digits, and what follows them. -/
def hexFour : Bytes → Except SyntaxFault (Nat × Bytes)
  | a :: b :: c :: d :: rest =>
    match hexDigit? a, hexDigit? b, hexDigit? c, hexDigit? d with
    | some a, some b, some c, some d => .ok (((a * 16 + b) * 16 + c) * 16 + d, rest)
    | _, _, _, _ => .error .invalidEscape
  | _ => .error .endInString

/-- The second half of a surrogate pair, and what follows it. -/
def lowSurrogate : Bytes → Except SyntaxFault (Nat × Bytes)
  | [] => .error .endInString
  | b :: rest =>
    if b ≠ byte '\\' then .error .endOfHexEscape
    else match rest with
      | [] => .error .endInString
      | u :: rest =>
        if u ≠ byte 'u' then .error .endOfHexEscape
        else match hexFour rest with
          | .error fault => .error fault
          | .ok (low, rest) =>
            if 0xdc00 ≤ low ∧ low ≤ 0xdfff then .ok (low, rest) else .error .loneSurrogate

/-- The character that `\u` stands for, and what follows it. -/
def unicodeEscape (bytes : Bytes) : Except SyntaxFault (Char × Bytes) := do
  let (high, rest) ← hexFour bytes
  if 0xdc00 ≤ high ∧ high ≤ 0xdfff then .error .loneSurrogate
  else if 0xd800 ≤ high ∧ high ≤ 0xdbff then
    let (low, rest) ← lowSurrogate rest
    return (Char.ofNat ((high - 0xd800) * 1024 + (low - 0xdc00) + 0x10000), rest)
  else return (Char.ofNat high, rest)

/-- The character that a one-letter escape stands for. -/
def shortEscape? (b : UInt8) : Option Char :=
  if b = byte '"' then some '"'
  else if b = byte '\\' then some '\\'
  else if b = byte '/' then some '/'
  else if b = byte 'b' then some '\x08'
  else if b = byte 'f' then some '\x0c'
  else if b = byte 'n' then some '\n'
  else if b = byte 'r' then some '\r'
  else if b = byte 't' then some '\t'
  else none

/-- The character after a backslash, and what follows it. -/
def escaped : Bytes → Except SyntaxFault (Char × Bytes)
  | [] => .error .endInString
  | b :: rest =>
    if b = byte 'u' then unicodeEscape rest
    else match shortEscape? b with
      | some c => .ok (c, rest)
      | none => .error .invalidEscape

/-- The bytes of a string up to its closing quote, and what follows it. Every round takes
at least one byte, so `fuel` need not exceed the number of bytes. -/
def stringBytes : Nat → Bytes → ByteArray → Except SyntaxFault (ByteArray × Bytes)
  | 0, _, _ => .error .endInString
  | _, [], _ => .error .endInString
  | fuel + 1, b :: rest, done =>
    if b = byte '"' then .ok (done, rest)
    else if b = byte '\\' then
      match escaped rest with
      | .error fault => .error fault
      | .ok (c, rest) => stringBytes fuel rest (done ++ (String.singleton c).toUTF8)
    else if b < 0x20 then .error .controlCharacter
    else stringBytes fuel rest (done.push b)

/-- The string after an opening quote, and what follows it. -/
def readString (bytes : Bytes) : Except SyntaxFault (String × Bytes) :=
  match stringBytes bytes.length bytes .empty with
  | .error fault => .error fault
  | .ok (content, rest) => match String.fromUTF8? content with
    | some s => .ok (s, rest)
    | none => .error .invalidCodePoint

/-- The front of a document. A negative whole number is kept by its size. -/
inductive Head where
  | null
  | bool (b : Bool)
  | natural (n : Nat)
  | negative (n : Nat)
  | number (x : Number)
  | text (s : String)
  | array
  | object
  deriving DecidableEq

/-- A digit. -/
def isDigitByte (b : UInt8) : Bool := byte '0' ≤ b && b ≤ byte '9'

/-- The digits at the front, and what follows them. -/
def digitBytes (bytes : Bytes) : List Nat × Bytes :=
  ((bytes.takeWhile isDigitByte).map fun b => b.toNat - 48, bytes.dropWhile isDigitByte)

/-- Digits are taken into a significand as long as it stays below `2 ^ 64`; the others are
left over. -/
def keepDigits (significand : Nat) : List Nat → Nat × List Nat
  | [] => (significand, [])
  | d :: more =>
    if significand * 10 + d < UInt64.size then keepDigits (significand * 10 + d) more
    else (significand, d :: more)

/-- The product of a finite number and a power of ten, each rounded first. -/
def timesTen (units power : Nat) : Number :=
  .ofUnits false (units * Number.roundRatio (Nat.pow 10 power * Number.unitsPerOne) 1)
    Number.unitsPerOne

/-- The units of a finite number divided by a power of ten, each rounded first. -/
def overTen (units power : Nat) : Nat :=
  Number.roundRatio (units * Number.unitsPerOne)
    (Number.roundRatio (Nat.pow 10 power * Number.unitsPerOne) 1)

/-- Units scaled down by a power of ten, at most 308 places at a time. -/
def scaleDown (units places : Nat) : Nat :=
  if places ≤ 308 then overTen units places
  else if units = 0 then 0
  else scaleDown (overTen units 308) (places - 308)
  termination_by places

/-- The number of a significand and a power of ten. Both are rounded before they are
combined, so the result may differ from the nearest number in its last bit. -/
def scale (negative : Bool) (significand : Nat) (exponent : Int) :
    Except SyntaxFault Number :=
  let units := Number.roundRatio (significand * Number.unitsPerOne) 1
  let signed (x : Number) : Number := if negative then x.negate else x
  if exponent < 0 then
    .ok (signed (.ofUnits false (scaleDown units (-exponent).toNat) 1))
  else if units = 0 then .ok (.zero negative)
  else if 308 < exponent then .error .numberOutOfRange
  else match timesTen units exponent.toNat with
    | .infinite _ => .error .numberOutOfRange
    | x => .ok (signed x)

/-- The digits after a point, if there is one, and what follows them. -/
def fractionBytes : Bytes → Except SyntaxFault (Option (List Nat) × Bytes)
  | [] => .ok (none, [])
  | b :: rest =>
    if b = byte '.' then
      match digitBytes rest with
      | ([], []) => .error .endInValue
      | ([], _) => .error .invalidNumber
      | (digits, rest) => .ok (some digits, rest)
    else .ok (none, b :: rest)

/-- A sign in front of the digits of an exponent. -/
def exponentSign : Bytes → Bool × Bytes
  | [] => (false, [])
  | b :: rest =>
    if b = byte '-' then (true, rest)
    else if b = byte '+' then (false, rest)
    else (false, b :: rest)

/-- The power of ten at the end of a number, if there is one, and what follows it. -/
def exponentBytes : Bytes → Except SyntaxFault (Option (Bool × List Nat) × Bytes)
  | [] => .ok (none, [])
  | b :: rest =>
    if b = byte 'e' ∨ b = byte 'E' then
      let (negative, rest) := exponentSign rest
      match digitBytes rest with
      | ([], []) => .error .endInValue
      | ([], _) => .error .invalidNumber
      | (digits, rest) => .ok (some (negative, digits), rest)
    else .ok (none, b :: rest)

/-- The natural number of a list of digits. -/
def ofDigits (digits : List Nat) : Nat := digits.foldl (fun n d => 10 * n + d) 0

/-- The front that the digits of a whole number make. Below zero the range of 64-bit
integers is kept; what is outside the ranges, and a negative zero, is a number. -/
def wholeHead (negative : Bool) (digits : List Nat) : Except SyntaxFault Head :=
  let (significand, dropped) := keepDigits 0 digits
  if dropped ≠ [] then (scale negative significand dropped.length).map .number
  else if !negative then .ok (.natural significand)
  else if significand = 0 ∨ UInt64.size / 2 < significand then
    (scale true significand 0).map .number
  else .ok (.negative significand)

/-- The front that a number with a fraction or a power of ten makes. -/
def fractionHead (negative : Bool) (whole fraction : List Nat)
    (power : Option (Bool × List Nat)) : Except SyntaxFault Head :=
  let (significand, dropped) := keepDigits 0 whole
  let (significand, ignored) := keepDigits significand fraction
  let exponent : Int := dropped.length - (fraction.length - ignored.length : Nat)
  match power with
  | none => (scale negative significand exponent).map .number
  | some (below, digits) =>
    let size := ofDigits digits
    if 2147483648 ≤ size then
      if significand ≠ 0 ∧ !below then .error .numberOutOfRange
      else .ok (.number (.zero negative))
    else (scale negative significand (if below then exponent - size else exponent + size)).map
      .number

/-- The number after an optional minus, and what follows it. -/
def readNumber (negative : Bool) (bytes : Bytes) : Except SyntaxFault (Head × Bytes) := do
  match digitBytes bytes with
  | ([], []) => .error .endInValue
  | ([], _) => .error .invalidNumber
  | (0 :: _ :: _, _) => .error .invalidNumber
  | (whole, rest) =>
    let (fraction, rest) ← fractionBytes rest
    let (power, rest) ← exponentBytes rest
    match fraction, power with
    | none, none => return (← wholeHead negative whole, rest)
    | fraction, power => return (← fractionHead negative whole (fraction.getD []) power, rest)

/-- What follows the given bytes. -/
def expectBytes : Bytes → Bytes → Except SyntaxFault Bytes
  | [], bytes => .ok bytes
  | _ :: _, [] => .error .endInValue
  | e :: expected, b :: rest =>
    if b = e then expectBytes expected rest else .error .expectedIdent

/-- The front of the document after any blanks, and what follows it. -/
def Head.read (bytes : Bytes) : Except SyntaxFault (Head × Bytes) :=
  match skipBlanks bytes with
  | [] => .error .endInValue
  | b :: rest =>
    if b = byte 'n' then (expectBytes ("ull".toList.map byte) rest).map (.null, ·)
    else if b = byte 't' then (expectBytes ("rue".toList.map byte) rest).map (.bool true, ·)
    else if b = byte 'f' then (expectBytes ("alse".toList.map byte) rest).map (.bool false, ·)
    else if b = byte '-' then readNumber true rest
    else if isDigitByte b then readNumber false (b :: rest)
    else if b = byte '"' then (readString rest).map fun (s, rest) => (.text s, rest)
    else if b = byte '[' then .ok (.array, rest)
    else if b = byte '\x7b' then .ok (.object, rest)
    else .error .expectedValue

end Json

end RobotBench
