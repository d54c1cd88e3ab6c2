import RobotBench.Config.Reader

/-!
# A reader of whole documents

`Json.read` reads the document that a text holds, whatever its layout. It goes front by front
as the reader of settings does, but it refuses no kind of value, and it takes a numeral at its
exact value, so that a number is the one nearest to what is written.
-/

namespace RobotBench.Json

/-! ## Numerals -/

/-- The power of ten that is written; nothing written means zero. -/
def powerOf : Option (Bool × List Nat) → Int
  | none => 0
  | some (below, digits) => if below then -ofDigits digits else ofDigits digits

/-- The decimal that is written with these digits. -/
def decimalOf (whole fraction : List Nat) (power : Option (Bool × List Nat)) : Decimal :=
  ⟨ofDigits (whole ++ fraction), powerOf power - fraction.length⟩

/-- Digits alone are a whole number. A sign, a point or a power of ten makes a number. -/
def numeral (negative : Bool) (whole : List Nat) (fraction : Option (List Nat))
    (power : Option (Bool × List Nat)) : Json :=
  match negative, fraction, power with
  | false, none, none => .natural (ofDigits whole)
  | _, _, _ => .number ((decimalOf whole (fraction.getD []) power).toNumber negative)

/-- The numeral after an optional minus, and what follows it. -/
def readNumeral (negative : Bool) (bytes : Bytes) : Except SyntaxFault (Json × Bytes) := do
  match digitBytes bytes with
  | ([], []) => .error .endInValue
  | ([], _) => .error .invalidNumber
  | (0 :: _ :: _, _) => .error .invalidNumber
  | (whole, rest) =>
    let (fraction, rest) ← fractionBytes rest
    let (power, rest) ← exponentBytes rest
    return (numeral negative whole fraction power, rest)

/-! ## Series -/

/-- Reads the items of an array up to its closing bracket. Every item takes at least one byte,
so `fuel` need not exceed the number of bytes. -/
def readItems {α : Type} (item : Bytes → Except ReadFault (α × Bytes)) :
    Nat → Bool → Bytes → Except ReadFault (List α × Bytes)
  | 0, _, _ => .error (.malformed .endInArray)
  | fuel + 1, first, bytes => do
    match ← ConfigField.nextItem first bytes with
    | (false, rest) => return ([], rest)
    | (true, rest) =>
      let (a, rest) ← item rest
      let (more, rest) ← readItems item fuel false rest
      return (a :: more, rest)

/-- Reads the fields of an object up to its closing brace. A field is taken into account by
`field`, which is given its key and the bytes from the colon on. -/
def readMembers {α : Type} (field : α → String → Bytes → Except ReadFault (α × Bytes)) :
    Nat → Bool → α → Bytes → Except ReadFault (α × Bytes)
  | 0, _, _, _ => .error (.malformed .endInObject)
  | fuel + 1, first, a, bytes => do
    match ← ConfigDraft.nextKey first bytes with
    | (none, rest) => return (a, rest)
    | (some key, rest) =>
      let (a, rest) ← field a key rest
      readMembers field fuel false a rest

/-! ## Documents -/

/-- Puts a field behind those before it. -/
def member (value : Bytes → Except ReadFault (Json × Bytes)) (fields : List (String × Json))
    (key : String) (bytes : Bytes) : Except ReadFault (List (String × Json) × Bytes) := do
  let (document, rest) ← value (← ConfigDraft.colon bytes)
  return (fields ++ [(key, document)], rest)

/-- The document that a front begins, and what follows it. What stands in it is read by
`value`. -/
def ofHead (value : Bytes → Except ReadFault (Json × Bytes)) (bytes : Bytes) :
    Head → Except ReadFault (Json × Bytes)
  | .null => .ok (.null, bytes)
  | .bool b => .ok (.bool b, bytes)
  | .natural n => .ok (.natural n, bytes)
  | .negative n => .ok (.number (Decimal.toNumber true ⟨n, 0⟩), bytes)
  | .number x => .ok (.number x, bytes)
  | .text s => .ok (.text s, bytes)
  | .array => do
    let (items, rest) ← readItems value (bytes.length + 1) true bytes
    return (.array items, ← ConfigField.closeArray rest)
  | .object => do
    let (fields, rest) ← readMembers (member value) (bytes.length + 1) true [] bytes
    return (.object fields, rest)

/-- The document at the front of the bytes, and what follows it. Documents stand in one another
no deeper than there are bytes, so `fuel` need not exceed their number. -/
def readValue : Nat → Bytes → Except ReadFault (Json × Bytes)
  | 0, _ => .error (.malformed .endInValue)
  | fuel + 1, bytes =>
    match skipBlanks bytes with
    | [] => .error (.malformed .endInValue)
    | b :: rest =>
      if b = byte '-' then (readNumeral true rest).mapError .malformed
      else if isDigitByte b then (readNumeral false (b :: rest)).mapError .malformed
      else do
        let (head, rest) ← ConfigField.front (b :: rest)
        ofHead (readValue fuel) rest head

/-- The document that bytes hold. Nothing but blanks may follow it. -/
def read (bytes : Bytes) : Except ReadFault Json := do
  let (document, rest) ← readValue (bytes.length + 1) bytes
  match skipBlanks rest with
  | [] => return document
  | _ => throw (.malformed .trailingCharacters)

end RobotBench.Json
