import RobotBench.Config.Basic
import RobotBench.Json.Head

/-!
# Reading settings

Settings are read from a JSON object, field by field in the order of the text, or from an
array that lists them in their own order. The first problem ends the reading: whatever
comes after it is not looked at. Fields that are missing take their defaults, only the
schema version has none.
-/

namespace RobotBench

open Json

/-- The settings by name. -/
inductive ConfigField where
  | schemaVersion
  | target
  | markers
  | engine
  | cleanupTimeout
  | seed
  | entryPoint
  | maxSteps
  deriving DecidableEq

namespace ConfigField

/-- The key of a setting. -/
def key : ConfigField → String
  | schemaVersion => "schema_version"
  | target => "target"
  | markers => "import_markers"
  | engine => "engine_process"
  | cleanupTimeout => "cleanup_timeout_ms"
  | seed => "seed"
  | entryPoint => "entry_point"
  | maxSteps => "max_steps"

/-- All settings in order. -/
def all : List ConfigField :=
  [schemaVersion, target, markers, engine, cleanupTimeout, seed, entryPoint, maxSteps]

/-- The setting of a key. -/
def ofKey? (text : String) : Option ConfigField := all.find? fun field => field.key = text

end ConfigField

/-- Why a text holds no settings. -/
inductive ReadFault where
  | malformed (fault : SyntaxFault)
  /-- A value of another kind than the one expected. -/
  | wrongType (found : Head) (expected : String)
  /-- A whole number outside its range. -/
  | outOfRange (found : Head) (expected : String)
  | unknownField (key : String)
  | duplicateField (field : ConfigField)
  | missingField (field : ConfigField)
  | emptyArray
  deriving DecidableEq

/-- What stands at the front of a value, in words. -/
def Json.Head.message : Head → String
  | .null => "null"
  | .bool b => if b then "boolean `true`" else "boolean `false`"
  | .natural n => s!"integer `{n}`"
  | .negative n => s!"integer `-{n}`"
  | .number x => s!"floating point `{x.json}`"
  | .text s => "string " ++ Text.quoted s
  | .array => "sequence"
  | .object => "map"

/-- The record that settings are, in words. -/
def ConfigField.recordName : String := "struct HarnessConfig"

/-- Why a text holds no settings, in words. -/
def ReadFault.message : ReadFault → String
  | malformed fault => fault.message
  | wrongType found expected => s!"invalid type: {found.message}, expected {expected}"
  | outOfRange found expected => s!"invalid value: {found.message}, expected {expected}"
  | unknownField key =>
    let keys := ", ".intercalate (ConfigField.all.map fun field => "`" ++ field.key ++ "`")
    s!"unknown field `{key}`, expected one of {keys}"
  | duplicateField field => s!"duplicate field `{field.key}`"
  | missingField field => s!"missing field `{field.key}`"
  | emptyArray =>
    s!"invalid length 0, expected {ConfigField.recordName} with {ConfigField.all.length} elements"

namespace ConfigField

/-- The front of the next value. -/
def front (bytes : Bytes) : Except ReadFault (Head × Bytes) :=
  match Head.read bytes with
  | .ok step => .ok step
  | .error fault => .error (.malformed fault)

/-- A whole number below a bound. -/
def natural (bound : Nat) (expected : String) : Head → Except ReadFault Nat
  | .natural n => if n < bound then .ok n else .error (.outOfRange (.natural n) expected)
  | .negative n => .error (.outOfRange (.negative n) expected)
  | head => .error (.wrongType head expected)

/-- A 32-bit word. -/
def word32 (head : Head) : Except ReadFault UInt32 :=
  (natural UInt32.size "u32" head).map UInt32.ofNat

/-- A 64-bit word. -/
def word64 (head : Head) : Except ReadFault UInt64 :=
  (natural UInt64.size "u64" head).map UInt64.ofNat

/-- A string. -/
def string (expected : String) : Head → Except ReadFault String
  | .text s => .ok s
  | head => .error (.wrongType head expected)

/-- A value that may be null. -/
def nullable {α : Type} (read : Head → Except ReadFault α) :
    Head → Except ReadFault (Option α)
  | .null => .ok none
  | head => (read head).map some

/-- Whether another item follows in an array, and the bytes from there on. -/
def nextItem (first : Bool) (bytes : Bytes) : Except ReadFault (Bool × Bytes) :=
  match skipBlanks bytes with
  | [] => .error (.malformed .endInArray)
  | b :: rest =>
    if b = byte ']' then .ok (false, b :: rest)
    else if first then .ok (true, b :: rest)
    else if b = byte ',' then
      match skipBlanks rest with
      | [] => .error (.malformed .endInValue)
      | c :: rest =>
        if c = byte ']' then .error (.malformed .trailingComma) else .ok (true, c :: rest)
    else .error (.malformed .expectedCommaOrBracket)

/-- What follows the closing bracket of an array. -/
def closeArray (bytes : Bytes) : Except ReadFault Bytes :=
  match skipBlanks bytes with
  | [] => .error (.malformed .endInArray)
  | b :: rest =>
    if b = byte ']' then .ok rest
    else if b = byte ',' then
      match skipBlanks rest with
      | c :: _ =>
        .error (.malformed (if c = byte ']' then .trailingComma else .trailingCharacters))
      | [] => .error (.malformed .trailingCharacters)
    else .error (.malformed .trailingCharacters)

/-- The strings of an array whose opening bracket has been read. Every item takes at least
one byte, so `fuel` need not exceed the number of bytes. -/
def strings : Nat → Bool → Bytes → Except ReadFault (List String × Bytes)
  | 0, _, _ => .error (.malformed .endInArray)
  | fuel + 1, first, bytes => do
    match ← nextItem first bytes with
    | (false, rest) => return ([], rest)
    | (true, rest) =>
      let (head, rest) ← front rest
      let s ← string "a string" head
      let (more, rest) ← strings fuel false rest
      return (s :: more, rest)

/-- An array of strings. -/
def stringArray (bytes : Bytes) : Except ReadFault (List String × Bytes) := do
  let (head, rest) ← front bytes
  match head with
  | .array =>
    let (items, rest) ← strings (rest.length + 1) true rest
    return (items, ← closeArray rest)
  | head => throw (.wrongType head "a sequence")

end ConfigField

/-- The settings read so far. -/
structure ConfigDraft where
  schemaVersion : Option UInt32 := none
  target : Option String := none
  markers : Option (List String) := none
  engine : Option (Option String) := none
  cleanupTimeout : Option UInt64 := none
  seed : Option (Option UInt64) := none
  entryPoint : Option (Option String) := none
  maxSteps : Option (Option UInt64) := none

namespace ConfigDraft

/-- The setting has been read. -/
def has (d : ConfigDraft) : ConfigField → Bool
  | .schemaVersion => d.schemaVersion.isSome
  | .target => d.target.isSome
  | .markers => d.markers.isSome
  | .engine => d.engine.isSome
  | .cleanupTimeout => d.cleanupTimeout.isSome
  | .seed => d.seed.isSome
  | .entryPoint => d.entryPoint.isSome
  | .maxSteps => d.maxSteps.isSome

/-- Reads a value that the front alone decides. -/
def scalar {α : Type} (bytes : Bytes) (read : Head → Except ReadFault α)
    (store : α → ConfigDraft) : Except ReadFault (ConfigDraft × Bytes) := do
  let (head, rest) ← ConfigField.front bytes
  return (store (← read head), rest)

/-- Reads the value of a setting. -/
def readField (d : ConfigDraft) (bytes : Bytes) :
    ConfigField → Except ReadFault (ConfigDraft × Bytes)
  | .schemaVersion =>
    scalar bytes ConfigField.word32 fun n => { d with schemaVersion := some n }
  | .target =>
    scalar bytes (ConfigField.string "path string") fun s => { d with target := some s }
  | .markers => do
    let (items, rest) ← ConfigField.stringArray bytes
    return ({ d with markers := some items }, rest)
  | .engine =>
    scalar bytes (ConfigField.nullable (ConfigField.string "a string"))
      fun s => { d with engine := some s }
  | .cleanupTimeout =>
    scalar bytes ConfigField.word64 fun n => { d with cleanupTimeout := some n }
  | .seed =>
    scalar bytes (ConfigField.nullable ConfigField.word64) fun n => { d with seed := some n }
  | .entryPoint =>
    scalar bytes (ConfigField.nullable (ConfigField.string "a string"))
      fun s => { d with entryPoint := some s }
  | .maxSteps =>
    scalar bytes (ConfigField.nullable ConfigField.word64)
      fun n => { d with maxSteps := some n }

/-- The settings, with defaults for what has not been read; the schema version must have
been. -/
def complete (d : ConfigDraft) : Option Config :=
  d.schemaVersion.map fun schemaVersion => {
    schemaVersion
    target := d.target.getD Config.standard.target
    markers := d.markers.getD Config.standard.markers
    engine := d.engine.getD Config.standard.engine
    cleanupTimeout := d.cleanupTimeout.getD Config.standard.cleanupTimeout
    seed := d.seed.getD Config.standard.seed
    entryPoint := d.entryPoint.getD Config.standard.entryPoint
    maxSteps := d.maxSteps.getD Config.standard.maxSteps }

/-- Reads settings in their own order up to the end of an array. -/
def readItems :
    List ConfigField → Bool → ConfigDraft → Bytes → Except ReadFault (ConfigDraft × Bytes)
  | [], _, d, bytes => .ok (d, bytes)
  | field :: more, first, d, bytes => do
    match ← ConfigField.nextItem first bytes with
    | (false, rest) => return (d, rest)
    | (true, rest) =>
      let (d, rest) ← d.readField rest field
      readItems more false d rest

/-- The key of the next field of an object, or nothing at the closing brace. -/
def nextKey (first : Bool) (bytes : Bytes) : Except ReadFault (Option String × Bytes) :=
  match skipBlanks bytes with
  | [] => .error (.malformed .endInObject)
  | b :: rest =>
    if b = byte '\x7d' then .ok (none, rest)
    else if first then key (b :: rest)
    else if b = byte ',' then
      match skipBlanks rest with
      | [] => .error (.malformed .endInValue)
      | c :: rest =>
        if c = byte '\x7d' then .error (.malformed .trailingComma) else key (c :: rest)
    else .error (.malformed .expectedCommaOrBrace)
where
  /-- A key in quotes. -/
  key : Bytes → Except ReadFault (Option String × Bytes)
    | [] => .error (.malformed .endInObject)
    | b :: rest =>
      if b = byte '"' then
        match readString rest with
        | .ok (s, rest) => .ok (some s, rest)
        | .error fault => .error (.malformed fault)
      else .error (.malformed .keyNotString)

/-- What follows the colon after a key. -/
def colon (bytes : Bytes) : Except ReadFault Bytes :=
  match skipBlanks bytes with
  | [] => .error (.malformed .endInObject)
  | b :: rest =>
    if b = byte ':' then .ok rest else .error (.malformed .expectedColon)

/-- Reads the fields of an object up to its closing brace. Every field takes at least one
byte, so `fuel` need not exceed the number of bytes. -/
def readFields : Nat → Bool → ConfigDraft → Bytes → Except ReadFault (ConfigDraft × Bytes)
  | 0, _, _, _ => .error (.malformed .endInObject)
  | fuel + 1, first, d, bytes => do
    match ← nextKey first bytes with
    | (none, rest) => return (d, rest)
    | (some key, rest) =>
      match ConfigField.ofKey? key with
      | none => throw (.unknownField key)
      | some field =>
        if d.has field then throw (.duplicateField field)
        let (d, rest) ← d.readField (← colon rest) field
        readFields fuel false d rest

end ConfigDraft

namespace Config

/-- The settings that bytes hold, and the bytes after them. -/
def readFront (bytes : Bytes) : Except ReadFault (Config × Bytes) := do
  let (head, rest) ← ConfigField.front bytes
  match head with
  | .array =>
    let (d, rest) ← ConfigDraft.readItems ConfigField.all true {} rest
    match d.complete with
    | some c => return (c, ← ConfigField.closeArray rest)
    | none => throw .emptyArray
  | .object =>
    let (d, rest) ← ConfigDraft.readFields (rest.length + 1) true {} rest
    match d.complete with
    | some c => return (c, rest)
    | none => throw (.missingField .schemaVersion)
  | head => throw (.wrongType head ConfigField.recordName)

/-- The settings that a document holds. Nothing but blanks may follow them. -/
def read (document : ByteArray) : Except ReadFault Config := do
  let (c, rest) ← readFront document.data.toList
  match skipBlanks rest with
  | [] => return c
  | _ => throw (.malformed .trailingCharacters)

end Config

end RobotBench
