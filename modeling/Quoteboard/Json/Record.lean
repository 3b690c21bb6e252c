import Quoteboard.Json.Value

/-!
# Reading values of a known kind

Integers, doubles, sequences and records are read from a document in order, and the first fault
refuses it. A record is an object, whose members may come in any order and among members that
are passed over, or an array of its fields in the order of their declaration.
-/

namespace Quoteboard.Json

open Quoteboard.Text

/-- A reader of a value; `room` is how many more arrays and objects may enclose one another. -/
abbrev Reader (α : Type) := (room : Nat) → Node → Except Error α

/-- What a value is called in a message, unless it is faulty itself. -/
def Node.found : Node → Except Error Found
  | .null => .ok .null
  | .bool b => .ok (.bool b)
  | .number literal => literal.read.map fun
    | .integer n => .integer n
    | .real x => .real x
  | .text raw => raw.decode.map .text
  | .array _ => .ok .sequence
  | .object _ => .ok .map
  | .flawed flaw => .error flaw.error

/-- Refuse a value of another kind. -/
def Node.mismatch {α : Type} (node : Node) (expected : Expected) : Except Error α := do
  let found ← node.found
  .error (.invalidType found expected)

/-- Read a signed 64-bit integer. A double is never one, whatever its value. -/
def readInt64 : Reader Int := fun _ node ↦
  match node with
  | .number literal => do
    match ← literal.read with
    | .integer n => if fitsInt64 n then .ok n else .error (.invalidValue n .int64)
    | .real x => .error (.invalidType (.real x) .int64)
  | _ => node.mismatch .int64

/-- Read a double; an integer counts as the double nearest to it. -/
def readDouble : Reader Float := fun _ node ↦
  match node with
  | .number literal => literal.read.map fun
    | .integer n => doubleOfInt n
    | .real x => x
  | _ => node.mismatch .double

/-- Read the items of a sequence. -/
def Items.readAll {α : Type} (item : Node → Except Error α) : Items → Except Error (List α)
  | .stop ending => (demand ending.error?).map fun _ ↦ []
  | .more node rest => do
    let value ← item node
    let values ← rest.readAll item
    pure (value :: values)

/-- Read a sequence. -/
def readSequence {α : Type} (item : Reader α) : Reader (List α) := fun room node ↦
  match node with
  | .array items =>
    match room with
    | 0 => .error .tooDeep
    | room + 1 => items.readAll (item room)
  | _ => node.mismatch .sequence

/-- Read a value that may be `null`. -/
def readOptional {α : Type} (value : Reader α) : Reader (Option α) := fun room node ↦
  match node with
  | .null => .ok none
  | _ => (value room node).map some

/-- A field of a record that is read into a draft `δ`. -/
structure Field (δ : Type) where
  name : String
  /-- Whether the draft holds this field already. -/
  isSet : δ → Bool
  /-- Read the field's value into the draft. -/
  read : Reader (δ → δ)
  /-- Whether an array may end before this field. -/
  mayEndBefore : Bool

/-- A record `α` that is read through a draft `δ`. -/
structure Schema (δ α : Type) where
  name : String
  fields : List (Field δ)
  blank : δ
  /-- The record, unless the draft lacks a field that it needs. -/
  finish : δ → Except Error α

/-- A field that has to be there. -/
def required {α : Type} (name : String) : Option α → Except Error α
  | some value => .ok value
  | none => .error (.missingField name)

namespace Schema

variable {δ α : Type}

/-- The field with this name, refused if the draft holds it already. -/
def field? (s : Schema δ α) (draft : δ) (name : String) : Except Error (Option (Field δ)) :=
  match s.fields.find? (·.name = name) with
  | some field => if field.isSet draft then .error (.duplicateField name) else .ok (some field)
  | none => .ok none

/-- Read the members of an object into the draft. -/
def readMembers (s : Schema δ α) (room : Nat) (draft : δ) : Members → Except Error δ
  | .stop ending => do
    if let some key := ending.key? then
      let name ← key.decode
      let _ ← s.field? draft name
    demand ending.error?
    pure draft
  | .more key value rest => do
    let name ← key.decode
    match ← s.field? draft name with
    | some field =>
      let set ← field.read room value
      s.readMembers room (set draft) rest
    | none =>
      value.skip
      s.readMembers room draft rest

/-- Refuse an array that goes on behind the last field. -/
def readArrayEnd : Items → Except Error Unit
  | .stop .closed => .ok ()
  | .stop .cut => .error .cutList
  | .stop .noComma => .error .trailingCharacters
  | .stop .trailingComma => .error .trailingComma
  | .more _ _ => .error .trailingCharacters

/-- Read the items of an array into the fields that are left. -/
def readFields (s : Schema δ α) (room : Nat) (draft : δ) :
    List (Field δ) → Items → Except Error δ
  | [], items => (readArrayEnd items).map fun _ ↦ draft
  | field :: fields, .more value rest => do
    let set ← field.read room value
    s.readFields room (set draft) fields rest
  | field :: fields, .stop ending => do
    demand ending.error?
    if field.mayEndBefore then pure draft
    else
      let length := s.fields.length - (fields.length + 1)
      .error (.invalidLength length s.name s.fields.length)

/-- Read a record. -/
def read (s : Schema δ α) : Reader α := fun room node ↦
  match node with
  | .object members =>
    match room with
    | 0 => .error .tooDeep
    | room + 1 => do
      let draft ← s.readMembers room s.blank members
      s.finish draft
  | .array items =>
    match room with
    | 0 => .error .tooDeep
    | room + 1 => do
      let draft ← s.readFields room s.blank s.fields items
      s.finish draft
  | _ => node.mismatch (.record s.name)

end Schema

/-- Read a whole document; nothing but blanks may follow its value. -/
def readDocument {α : Type} (value : Reader α) (text : String) : Except Error α := do
  let document := Document.scan text.toList
  let result ← value maxNesting document.root
  if document.trailing then .error .trailingCharacters else pure result

end Quoteboard.Json
