import Quoteboard.Json.Document

/-!
# Reading a value whole, or passing over it

Both go through a document in order and refuse it at the first fault. A value that is read whole
has all its numbers in range, all its surrogates paired, and a bounded nesting. A value that is
passed over only has to be in order as far as brackets, commas, digits and escapes go.
-/

namespace Quoteboard.Json

/-- A JSON value. -/
inductive Value where
  | null
  | bool (value : Bool)
  | integer (value : Int)
  | real (value : Float)
  | text (value : String)
  | array (items : List Value)
  /-- The members in the order they were written, repeated keys included. -/
  | object (members : List (String × Value))

/-- How many arrays and objects may enclose one another. -/
def maxNesting : Nat := 127

/-- Why a reader refuses a document at a flaw. -/
def Flaw.error : Flaw → Error
  | .cut => .cutValue
  | .notAValue => .expectedValue
  | .misspelt => .expectedKeyword
  | .badNumber => .invalidNumber
  | .cutNumber => .cutValue

/-- Why a document is refused at a flaw that is passed over. -/
def Flaw.skipError : Flaw → Error
  | .cutNumber => .invalidNumber
  | f => f.error

/-- Why a reader refuses an array with this end; a closed one is not refused. -/
def ItemsEnd.error? : ItemsEnd → Option Error
  | .closed => none
  | .cut => some .cutList
  | .noComma => some .expectedListEnd
  | .trailingComma => some .trailingComma

/-- Why an array with this end is refused when it is passed over. -/
def ItemsEnd.skipError? : ItemsEnd → Option Error
  | .trailingComma => some .expectedValue
  | e => e.error?

/-- The key behind which the members end, if they end behind one. -/
def MembersEnd.key? : MembersEnd → Option RawText
  | .badKey key | .cutAfterKey key | .noColon key => some key
  | _ => none

/-- Why a reader that has taken the last key, if there is one, refuses an object with this end; a
closed one is not refused. -/
def MembersEnd.error? : MembersEnd → Option Error
  | .closed => none
  | .cut => some .cutObject
  | .noComma => some .expectedObjectEnd
  | .trailingComma => some .trailingComma
  | .cutAfterComma => some .cutValue
  | .notAKey => some .keyNotText
  | .badKey key => key.ending.error?
  | .cutAfterKey _ => some .cutObject
  | .noColon _ => some .expectedColon

/-- Why an object with this end is refused when it is passed over. -/
def MembersEnd.skipError? : MembersEnd → Option Error
  | .trailingComma => some .keyNotText
  | .cutAfterComma => some .cutObject
  | e => e.error?

/-- Succeed unless there is a cause to refuse. -/
def demand : Option Error → Except Error Unit
  | none => .ok ()
  | some e => .error e

/-- Read the end of an object. -/
def MembersEnd.read (e : MembersEnd) : Except Error Unit := do
  if let some key := e.key? then
    let _ ← key.decode
  demand e.error?

mutual

/-- Pass over a value. -/
def Node.skip : Node → Except Error Unit
  | .null | .bool _ | .number _ => .ok ()
  | .text raw => raw.skip
  | .array items => items.skip
  | .object members => members.skip
  | .flawed flaw => .error flaw.skipError

/-- Pass over the items of an array. -/
def Items.skip : Items → Except Error Unit
  | .stop ending => demand ending.skipError?
  | .more item rest => do
    item.skip
    rest.skip

/-- Pass over the members of an object. -/
def Members.skip : Members → Except Error Unit
  | .stop ending => demand ending.skipError?
  | .more _ value rest => do
    value.skip
    rest.skip

end

/-- Read a number. -/
def Literal.read (l : Literal) : Except Error Number :=
  match l.value? with
  | some n => .ok n
  | none => .error .numberOutOfRange

/-- The value of a number. -/
def Number.toValue : Number → Value
  | .integer n => .integer n
  | .real x => .real x

mutual

/-- Read a value whole; `room` is how many more arrays and objects may enclose one another. -/
def Node.read (room : Nat) : Node → Except Error Value
  | .null => .ok .null
  | .bool b => .ok (.bool b)
  | .number literal => literal.read.map Number.toValue
  | .text raw => raw.decode.map .text
  | .array items =>
    match room with
    | 0 => .error .tooDeep
    | room + 1 => (items.read room).map .array
  | .object members =>
    match room with
    | 0 => .error .tooDeep
    | room + 1 => (members.read room).map .object
  | .flawed flaw => .error flaw.error

/-- Read the items of an array. -/
def Items.read (room : Nat) : Items → Except Error (List Value)
  | .stop ending => (demand ending.error?).map fun _ ↦ []
  | .more item rest => do
    let value ← item.read room
    let values ← rest.read room
    pure (value :: values)

/-- Read the members of an object. -/
def Members.read (room : Nat) : Members → Except Error (List (String × Value))
  | .stop ending => ending.read.map fun _ ↦ []
  | .more key value rest => do
    let name ← key.decode
    let value ← value.read room
    let members ← rest.read room
    pure ((name, value) :: members)

end

end Quoteboard.Json
