import Quoteboard.Json.Literal
import Quoteboard.Json.RawText

/-!
# Documents as written

A JSON document as far as it can be made out: a tree in which numbers and strings keep their
written form, and which ends, at the first place that fits no reading, in a mark that says what
stands there. Making out a document never fails; whether a mark matters is decided by whoever
reads the tree in order, because a reader may refuse the document at an earlier place.
-/

namespace Quoteboard.Json

open Quoteboard.Text

/-- What stands where a value is missing. -/
inductive Flaw where
  /-- The document ends. -/
  | cut
  /-- A character that begins no value. -/
  | notAValue
  /-- A word that is none of the three keywords. -/
  | misspelt
  /-- A number whose digits are not in order. -/
  | badNumber
  /-- A number that ends with the document. -/
  | cutNumber
  deriving DecidableEq, Repr

/-- How the items of an array end. -/
inductive ItemsEnd where
  | closed
  | cut
  /-- Something other than a comma or the closing bracket follows an item. -/
  | noComma
  /-- The closing bracket follows a comma. -/
  | trailingComma
  deriving DecidableEq, Repr

/-- How the members of an object end. -/
inductive MembersEnd where
  | closed
  | cut
  /-- Something other than a comma or the closing brace follows a member. -/
  | noComma
  /-- The closing brace follows a comma. -/
  | trailingComma
  /-- The document ends behind a comma. -/
  | cutAfterComma
  /-- Something other than a string stands in the place of a key. -/
  | notAKey
  /-- A key that does not end as a string should. -/
  | badKey (key : RawText)
  /-- The document ends behind a key. -/
  | cutAfterKey (key : RawText)
  /-- Something other than a colon follows a key. -/
  | noColon (key : RawText)
  deriving DecidableEq, Repr

mutual

/-- A value as written. -/
inductive Node where
  | null
  | bool (value : Bool)
  | number (literal : Literal)
  | text (raw : RawText)
  | array (items : Items)
  | object (members : Members)
  | flawed (flaw : Flaw)

/-- The items of an array. -/
inductive Items where
  | stop (ending : ItemsEnd)
  | more (item : Node) (rest : Items)

/-- The members of an object. -/
inductive Members where
  | stop (ending : MembersEnd)
  | more (key : RawText) (value : Node) (rest : Members)

end

/-- The blank characters of the format. -/
def isSpace (c : Char) : Bool :=
  c = ' ' || c = '\n' || c = '\t' || c = '\r'

/-- Drop the blank characters in front. -/
def skipSpace (cs : List Char) : List Char :=
  cs.dropWhile isSpace

/-- The digits in front, and what follows them. -/
def scanDigits : List Char → List (Fin 10) × List Char
  | [] => ([], [])
  | c :: rest =>
    match digit? c with
    | some d => let (ds, after) := scanDigits rest; (d :: ds, after)
    | none => ([], c :: rest)

/-- One or more digits in front; none there is a flaw. -/
def scanSomeDigits (cs : List Char) : Except Flaw (List (Fin 10) × List Char) :=
  match scanDigits cs with
  | ([], []) => .error .cutNumber
  | ([], _ :: _) => .error .badNumber
  | (ds, after) => .ok (ds, after)

/-- The digits before the point: a single zero, or digits that begin with another one. -/
def scanWhole (cs : List Char) : Except Flaw (List (Fin 10) × List Char) := do
  let (ds, after) ← scanSomeDigits cs
  match ds with
  | 0 :: _ :: _ => .error .badNumber
  | _ => .ok (ds, after)

/-- The point and the digits behind it, if there is a point. -/
def scanFraction : List Char → Except Flaw (Option (List (Fin 10)) × List Char)
  | '.' :: rest => (scanSomeDigits rest).map fun (ds, after) ↦ (some ds, after)
  | cs => .ok (none, cs)

/-- The exponent, if there is one. -/
def scanExponent : List Char → Except Flaw (Option (Bool × List (Fin 10)) × List Char)
  | c :: rest =>
    if c = 'e' || c = 'E' then
      let (minus, digits) := match rest with
        | '-' :: more => (true, more)
        | '+' :: more => (false, more)
        | _ => (false, rest)
      (scanSomeDigits digits).map fun (ds, after) ↦ (some (minus, ds), after)
    else .ok (none, c :: rest)
  | [] => .ok (none, [])

/-- A number behind its sign, if it has one. -/
def scanNumber (negative : Bool) (cs : List Char) : Except Flaw (Literal × List Char) := do
  let (whole, cs) ← scanWhole cs
  let (fraction, cs) ← scanFraction cs
  let (exponent, cs) ← scanExponent cs
  pure (⟨negative, whole, fraction, exponent⟩, cs)

/-- The rest of a keyword, and what follows it. -/
def scanKeyword : List Char → List Char → Except Flaw (List Char)
  | [], cs => .ok cs
  | _ :: _, [] => .error .cut
  | k :: ks, c :: rest => if k = c then scanKeyword ks rest else .error .misspelt

/-- A node from a scan that may end in a flaw; nothing is read behind a flaw. -/
def Node.ofScan {α : Type} (f : α → Node) :
    Except Flaw (α × List Char) → Node × List Char
  | .ok (a, rest) => (f a, rest)
  | .error flaw => (.flawed flaw, [])

/-- A value that is neither an array nor an object. -/
def Node.scanScalar : List Char → Node × List Char
  | [] => (.flawed .cut, [])
  | 'n' :: rest => Node.ofScan (fun _ ↦ .null) ((scanKeyword ['u', 'l', 'l'] rest).map ((), ·))
  | 't' :: rest => Node.ofScan (fun _ ↦ .bool true) ((scanKeyword ['r', 'u', 'e'] rest).map ((), ·))
  | 'f' :: rest =>
    Node.ofScan (fun _ ↦ .bool false) ((scanKeyword ['a', 'l', 's', 'e'] rest).map ((), ·))
  | '"' :: rest => let (t, after) := RawText.scan rest; (.text t, after)
  | '-' :: rest => Node.ofScan .number (scanNumber true rest)
  | c :: rest =>
    if (digit? c).isSome then Node.ofScan .number (scanNumber false (c :: rest))
    else (.flawed .notAValue, [])

mutual

/-- Make out the value in front; `fuel` bounds the nesting and the number of values. -/
def Node.scan : Nat → List Char → Node × List Char
  | 0, _ => (.flawed .cut, [])
  | fuel + 1, cs =>
    match skipSpace cs with
    | '[' :: rest =>
      match skipSpace rest with
      | [] => (.array (.stop .cut), [])
      | ']' :: after => (.array (.stop .closed), after)
      | inside => let (items, after) := Items.scan fuel inside; (.array items, after)
    | '\x7b' :: rest =>
      match skipSpace rest with
      | [] => (.object (.stop .cut), [])
      | '\x7d' :: after => (.object (.stop .closed), after)
      | inside => let (members, after) := Members.scan fuel inside; (.object members, after)
    | other => Node.scanScalar other

/-- Make out the items of an array from an item on. -/
def Items.scan : Nat → List Char → Items × List Char
  | 0, _ => (.stop .cut, [])
  | fuel + 1, cs =>
    let (item, after) := Node.scan fuel cs
    match skipSpace after with
    | [] => (.more item (.stop .cut), [])
    | ']' :: rest => (.more item (.stop .closed), rest)
    | ',' :: rest =>
      match skipSpace rest with
      | ']' :: _ => (.more item (.stop .trailingComma), [])
      | inside => let (items, rest) := Items.scan fuel inside; (.more item items, rest)
    | _ :: _ => (.more item (.stop .noComma), [])

/-- Make out the members of an object from a key on. -/
def Members.scan : Nat → List Char → Members × List Char
  | 0, _ => (.stop .cut, [])
  | fuel + 1, cs =>
    match cs with
    | '"' :: rest =>
      let (key, after) := RawText.scan rest
      if key.ending = .closed then
        match skipSpace after with
        | [] => (.stop (.cutAfterKey key), [])
        | ':' :: rest =>
          let (value, after) := Node.scan fuel rest
          match skipSpace after with
          | [] => (.more key value (.stop .cut), [])
          | '\x7d' :: rest => (.more key value (.stop .closed), rest)
          | ',' :: rest =>
            match skipSpace rest with
            | [] => (.more key value (.stop .cutAfterComma), [])
            | '\x7d' :: _ => (.more key value (.stop .trailingComma), [])
            | inside =>
              let (members, rest) := Members.scan fuel inside
              (.more key value members, rest)
          | _ :: _ => (.more key value (.stop .noComma), [])
        | _ :: _ => (.stop (.noColon key), [])
      else (.stop (.badKey key), [])
    | _ => (.stop .notAKey, [])

end

/-- A document as written: its value, and whether more than blanks follows it. -/
structure Document where
  root : Node
  trailing : Bool

/-- Make out a document. -/
def Document.scan (cs : List Char) : Document :=
  let (root, rest) := Node.scan (2 * cs.length + 2) cs
  ⟨root, !(skipSpace rest).isEmpty⟩

end Quoteboard.Json
