/-!
# Requests

A request has a method and a target. A target is a path on this server, a path on a named host, a
host alone, or `*`; a query and a fragment may follow a path. Only the path selects a page, so a
request is read as its method and its path.
-/

namespace Quoteboard.Health

/-- Why a text is not the target of a request. -/
inductive TargetError where
  /-- There is nothing, or nothing after the scheme. -/
  | empty
  /-- The text has more than `maxTargetSize` bytes. -/
  | tooLong
  /-- What stands in front of `://` has more than `maxSchemeSize` characters. -/
  | longScheme
  /-- A character may not stand where it does. -/
  | strayCharacter
  /-- The brackets, colons or percent signs of the host do not fit together, or no host follows the
  last `@`. -/
  | badHost
  /-- Something follows a host alone, or no host stands where one has to. -/
  | badForm
  deriving DecidableEq, Repr

/-- The wording of a refusal. -/
def TargetError.message : TargetError → String
  | .empty => "empty string"
  | .tooLong => "uri too long"
  | .longScheme => "scheme too long"
  | .strayCharacter => "invalid uri character"
  | .badHost => "invalid authority"
  | .badForm => "invalid format"

/-- The longest target, in bytes. -/
def maxTargetSize : Nat := 65534

/-- The longest scheme. -/
def maxSchemeSize : Nat := 64

/-- The most colons in a row of host characters without `]` or `@`. -/
def maxColons : Nat := 8

/-- Whether a character may stand in a scheme. -/
def isSchemeChar (c : Char) : Bool :=
  c.isAlphanum || "+-.~".toList.contains c

/-- Whether a character may stand in a path. -/
def isPathChar (c : Char) : Bool :=
  c = '!' || '$' ≤ c && c ≤ ';' || c = '=' || '@' ≤ c && c ≤ '_' || 'a' ≤ c && c ≤ 'z' ||
    "\"|\x7b\x7d~".toList.contains c || '\x7f' < c

/-- Whether a character may stand in a query. -/
def isQueryChar (c : Char) : Bool :=
  c = '!' || '$' ≤ c && c ≤ ';' || c = '=' || '?' ≤ c && c ≠ '\x7f'

/-- Whether a character may stand anywhere in a host. -/
def isHostChar (c : Char) : Bool :=
  c.isAlphanum || "!$&'()*+,-.;=_~".toList.contains c

/-- Whether a character ends a host. -/
def endsHost (c : Char) : Bool :=
  c = '/' || c = '?' || c = '#'

/-- What counts in the part of a host that has been read. -/
structure HostState where
  /-- Colons since the last `]` or `@`. -/
  colons : Nat
  isOpened : Bool
  isClosed : Bool
  /-- Whether there was a percent sign since the last `]` or `@`. -/
  hasPercent : Bool
  /-- Whether the last character is `@`. -/
  endsInAt : Bool

namespace HostState

/-- Nothing has been read. -/
def start : HostState := ⟨0, false, false, false, false⟩

/-- Read one more character. -/
def next (s : HostState) (c : Char) : Except TargetError HostState :=
  let s := { s with endsInAt := c = '@' }
  match c with
  | ':' => if maxColons ≤ s.colons then .error .badHost else .ok { s with colons := s.colons + 1 }
  | '[' => if s.hasPercent || s.isOpened then .error .badHost else .ok { s with isOpened := true }
  | ']' =>
    if !s.isOpened || s.isClosed then .error .badHost
    else .ok { s with isClosed := true, colons := 0, hasPercent := false }
  | '@' => .ok { s with colons := 0, hasPercent := false }
  | '%' => .ok { s with hasPercent := true }
  | _ => if isHostChar c then .ok s else .error .strayCharacter

/-- Whether a host may end here. -/
def isComplete (s : HostState) : Bool :=
  s.isOpened = s.isClosed && s.colons ≤ 1 && !s.endsInAt && !s.hasPercent

end HostState

/-- Split a host, which may be empty, from what follows it. -/
def splitHost (cs : List Char) : Except TargetError (List Char × List Char) := do
  let host := cs.takeWhile (!endsHost ·)
  let s ← host.foldlM HostState.next HostState.start
  if s.isComplete then .ok (host, cs.dropWhile (!endsHost ·)) else .error .badHost

/-- What follows the scheme and its `://`, if the text has a scheme. A scheme may be empty, but not
if nothing follows it. -/
def afterScheme? (cs : List Char) : Except TargetError (Option (List Char)) :=
  let scheme := cs.takeWhile isSchemeChar
  match cs.drop scheme.length with
  | ':' :: '/' :: '/' :: rest =>
    if scheme.isEmpty && rest.isEmpty then .ok none
    else if maxSchemeSize < scheme.length then .error .longScheme
    else .ok (some rest)
  | _ => .ok none

/-- The path in front of a query and a fragment. -/
def pathBeforeQuery (cs : List Char) : Except TargetError (List Char) :=
  let path := cs.takeWhile fun c ↦ c ≠ '?' && c ≠ '#'
  let query := match cs.drop path.length with
    | '?' :: rest => rest.takeWhile (· ≠ '#')
    | _ => []
  if path.all isPathChar && query.all isQueryChar then .ok path else .error .strayCharacter

theorem ne_of_isPathChar {c : Char} (h : isPathChar c = true) : c ≠ '?' ∧ c ≠ '#' := by
  constructor <;> (rintro rfl; revert h; decide)

/-- A text of path characters is a path, whatever fragment follows it. -/
theorem pathBeforeQuery_append_fragment {path : List Char} (h : ∀ c ∈ path, isPathChar c = true)
    (fragment : List Char) : pathBeforeQuery (path ++ '#' :: fragment) = .ok path := by
  have hp : ∀ c ∈ path, (decide (c ≠ '?') && decide (c ≠ '#')) = true := fun c hc ↦ by
    simpa using ne_of_isPathChar (h c hc)
  have ht : (path ++ '#' :: fragment).takeWhile (fun c ↦ c ≠ '?' && c ≠ '#') = path := by
    rw [List.takeWhile_append_of_pos hp]
    simp
  have hd : (path ++ '#' :: fragment).drop path.length = '#' :: fragment := List.drop_left
  have hall : path.all isPathChar = true := List.all_eq_true.2 h
  simp only [pathBeforeQuery, ht, hd, hall]
  rfl

/-- The path of a target on a named host; the host alone stands for its root. -/
def pathAfterHost (cs : List Char) : Except TargetError (List Char) := do
  if cs.isEmpty then .error .empty
  else
    let (host, rest) ← splitHost cs
    if host.isEmpty then .error .badForm
    else
      let path ← pathBeforeQuery rest
      pure (if path.isEmpty then ['/'] else path)

/-- A host alone has no path. -/
def pathOfHost (cs : List Char) : Except TargetError (List Char) := do
  let (_, rest) ← splitHost cs
  if rest.isEmpty then .ok []
  else if cs.length = 1 then .error .strayCharacter
  else .error .badForm

/-- The path of a target. -/
def targetPath (target : String) : Except TargetError String :=
  if maxTargetSize < target.utf8ByteSize then .error .tooLong
  else String.ofList <$> match target.toList with
    | [] => .error .empty
    | ['*'] => .ok ['*']
    | '/' :: rest => pathBeforeQuery ('/' :: rest)
    | cs => do
      match ← afterScheme? cs with
      | some rest => pathAfterHost rest
      | none => pathOfHost cs

/-- Why a method and a target do not make a request. -/
inductive RequestError where
  /-- The method is not a token. -/
  | badMethod
  | badTarget (cause : TargetError)
  deriving DecidableEq, Repr

/-- A request. -/
structure Request where
  method : String
  path : String
  deriving DecidableEq, Repr

/-- Whether a character may stand in a method. -/
def isMethodChar (c : Char) : Bool :=
  c.isAlphanum || "!#$%&'*+-.^_\x60|~".toList.contains c

/-- Read a request from its method and its target. -/
def Request.ofText (method target : String) : Except RequestError Request := do
  if method.isEmpty || !method.toList.all isMethodChar then .error .badMethod
  else
    let path ← (targetPath target).mapError .badTarget
    pure ⟨method, path⟩

end Quoteboard.Health
