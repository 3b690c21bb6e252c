import Quoteboard.Json.Error

/-!
# Strings as written

A string of a document as it is written: its characters, with hexadecimal escapes kept as 16-bit
units, and the way it ends. Only decoding asks that surrogate units come in pairs.
-/

namespace Quoteboard.Json

/-- One element of a string as written. -/
inductive Piece where
  /-- A character that stands for itself, or a named escape. -/
  | char (c : Char)
  /-- A `\u` escape with four hexadecimal digits. -/
  | unit (n : Nat)
  deriving DecidableEq, Repr

/-- How a string ends. -/
inductive TextEnd where
  | closed
  /-- The document ends first, possibly inside an escape. -/
  | cut
  | controlCharacter
  /-- A backslash before a character that names no escape. -/
  | unknownEscape
  /-- A `\u` escape without four hexadecimal digits. -/
  | badDigits
  deriving DecidableEq, Repr

/-- A string as written. -/
structure RawText where
  pieces : List Piece
  ending : TextEnd
  deriving DecidableEq, Repr

/-- The value of a hexadecimal digit. -/
def hexDigit? (c : Char) : Option Nat :=
  if '0' ≤ c && c ≤ '9' then some (c.toNat - '0'.toNat)
  else if 'a' ≤ c && c ≤ 'f' then some (c.toNat - 'a'.toNat + 10)
  else if 'A' ≤ c && c ≤ 'F' then some (c.toNat - 'A'.toNat + 10)
  else none

/-- The 16-bit unit of four hexadecimal digits. -/
def hexUnit? (a b c d : Char) : Option Nat := do
  let a ← hexDigit? a
  let b ← hexDigit? b
  let c ← hexDigit? c
  let d ← hexDigit? d
  pure (((a * 16 + b) * 16 + c) * 16 + d)

/-- The character that an escape names. -/
def namedEscape? : Char → Option Char
  | '"' => some '"'
  | '\\' => some '\\'
  | '/' => some '/'
  | 'b' => some '\x08'
  | 'f' => some '\x0c'
  | 'n' => some '\n'
  | 'r' => some '\r'
  | 't' => some '\t'
  | _ => none

/-- Whether at least four bytes of UTF-8 are left. -/
def hasFourBytes (cs : List Char) : Bool :=
  4 ≤ (cs.take 4).foldl (fun n c ↦ n + c.utf8Size) 0

/-- Put a piece in front of a string. -/
def RawText.cons (p : Piece) (t : RawText) : RawText :=
  { t with pieces := p :: t.pieces }

/-- Read a string from behind its opening quote; gives the string and what follows it. -/
def RawText.scan : List Char → RawText × List Char
  | [] => (⟨[], .cut⟩, [])
  | '"' :: rest => (⟨[], .closed⟩, rest)
  | '\\' :: 'u' :: rest =>
    if hasFourBytes rest then
      match rest with
      | a :: b :: c :: d :: more =>
        match hexUnit? a b c d with
        | some n => let (t, after) := scan more; (t.cons (.unit n), after)
        | none => (⟨[], .badDigits⟩, rest)
      | _ => (⟨[], .badDigits⟩, rest)
    else (⟨[], .cut⟩, [])
  | '\\' :: c :: rest =>
    match namedEscape? c with
    | some e => let (t, after) := scan rest; (t.cons (.char e), after)
    | none => (⟨[], .unknownEscape⟩, rest)
  | ['\\'] => (⟨[], .cut⟩, [])
  | c :: rest =>
    if c < ' ' then (⟨[], .controlCharacter⟩, rest)
    else let (t, after) := scan rest; (t.cons (.char c), after)

/-- Whether a unit is the first of a surrogate pair. -/
def isHighSurrogate (n : Nat) : Bool :=
  0xD800 ≤ n && n ≤ 0xDBFF

/-- Whether a unit is the second of a surrogate pair. -/
def isLowSurrogate (n : Nat) : Bool :=
  0xDC00 ≤ n && n ≤ 0xDFFF

/-- The character that a surrogate pair encodes. -/
def pairedChar (high low : Nat) : Char :=
  Char.ofNat (0x10000 + (high - 0xD800) * 0x400 + (low - 0xDC00))

/-- Why a string with this end is refused, if it is. -/
def TextEnd.error? : TextEnd → Option Error
  | .closed => none
  | .cut => some .cutText
  | .controlCharacter => some .controlCharacter
  | .unknownEscape => some .invalidEscape
  | .badDigits => some .invalidEscape

/-- Why a string is refused that ends this way behind the first of a surrogate pair. -/
def TextEnd.errorInPair : TextEnd → Error
  | .cut => .cutText
  | .badDigits => .invalidEscape
  | _ => .unpairedSurrogate

/-- The characters of a string as written; surrogate units have to pair. -/
def decodePieces (ending : TextEnd) : List Piece → Except Error (List Char)
  | [] =>
    match ending.error? with
    | some e => .error e
    | none => .ok []
  | .char c :: rest => (decodePieces ending rest).map (c :: ·)
  | .unit n :: rest =>
    if isLowSurrogate n then .error .loneSurrogate
    else if isHighSurrogate n then
      match rest with
      | .unit m :: more =>
        if isLowSurrogate m then (decodePieces ending more).map (pairedChar n m :: ·)
        else .error .loneSurrogate
      | .char _ :: _ => .error .unpairedSurrogate
      | [] => .error ending.errorInPair
    else (decodePieces ending rest).map (Char.ofNat n :: ·)

/-- The string that is written. -/
def RawText.decode (t : RawText) : Except Error String :=
  (decodePieces t.ending t.pieces).map String.ofList

/-- Pass over a string: units need not pair. -/
def RawText.skip (t : RawText) : Except Error Unit :=
  match t.ending.error? with
  | some e => .error e
  | none => .ok ()

end Quoteboard.Json
