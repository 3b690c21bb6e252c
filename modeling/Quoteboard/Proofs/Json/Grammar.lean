import Quoteboard.Json.Document

/-!
# The grammar of documents

How a document is spelt, said without the scanner: a relation between trees and texts, with one
rule for each way to write a number, a string, an array or an object. Blanks may stand around every
value and every key, and nowhere else. A tree with a flaw in it is not spelt by any text.
-/

namespace Quoteboard.Json

open Quoteboard.Text

/-- A text of blanks only, possibly of none. -/
def AllSpace (cs : List Char) : Prop := ∀ c ∈ cs, isSpace c = true

/-! ### Numbers -/

/-- The digits before the point: at least one, and no zero in front of another. -/
structure IsWholePart (ds : List (Fin 10)) : Prop where
  some_digit : ds ≠ []
  nil_of_zero : ∀ more, ds = 0 :: more → more = []

/-- The point and the digits behind it, of which there is at least one. -/
inductive FractionSpelt : Option (List (Fin 10)) → List Char → Prop
  | absent : FractionSpelt none []
  | digits {ds : List (Fin 10)} (some_digit : ds ≠ []) :
      FractionSpelt (some ds) ('.' :: ds.map digitChar)

/-- The letter, the sign and the digits of an exponent, of which there is at least one. -/
inductive ExponentSpelt : Option (Bool × List (Fin 10)) → List Char → Prop
  | absent : ExponentSpelt none []
  | bare {e : Char} {ds : List (Fin 10)} (letter : e = 'e' ∨ e = 'E') (some_digit : ds ≠ []) :
      ExponentSpelt (some (false, ds)) (e :: ds.map digitChar)
  | plus {e : Char} {ds : List (Fin 10)} (letter : e = 'e' ∨ e = 'E') (some_digit : ds ≠ []) :
      ExponentSpelt (some (false, ds)) (e :: '+' :: ds.map digitChar)
  | minus {e : Char} {ds : List (Fin 10)} (letter : e = 'e' ∨ e = 'E') (some_digit : ds ≠ []) :
      ExponentSpelt (some (true, ds)) (e :: '-' :: ds.map digitChar)

/-- The sign of a number that is negative. -/
def signText (negative : Bool) : List Char := if negative then ['-'] else []

/-- A number: its sign, the digits before the point, and what may follow them. -/
inductive Literal.SpeltAs : Literal → List Char → Prop
  | intro {negative : Bool} {whole : List (Fin 10)} {fraction : Option (List (Fin 10))}
      {exponent : Option (Bool × List (Fin 10))} {fs es : List Char} (is_whole : IsWholePart whole)
      (fraction_spelt : FractionSpelt fraction fs) (exponent_spelt : ExponentSpelt exponent es) :
      Literal.SpeltAs ⟨negative, whole, fraction, exponent⟩
        (signText negative ++ (whole.map digitChar ++ (fs ++ es)))

/-! ### Strings -/

/-- One element of a string: a character that stands for itself, a named escape, or four
hexadecimal digits. -/
inductive Piece.SpeltAs : Piece → List Char → Prop
  | plain {c : Char} (no_quote : c ≠ '"') (no_backslash : c ≠ '\\') (no_control : ¬ c < ' ') :
      Piece.SpeltAs (.char c) [c]
  | named {c e : Char} (names : namedEscape? c = some e) : Piece.SpeltAs (.char e) ['\\', c]
  | unit {a b c d : Char} {n : Nat} (digits : hexUnit? a b c d = some n) :
      Piece.SpeltAs (.unit n) ['\\', 'u', a, b, c, d]

/-- The elements of a string, one after another. -/
inductive PiecesSpelt : List Piece → List Char → Prop
  | nil : PiecesSpelt [] []
  | cons {p : Piece} {ps : List Piece} {cs rest : List Char} (first : p.SpeltAs cs)
      (others : PiecesSpelt ps rest) : PiecesSpelt (p :: ps) (cs ++ rest)

/-- A string between its quotes. -/
inductive RawText.SpeltAs : RawText → List Char → Prop
  | intro {t : RawText} {cs : List Char} (closed : t.ending = .closed)
      (inside : PiecesSpelt t.pieces cs) : RawText.SpeltAs t ('"' :: (cs ++ ['"']))

/-! ### Values -/

mutual

/-- A value. -/
inductive Node.SpeltAs : Node → List Char → Prop
  | null : Node.SpeltAs .null ['n', 'u', 'l', 'l']
  | yes : Node.SpeltAs (.bool true) ['t', 'r', 'u', 'e']
  | no : Node.SpeltAs (.bool false) ['f', 'a', 'l', 's', 'e']
  | number {l : Literal} {cs : List Char} (spelt : l.SpeltAs cs) : Node.SpeltAs (.number l) cs
  | text {t : RawText} {cs : List Char} (spelt : t.SpeltAs cs) : Node.SpeltAs (.text t) cs
  | emptyArray {ws : List Char} (blank : AllSpace ws) :
      Node.SpeltAs (.array (.stop .closed)) ('[' :: (ws ++ [']']))
  | array {items : Items} {cs : List Char} (spelt : items.SpeltAs cs) :
      Node.SpeltAs (.array items) ('[' :: (cs ++ [']']))
  | emptyObject {ws : List Char} (blank : AllSpace ws) :
      Node.SpeltAs (.object (.stop .closed)) ('\x7b' :: (ws ++ ['\x7d']))
  | object {members : Members} {cs : List Char} (spelt : members.SpeltAs cs) :
      Node.SpeltAs (.object members) ('\x7b' :: (cs ++ ['\x7d']))

/-- The items of an array that has some, with commas between them. -/
inductive Items.SpeltAs : Items → List Char → Prop
  | last {item : Node} {vs back : List Char} (spelt : Padded item vs) (behind : AllSpace back) :
      Items.SpeltAs (.more item (.stop .closed)) (vs ++ back)
  | more {item : Node} {items : Items} {vs back rest : List Char} (spelt : Padded item vs)
      (behind : AllSpace back) (others : items.SpeltAs rest) :
      Items.SpeltAs (.more item items) (vs ++ (back ++ ',' :: rest))

/-- The members of an object that has some, with colons behind their keys and commas between
them. -/
inductive Members.SpeltAs : Members → List Char → Prop
  | last {key : RawText} {value : Node} {front ks middle vs back : List Char}
      (before : AllSpace front) (key_spelt : key.SpeltAs ks) (between : AllSpace middle)
      (spelt : Padded value vs) (behind : AllSpace back) :
      Members.SpeltAs (.more key value (.stop .closed))
        (front ++ (ks ++ (middle ++ ':' :: (vs ++ back))))
  | more {key : RawText} {value : Node} {members : Members}
      {front ks middle vs back rest : List Char} (before : AllSpace front)
      (key_spelt : key.SpeltAs ks) (between : AllSpace middle) (spelt : Padded value vs)
      (behind : AllSpace back) (others : members.SpeltAs rest) :
      Members.SpeltAs (.more key value members)
        (front ++ (ks ++ (middle ++ ':' :: (vs ++ (back ++ ',' :: rest)))))

/-- A value behind blanks. -/
inductive Padded : Node → List Char → Prop
  | intro {node : Node} {front cs : List Char} (before : AllSpace front)
      (spelt : node.SpeltAs cs) : Padded node (front ++ cs)

end

/-- A document: one value, and blanks around it. -/
def IsDocument (node : Node) (cs : List Char) : Prop :=
  ∃ body back, Padded node body ∧ AllSpace back ∧ cs = body ++ back

theorem allSpace_nil : AllSpace [] := nofun

/-- There need not be blanks in front of a value. -/
theorem Node.SpeltAs.padded {node : Node} {cs : List Char} (spelt : node.SpeltAs cs) :
    Padded node cs := .intro allSpace_nil spelt

/-- There need not be blanks around the value of a document. -/
theorem Node.SpeltAs.isDocument {node : Node} {cs : List Char} (spelt : node.SpeltAs cs) :
    IsDocument node cs := ⟨cs, [], spelt.padded, allSpace_nil, (List.append_nil cs).symm⟩

/-! ### Whole trees -/

mutual

/-- A value without a flaw. -/
def Node.IsWhole : Node → Prop
  | .null | .bool _ | .number _ => True
  | .text t => t.ending = .closed
  | .array items => items.IsWhole
  | .object members => members.IsWhole
  | .flawed _ => False

/-- Items without a flaw, up to the closing bracket. -/
def Items.IsWhole : Items → Prop
  | .stop ending => ending = .closed
  | .more item rest => item.IsWhole ∧ rest.IsWhole

/-- Members without a flaw, up to the closing brace. -/
def Members.IsWhole : Members → Prop
  | .stop ending => ending = .closed
  | .more key value rest => key.ending = .closed ∧ value.IsWhole ∧ rest.IsWhole

end

/-- A string that is spelt is closed. -/
theorem RawText.SpeltAs.closed {t : RawText} {cs : List Char} (spelt : t.SpeltAs cs) :
    t.ending = .closed := by
  obtain ⟨closed, -⟩ := spelt
  exact closed

mutual

/-- A value that is spelt is whole. -/
theorem Node.SpeltAs.isWhole {node : Node} {cs : List Char} : node.SpeltAs cs → node.IsWhole
  | .null | .yes | .no | .number _ => trivial
  | .emptyArray _ | .emptyObject _ => rfl
  | .text spelt => spelt.closed
  | .array spelt => spelt.isWhole
  | .object spelt => spelt.isWhole

/-- Items that are spelt are whole. -/
theorem Items.SpeltAs.isWhole {items : Items} {cs : List Char} : items.SpeltAs cs → items.IsWhole
  | .last padded _ => ⟨padded.isWhole, rfl⟩
  | .more padded _ others => ⟨padded.isWhole, others.isWhole⟩

/-- Members that are spelt are whole. -/
theorem Members.SpeltAs.isWhole {members : Members} {cs : List Char} :
    members.SpeltAs cs → members.IsWhole
  | .last _ key_spelt _ padded _ => ⟨key_spelt.closed, padded.isWhole, rfl⟩
  | .more _ key_spelt _ padded _ others => ⟨key_spelt.closed, padded.isWhole, others.isWhole⟩

/-- A value that is spelt behind blanks is whole. -/
theorem Padded.isWhole {node : Node} {cs : List Char} : Padded node cs → node.IsWhole
  | .intro _ spelt => spelt.isWhole

end

/-- The tree of a document is whole. -/
theorem IsDocument.isWhole {node : Node} {cs : List Char} (h : IsDocument node cs) :
    node.IsWhole := by
  obtain ⟨body, back, padded, -⟩ := h
  exact padded.isWhole

end Quoteboard.Json
