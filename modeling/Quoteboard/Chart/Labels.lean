import Quoteboard.Market.Identifier
import Quoteboard.Table
import Quoteboard.Text.Blank
import Quoteboard.Text.Numeral

/-!
# Instrument labels

Names to show for instruments, read from a list such as `1=GOLD, ES=S&P`. Blanks around a pair, a
key or a label do not count, and blank pairs are passed over.
-/

namespace Quoteboard.Chart

open Quoteboard.Market Quoteboard.Text

/-- The label of each instrument that has one. -/
abbrev Labels := Table Identifier String

/-- Why a list of labels is refused; the pair is given without the blanks around it. -/
inductive LabelError where
  /-- A pair has no `=`. -/
  | missingSeparator (pair : String)
  /-- A pair has nothing but blanks before or after its first `=`. -/
  | emptyPart (pair : String)
  deriving DecidableEq, Repr

/-- The wording of a refusal. -/
def LabelError.message : LabelError → String
  | .missingSeparator pair => "label pair `" ++ pair ++ "` is missing '='"
  | .emptyPart pair => "label pair `" ++ pair ++ "` has an empty key or label"

namespace Labels

/-- The pieces of a text between separators; there is always at least one. -/
def pieces (separator : Char) : List Char → List (List Char)
  | [] => [[]]
  | c :: rest =>
    if c = separator then [] :: pieces separator rest
    else
      match pieces separator rest with
      | piece :: more => (c :: piece) :: more
      | [] => [[c]]

/-- The identifier that a key denotes: a number if it is a signed 64-bit numeral. -/
def identifierOf (key : List Char) : Identifier :=
  match signed? key with
  | some n => .id n
  | none => .name (String.ofList key)

/-- The entry of one pair, which has no blanks around it and is not empty. -/
def entry (pair : List Char) : Except LabelError (Identifier × String) :=
  match pair.dropWhile (· ≠ '=') with
  | [] => .error (.missingSeparator (String.ofList pair))
  | _ :: after =>
    let key := trim (pair.takeWhile (· ≠ '='))
    let label := trim after
    if key.isEmpty || label.isEmpty then .error (.emptyPart (String.ofList pair))
    else .ok (identifierOf key, String.ofList label)

/-- The pairs of a list, without the blanks around them and without the blank ones. -/
def pairs (spec : List Char) : List (List Char) :=
  ((pieces ',' spec).map trim).filter (!·.isEmpty)

/-- Read a list of labels. Of several pairs for one instrument the last counts. -/
def ofText (spec : String) : Except LabelError Labels :=
  ((pairs spec.toList).mapM entry).map Table.ofList

/-- The labels of the production exchange. -/
def production : Labels :=
  Table.ofList [(.id 1, "GOLD"), (.id 2, "BLUE")]

/-- The label of an instrument; its own text if it has none. -/
def label (labels : Labels) (instrument : Identifier) : String :=
  (labels.get? instrument).getD instrument.display

end Labels

end Quoteboard.Chart
