/-!
# Decimal integers in text

Reading an integer that fills a whole text: an optional sign, then one or more
ASCII digits, and a value within bounds. Nothing else is a numeral.
-/

namespace Quoteboard.Text

/-- The value of an ASCII digit. -/
def digit? (c : Char) : Option (Fin 10) :=
  if '0' ≤ c && c ≤ '9' then some (Fin.ofNat 10 (c.toNat - '0'.toNat)) else none

/-- The ASCII digit of a value. -/
def digitChar (d : Fin 10) : Char :=
  Char.ofNat ('0'.toNat + d.val)

/-- Reading a written digit gives the digit. -/
theorem digit?_digitChar (d : Fin 10) : digit? (digitChar d) = some d := by
  revert d
  decide

/-- The number that a row of digits denotes, the most significant first. -/
def ofDigits (ds : List (Fin 10)) : Nat :=
  ds.foldl (fun n d ↦ n * 10 + d.val) 0

/-- Read a text of one or more ASCII digits. -/
def natural? (cs : List Char) : Option Nat :=
  if cs.isEmpty then none else (cs.mapM digit?).map ofDigits

/-- Read an unsigned numeral of at most `bound`; one leading `+` is allowed. -/
def unsigned? (bound : Nat) (cs : List Char) : Option Nat :=
  let body := match cs with
    | '+' :: rest => rest
    | _ => cs
  (natural? body).filter (· ≤ bound)

/-- The least value of a signed 64-bit integer. -/
def minInt64 : Int := -0x8000000000000000

/-- The greatest value of a signed 64-bit integer. -/
def maxInt64 : Int := 0x7fffffffffffffff

/-- Whether an integer fits a signed 64-bit word. -/
def fitsInt64 (n : Int) : Bool :=
  minInt64 ≤ n && n ≤ maxInt64

/-- The greatest value of an unsigned 16-bit integer. -/
def maxUInt16 : Nat := 0xffff

/-- The greatest value of an unsigned 32-bit integer. -/
def maxUInt32 : Nat := 0xffffffff

/-- The greatest value of an unsigned 64-bit integer. -/
def maxUInt64 : Nat := 0xffffffffffffffff

/-- Read a signed numeral that fits 64 bits; one leading `+` or `-` is allowed. -/
def signed? (cs : List Char) : Option Int :=
  let value := match cs with
    | '-' :: rest => (natural? rest).map fun n ↦ -(n : Int)
    | '+' :: rest => (natural? rest).map fun n ↦ (n : Int)
    | _ => (natural? cs).map fun n ↦ (n : Int)
  value.filter fitsInt64

/-- A numeral within bounds is within bounds. -/
theorem le_of_unsigned? {bound n : Nat} {cs : List Char} (h : unsigned? bound cs = some n) :
    n ≤ bound := by
  simp only [unsigned?, Option.filter_eq_some_iff] at h
  simpa using h.2

/-- What is read as a signed numeral fits 64 bits. -/
theorem fitsInt64_of_signed? {n : Int} {cs : List Char} (h : signed? cs = some n) :
    fitsInt64 n = true := by
  simp only [signed?, Option.filter_eq_some_iff] at h
  exact h.2

end Quoteboard.Text
