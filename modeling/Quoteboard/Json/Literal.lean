import Quoteboard.Text.Numeral

/-!
# Number literals

A number literal keeps its digits; what it denotes is found from them. A literal without
fraction and exponent that fits 64 bits, signed or unsigned, is an integer. Every other literal
is a double, found by gathering the digits into a 64-bit significand and scaling that by a power
of ten. Digits that no longer fit are dropped, and a result that is too great is refused.
-/

namespace Quoteboard.Json

open Quoteboard.Text

/-- The digits of a number as written. -/
structure Literal where
  negative : Bool
  /-- The digits before the point; there is at least one. -/
  whole : List (Fin 10)
  /-- The digits after the point, if there is one. -/
  fraction : Option (List (Fin 10))
  /-- The sign (`true` for minus) and the digits of the exponent, if there is one. -/
  exponent : Option (Bool × List (Fin 10))
  deriving DecidableEq, Repr

/-- What a number literal denotes. -/
inductive Number where
  | integer (value : Int)
  | real (value : Float)
  deriving DecidableEq, Repr

/-- The double nearest to an integer, ties to the even neighbour. -/
def doubleOfInt (n : Int) : Float :=
  Float.ofInt n

/-- The double nearest to a power of ten. -/
def powerOfTen (k : Nat) : Float :=
  Float.ofScientific 1 false k

/-- The greatest power of ten that a double can come near. -/
def greatestPower : Nat := 308

/-- A significand and the power of ten it is scaled by. -/
structure Scaled where
  significand : Nat
  exponent : Int
  deriving DecidableEq, Repr

/-- Take in the digits before the point. From the first digit on that does not fit 64 bits, each
digit only raises the exponent. -/
def Scaled.gatherWhole (s : Scaled) : List (Fin 10) → Scaled
  | [] => s
  | d :: rest =>
    let next := s.significand * 10 + d.val
    if next ≤ maxUInt64 then gatherWhole ⟨next, s.exponent⟩ rest
    else ⟨s.significand, s.exponent + (rest.length + 1)⟩

/-- Take in the digits after the point. From the first digit on that does not fit 64 bits, the
digits are dropped. -/
def Scaled.gatherFraction (s : Scaled) : List (Fin 10) → Scaled
  | [] => s
  | d :: rest =>
    let next := s.significand * 10 + d.val
    if next ≤ maxUInt64 then gatherFraction ⟨next, s.exponent - 1⟩ rest else s

/-- Divide by a power of ten, in steps of the greatest one. -/
def divideByPower (x : Float) (k : Nat) : Float :=
  if k ≤ greatestPower then x / powerOfTen k
  else if x == 0 then x
  else divideByPower (x / powerOfTen greatestPower) (k - greatestPower)
termination_by k
decreasing_by simp only [greatestPower] at *; omega

/-- The scaled significand as a double; nothing if it is too great. -/
def Scaled.value? (s : Scaled) : Option Float :=
  let x := doubleOfInt s.significand
  if s.exponent < 0 then some (divideByPower x (-s.exponent).toNat)
  else if s.exponent ≤ greatestPower then
    let y := x * powerOfTen s.exponent.toNat
    if y.isInf then none else some y
  else if x == 0 then some x
  else none

/-- The power of ten that the exponent part asks for. -/
def Literal.power (l : Literal) : Int :=
  match l.exponent with
  | none => 0
  | some (minus, ds) => if minus then -(ofDigits ds : Int) else ofDigits ds

/-- The literal as a significand and a power of ten, its sign left aside. -/
def Literal.scaled (l : Literal) : Scaled :=
  let s := (Scaled.gatherWhole ⟨0, 0⟩ l.whole).gatherFraction (l.fraction.getD [])
  { s with exponent := s.exponent + l.power }

/-- Whether the literal has neither a fraction nor an exponent. -/
def Literal.isWhole (l : Literal) : Bool :=
  l.fraction.isNone && l.exponent.isNone

/-- The integer that a literal without fraction and exponent denotes, if it fits 64 bits. A
negative zero is not an integer. -/
def Literal.integer? (l : Literal) : Option Int :=
  let n := ofDigits l.whole
  if !l.isWhole then none
  else if l.negative then if 1 ≤ n && n ≤ 0x8000000000000000 then some (-n) else none
  else if n ≤ maxUInt64 then some n
  else none

/-- What the literal denotes; nothing if it is out of range. -/
def Literal.value? (l : Literal) : Option Number :=
  match l.integer? with
  | some n => some (.integer n)
  | none => (l.scaled.value?).map fun x ↦ .real (if l.negative then -x else x)

/-- An integer literal denotes an integer between the least signed and the greatest unsigned
64-bit value. -/
theorem Literal.integer?_bounds {l : Literal} {n : Int} (h : l.integer? = some n) :
    minInt64 ≤ n ∧ n ≤ maxUInt64 := by
  have low : minInt64 = -0x8000000000000000 := rfl
  have high : (maxUInt64 : Int) = 0xffffffffffffffff := rfl
  unfold Literal.integer? at h
  grind

end Quoteboard.Json
