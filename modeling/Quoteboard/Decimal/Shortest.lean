/-!
# The shortest decimal of a double

A finite double stands for every real that rounds to it. Of the decimals in that interval the
one with the fewest significant digits is chosen, and of those with equally many the nearest to
the double itself. All comparisons are made in exact integers.
-/

namespace Quoteboard.Decimal

/-- The magnitude `mantissa * 2 ^ exponent` of a finite double. -/
structure Magnitude where
  mantissa : Nat
  exponent : Int
  /-- Whether the next smaller double is only half as far away as the next greater one. -/
  narrowBelow : Bool
  deriving DecidableEq, Repr

/-- The magnitude that the low 63 bits of a finite double encode. -/
def Magnitude.ofBits (bits : Nat) : Magnitude :=
  let biased : Nat := bits / 0x10000000000000 % 0x800
  let fraction : Nat := bits % 0x10000000000000
  if biased = 0 then ⟨fraction, -1074, false⟩
  else ⟨fraction + 0x10000000000000, (biased : Int) - 1075, fraction = 0 && 1 < biased⟩

/-- The value `digits * 10 ^ exponent`. -/
structure Scientific where
  digits : Nat
  exponent : Int
  deriving DecidableEq, Repr

/-- The numerator of `x * 2 ^ q / 10 ^ k` over `denominator q k`. -/
def numerator (q k : Int) (x : Nat) : Nat :=
  x * Nat.pow 2 q.toNat * Nat.pow 10 (-k).toNat

def denominator (q k : Int) : Nat :=
  Nat.pow 2 (-q).toNat * Nat.pow 10 k.toNat

/-- The decimal with exponent `k` that rounds to the magnitude, the nearest if there are two. -/
def Magnitude.onGrid? (m : Magnitude) (k : Int) : Option Scientific :=
  let scale := numerator (m.exponent - 2) k
  let unit := denominator (m.exponent - 2) k
  let value := scale (4 * m.mantissa)
  let low := scale (4 * m.mantissa - if m.narrowBelow then 1 else 2)
  let high := scale (4 * m.mantissa + 2)
  let inside (d : Nat) : Bool :=
    if m.mantissa % 2 = 0 then low ≤ d * unit && d * unit ≤ high
    else low < d * unit && d * unit < high
  let below := value / unit
  let above := below + 1
  let upward := 2 * (value % unit) > unit || (2 * (value % unit) = unit && below % 2 = 1)
  if inside below && inside above then some ⟨if upward then above else below, k⟩
  else if inside below then some ⟨below, k⟩
  else if inside above then some ⟨above, k⟩
  else none

/-- Whether `10 ^ e` is at most the magnitude. -/
private def Magnitude.reaches (m : Magnitude) (e : Int) : Bool :=
  denominator m.exponent e ≤ numerator m.exponent e m.mantissa

/-- The greatest `e` with `10 ^ e` at most the magnitude, which is not zero. -/
def Magnitude.leadingExponent (m : Magnitude) : Int :=
  let guess := ((m.mantissa.log2 : Int) + m.exponent) * 30103 / 100000
  if m.reaches (guess + 1) then guess + 1
  else if m.reaches guess then guess
  else guess - 1

/-- Remove the zeros at the end of the digits; `fuel` bounds how many. -/
def Scientific.dropZeros : Nat → Scientific → Scientific
  | 0, d => d
  | fuel + 1, d =>
    if d.digits ≠ 0 && d.digits % 10 = 0 then dropZeros fuel ⟨d.digits / 10, d.exponent + 1⟩
    else d

/-- The decimal with the fewest digits that rounds to the magnitude; seventeen always suffice. -/
def Magnitude.shortest (m : Magnitude) : Scientific :=
  let top := m.leadingExponent
  let found := (List.range 17).findSome? fun n : Nat ↦ m.onGrid? (top - (n : Int))
  (found.getD ⟨0, 0⟩).dropZeros 18

/-- Where a decimal is written with a point and without an exponent. -/
structure Style where
  /-- The least exponent of the leading digit that is written without an exponent. -/
  leastPlain : Int
  /-- The greatest exponent of the leading digit that is written without an exponent. -/
  greatestPlain : Int
  /-- Whether a whole number ends in a point and a zero. -/
  showsFraction : Bool
  deriving DecidableEq, Repr

/-- The text of the decimal `0.d₁d₂… * 10 ^ (lead + 1)`. -/
def Style.digitsText (s : Style) (ds : List Char) (lead : Int) : List Char :=
  let places := ds.length
  if s.leastPlain ≤ lead && lead ≤ s.greatestPlain then
    if lead < 0 then '0' :: '.' :: List.replicate (-lead - 1).toNat '0' ++ ds
    else if (places : Int) ≤ lead + 1 then
      ds ++ List.replicate (lead.toNat + 1 - places) '0'
        ++ (if s.showsFraction then ['.', '0'] else [])
    else ds.take (lead.toNat + 1) ++ '.' :: ds.drop (lead.toNat + 1)
  else
    let fraction := if places ≤ 1 then [] else '.' :: ds.drop 1
    let sign := if lead < 0 then '-' else '+'
    ds.take 1 ++ fraction ++ 'e' :: sign :: Nat.toDigits 10 lead.natAbs

/-- The shortest text of a double that reads back as the same double. -/
def Style.text (s : Style) (x : Float) : String :=
  if x.isNaN then "NaN" else
  let bits := x.toBits.toNat
  let sign := if 0x8000000000000000 ≤ bits then ['-'] else []
  let body :=
    if bits % 0x8000000000000000 = 0 then '0' :: (if s.showsFraction then ['.', '0'] else [])
    else if x.isInf then ['i', 'n', 'f']
    else
      let d := (Magnitude.ofBits (bits % 0x8000000000000000)).shortest
      let ds := Nat.toDigits 10 d.digits
      s.digitsText ds (d.exponent + ds.length - 1)
  String.ofList (sign ++ body)

end Quoteboard.Decimal
