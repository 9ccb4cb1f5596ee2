/-!
# Binary floating point words

A 64-bit floating point number held as its word, so that two numbers are equal exactly when their
words are. A finite word stands for `± significand · 2 ^ scale`.

## Main definitions

* `Binary64` — the word.
* `Binary64.significand`, `Binary64.scale` — the integer and the power of two of a finite word.
* `Binary64.scaled?` — a decimal significand and exponent as a word, unless it is out of range.
-/

namespace DurableWorkflow

/-- A 64-bit floating point number, as its word. -/
structure Binary64 where
  /-- The sign bit, eleven exponent bits and fifty-two fraction bits. -/
  bits : UInt64
  deriving DecidableEq, Inhabited

namespace Binary64

/-- The word of a machine number. -/
def ofFloat (x : Float) : Binary64 :=
  ⟨x.toBits⟩

/-- The machine number of a word. -/
def toFloat (x : Binary64) : Float :=
  Float.ofBits x.bits

/-- Whether the sign bit is set; a negative zero is negative. -/
def isNegative (x : Binary64) : Bool :=
  0x8000000000000000 ≤ x.bits.toNat

/-- The number of fractions. -/
def fractions : Nat :=
  0x10000000000000

/-- The eleven exponent bits. -/
def exponentField (x : Binary64) : Nat :=
  x.bits.toNat / fractions % 0x800

/-- The fifty-two fraction bits. -/
def fraction (x : Binary64) : Nat :=
  x.bits.toNat % fractions

/-- A word is finite unless its exponent bits are all ones. -/
def isFinite (x : Binary64) : Bool :=
  x.exponentField ≠ 2047

/-- The integer `m` of a finite word `± m · 2 ^ scale`: the fraction, with the hidden bit in front
unless the word is subnormal. -/
def significand (x : Binary64) : Nat :=
  if x.exponentField = 0 then x.fraction else fractions + x.fraction

/-- The power of two of a finite word. -/
def scale (x : Binary64) : Int :=
  if x.exponentField = 0 then -1074 else (x.exponentField : Int) - 1075

/-- Whether the gap to the next smaller word is half the gap to the next larger one: the fraction
is zero and the word is neither subnormal nor the least normal one. -/
def hasNarrowGapBelow (x : Binary64) : Bool :=
  x.fraction = 0 && 1 < x.exponentField

/-- The word with the opposite sign. -/
def negate (x : Binary64) : Binary64 :=
  ⟨x.bits ^^^ 0x8000000000000000⟩

/-- Zero with the given sign. -/
def zero (negative : Bool) : Binary64 :=
  if negative then ⟨0x8000000000000000⟩ else ⟨0⟩

/-- The word nearest to a natural number below `2 ^ 64`. -/
def ofWord (n : UInt64) : Binary64 :=
  ofFloat n.toFloat

/-- A significand times a power of ten, scaled in machine arithmetic: the significand is rounded
to a word first, then multiplied or divided by the power once if its exponent is at most 308 in
size. A smaller power is reached by dividing by `10 ^ 308` first, as often as needed; a larger
power, or a product that overflows, has no word (zero apart). The result is within the rounding of
these steps, which is not always the nearest word to the decimal. -/
def scaled? (significand : UInt64) (exponent : Int) : Option Binary64 :=
  go 8 significand.toFloat exponent
where
  /-- Divide by `10 ^ 308` until the remaining exponent is in reach; after three divisions nothing
  is left of the significand. -/
  go : Nat → Float → Int → Option Binary64
    | 0, _, _ => some (zero false)
    | steps + 1, x, e =>
      if e.natAbs ≤ 308 then
        if 0 ≤ e then
          let y := x * Float.ofScientific 1 false e.natAbs
          if y.isInf then none else some (ofFloat y)
        else some (ofFloat (x / Float.ofScientific 1 false e.natAbs))
      else if x == 0 then some (zero false)
      else if 0 ≤ e then none
      else go steps (x / Float.ofScientific 1 false 308) (e + 308)

end Binary64

end DurableWorkflow
