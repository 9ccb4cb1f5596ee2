import DurableWorkflow.Decimal.Binary64

/-!
# The shortest decimal of a floating point number

Every finite positive word has a decimal with the fewest digits that rounds back to it. It is found
on decimal grids: on the grid of the multiples of `10 ^ p` only the two neighbours of the number
can lie in the interval of reals that round to it if any point does, so the widest grid with a
neighbour inside the interval gives the fewest digits. All arithmetic is exact.

## Main definitions

* `Decimal` — a digit string and a power of ten.
* `Decimal.ofGrid?` — the nearest point of one grid that rounds back.
* `Decimal.shortest` — the point on the widest such grid, without trailing zeros.
-/

namespace DurableWorkflow

/-- The number `coefficient · 10 ^ exponent`. -/
structure Decimal where
  /-- The digits, read as one number. -/
  coefficient : Nat
  /-- The power of ten of the last digit. -/
  exponent : Int
  deriving DecidableEq, Inhabited, Repr

namespace Decimal

/-- The point of the grid `10 ^ p` nearest to a positive word among those that round back to it;
of two that are equally near the one with the even coefficient. The interval that rounds to the
word reaches half a gap to each side and includes its ends when the significand is even. -/
def ofGrid? (x : Binary64) (p : Int) : Option Decimal :=
  -- Four times the number, and both ends, over the common power `2 ^ (scale - 2)`.
  let middle := 4 * x.significand
  let low := if x.hasNarrowGapBelow then middle - 1 else middle - 2
  let high := middle + 2
  let q := x.scale - 2
  -- A point `c · 10 ^ p` compares with `v · 2 ^ q` as `c * unit` with `v * weight`.
  let weight := Nat.pow 2 q.toNat * Nat.pow 10 (-p).toNat
  let unit := Nat.pow 10 p.toNat * Nat.pow 2 (-q).toNat
  let inside (c : Nat) : Bool :=
    if x.significand % 2 = 0 then low * weight ≤ c * unit && c * unit ≤ high * weight
    else low * weight < c * unit && c * unit < high * weight
  let below := middle * weight / unit
  let above := below + 1
  let toBelow := middle * weight - below * unit
  let toAbove := above * unit - middle * weight
  let takeBelow := toBelow < toAbove || (toBelow == toAbove && below % 2 == 0)
  match inside below, inside above with
  | true, true => some ⟨if takeBelow then below else above, p⟩
  | true, false => some ⟨below, p⟩
  | false, true => some ⟨above, p⟩
  | false, false => none

/-- Trailing zeros of the coefficient moved into the exponent, at most `limit` of them. -/
def dropZeros : Nat → Decimal → Decimal
  | 0, d => d
  | limit + 1, d =>
    if d.coefficient ≠ 0 ∧ d.coefficient % 10 = 0 then
      dropZeros limit ⟨d.coefficient / 10, d.exponent + 1⟩
    else d

/-- A power of ten above every real that rounds to the word, hence a grid without any point that
does. -/
def startingGrid (x : Binary64) : Int :=
  ((x.significand.log2 : Int) + 2 + x.scale) * 30103 / 100000 + 1

/-- The decimal with the fewest digits that rounds back to a positive finite word, and the nearest
of those. Seventeen digits always suffice, so a grid is found within the steps allowed. -/
def shortest (x : Binary64) : Decimal :=
  let start := startingGrid x
  dropZeros 20 <| ((List.range 32).findSome? fun n => ofGrid? x (start - (n : Nat))).getD ⟨0, 0⟩

end Decimal

end DurableWorkflow
