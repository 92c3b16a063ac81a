import Mathlib.Algebra.Order.Floor.Ring
import Mathlib.Data.Rat.Floor

/-!
# Coordinates

The arithmetic the geometry and routing crates use on coordinates, with the one
law the engine needs of it. Everything that only moves coordinates around is
proved for every `Scalar`, so for IEEE doubles with their infinities and NaN as
well as for exact numbers; the geometric results are about the exact rationals.
-/

namespace HomelabInventory

/-- Coordinates: arithmetic, comparisons (a NaN compares with nothing), and the
conversions to whole numbers. -/
class Scalar (K : Type) extends Add K, Sub K, Mul K, Div K, Neg K, Min K, Max K, LT K, LE K,
    BEq K where
  /-- `<` is computable -/
  decLt : DecidableLT K
  /-- `≤` is computable -/
  decLe : DecidableLE K
  /-- the constants of the program -/
  lit : ℚ → K
  /-- neither infinite nor NaN -/
  isFinite : K → Bool
  /-- absolute value -/
  abs : K → K
  /-- largest whole number below -/
  floor : K → K
  /-- smallest whole number above -/
  ceil : K → K
  /-- nearest whole number, halves away from zero -/
  round : K → K
  /-- the total order used for sorting -/
  totalCmp : K → K → Ordering
  /-- the same bit pattern -/
  sameBits : K → K → Bool
  /-- conversion of a whole number -/
  ofInt : ℤ → K
  /-- conversion to a machine integer -/
  toI32 : K → ℤ
  /-- a finite number equals itself -/
  beq_self_of_isFinite : ∀ x : K, isFinite x = true → (x == x) = true

namespace Scalar

attribute [reducible] Scalar.decLt Scalar.decLe

instance {K : Type} [Scalar K] : DecidableLT K := Scalar.decLt

instance {K : Type} [Scalar K] : DecidableLE K := Scalar.decLe

/-- Nearest whole number, halves away from zero. -/
def roundRat (x : ℚ) : ℚ := if 0 ≤ x then ⌊x + 1 / 2⌋ else ⌈x - 1 / 2⌉

/-- Exact rational coordinates. -/
instance instRat : Scalar ℚ where
  decLt := inferInstance
  decLe := inferInstance
  lit q := q
  isFinite _ := true
  abs x := |x|
  floor x := ⌊x⌋
  ceil x := ⌈x⌉
  round := roundRat
  totalCmp := compare
  sameBits x y := x == y
  ofInt n := n
  toI32 x := if 0 ≤ x then ⌊x⌋ else ⌈x⌉
  beq_self_of_isFinite := by simp

end Scalar

end HomelabInventory
