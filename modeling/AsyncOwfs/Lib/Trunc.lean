import Mathlib.Algebra.Order.Floor.Ring
import Mathlib.Tactic.Linarith

/-!
# AsyncOwfs.Lib.Trunc

Rounding toward zero, and bounds that are kept clear of a value by it.

What rounding does depends on the sign, but it is always by less than one.  So an
integer bound that is rounded from one or more above the value is above it
(`lt_trunc_add`), and one from as much below is below it (`trunc_sub_lt`).
-/

variable {α : Type*} [CommRing α] [LinearOrder α] [FloorRing α]

/-- The integer next to a number in the direction of zero. -/
def trunc (x : α) : ℤ := if 0 ≤ x then ⌊x⌋ else ⌈x⌉

variable [IsStrictOrderedRing α]

/-- An integer is its own integer part. -/
@[simp] theorem trunc_intCast (i : ℤ) : trunc (i : α) = i := by
  simp [trunc]

/-- The integer part is less than one above. -/
theorem trunc_lt_add_one (x : α) : (trunc x : α) < x + 1 := by
  rw [trunc]
  split
  · have hfloor := Int.floor_le x
    linarith
  · exact Int.ceil_lt_add_one x

/-- The integer part is less than one below. -/
theorem sub_one_lt_trunc (x : α) : x - 1 < trunc x := by
  rw [trunc]
  split
  · exact Int.sub_one_lt_floor x
  · have hceil := Int.le_ceil x
    linarith

/-- **A bound from above** stays above, and not far. -/
theorem lt_trunc_add {x k : α} (hk : 1 ≤ k) :
    x < trunc (x + k) ∧ (trunc (x + k) : α) < x + (k + 1) := by
  have hlow := sub_one_lt_trunc (x + k)
  have hhigh := trunc_lt_add_one (x + k)
  constructor <;> linarith

/-- **A bound from below** stays below. -/
theorem trunc_sub_lt {x k : α} (hk : 1 ≤ k) :
    (trunc (x - k) : α) < x ∧ x - (k + 1) < trunc (x - k) := by
  have hlow := sub_one_lt_trunc (x - k)
  have hhigh := trunc_lt_add_one (x - k)
  constructor <;> linarith
