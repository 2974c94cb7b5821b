import Quadratics.Decimal.Basic
import Quadratics.Proofs.Binary64.Nearest

/-!
# Decimals as rational numbers

A decimal denotes a rational number, and reading it rounds that number once
(`roundsTo_nearest`), wherever its last digit stands.

The decimals whose last digit stands at one place form a grid.  Its steps are counted in
units.  Those behind the point are no whole numbers of units in general, so that a grid is
described by two counts: so many units make up so many steps (`gridUnits`, `gridSteps`).
-/

namespace Quadratics.Decimal

set_option autoImplicit false

open Binary64 (signedRat RoundsTo ofQuotient roundsTo_ofQuotient unitsPerOne)

/-- The number that a decimal denotes. -/
def exact (decimal : Decimal) : ℚ :=
  signedRat decimal.negative (decimal.coefficient * 10 ^ decimal.place)

theorem powerOfTen_eq (count : Nat) : powerOfTen count = 10 ^ count := rfl

theorem powerOfTen_pos (count : Nat) : 0 < powerOfTen count :=
  Nat.pow_pos (by decide)

theorem nearest_ofNat (negative : Bool) (coefficient zeros : Nat) :
    nearest ⟨negative, coefficient, .ofNat zeros⟩ =
      .ofQuotient negative (coefficient * powerOfTen zeros * Binary64.unitsPerOne) 1 := by
  rw [nearest]

theorem nearest_negSucc (negative : Bool) (coefficient places : Nat) :
    nearest ⟨negative, coefficient, .negSucc places⟩ =
      .ofQuotient negative (coefficient * Binary64.unitsPerOne) (powerOfTen (places + 1)) := by
  rw [nearest]

/-! ## Grids -/

/-- So many steps of the grid at a place make up a whole number of units. -/
def gridSteps (place : Int) : Nat :=
  match place with
  | .ofNat _ => 1
  | .negSucc places => powerOfTen (places + 1)

/-- The units that those steps make up. -/
def gridUnits (place : Int) : Nat :=
  match place with
  | .ofNat zeros => powerOfTen zeros * unitsPerOne
  | .negSucc _ => unitsPerOne

theorem gridSteps_pos (place : Int) : 0 < gridSteps place := by
  match place with
  | .ofNat _ => exact Nat.one_pos
  | .negSucc places => exact powerOfTen_pos (places + 1)

theorem gridUnits_pos (place : Int) : 0 < gridUnits place := by
  match place with
  | .ofNat zeros => exact Nat.mul_pos (powerOfTen_pos zeros) Binary64.unitsPerOne_pos
  | .negSucc _ => exact Binary64.unitsPerOne_pos

theorem nearest_eq_ofQuotient (negative : Bool) (coefficient : Nat) (place : Int) :
    nearest ⟨negative, coefficient, place⟩ =
      ofQuotient negative (coefficient * gridUnits place) (gridSteps place) := by
  match place with
  | .ofNat zeros => rw [nearest_ofNat, Nat.mul_assoc, gridUnits, gridSteps]
  | .negSucc places => exact nearest_negSucc negative coefficient places

theorem gridUnits_div (place : Int) :
    (gridUnits place : ℚ) / gridSteps place / unitsPerOne = 10 ^ place := by
  have unitPositive := Binary64.unitsPerOne_cast_pos
  match place with
  | .ofNat zeros =>
    rw [gridUnits, gridSteps, powerOfTen_eq, Int.ofNat_eq_natCast, zpow_natCast]
    push_cast
    field_simp
  | .negSucc places =>
    rw [gridUnits, gridSteps, powerOfTen_eq, zpow_negSucc]
    push_cast
    field_simp

/-- **A decimal is read as what it rounds to.** -/
theorem roundsTo_nearest (decimal : Decimal) : RoundsTo decimal.exact decimal.nearest := by
  obtain ⟨negative, coefficient, place⟩ := decimal
  have rounds := @roundsTo_ofQuotient negative (coefficient * gridUnits place) _
    (gridSteps_pos place)
  rw [Nat.cast_mul, mul_div_assoc, mul_div_assoc, gridUnits_div] at rounds
  rwa [nearest_eq_ofQuotient]

/-! ## A trillionth -/

/-- A trillionth, `10 ^ -12`, is read as a number that is no larger. -/
theorem toRat_nearest_trillionth :
    (nearest ⟨false, 1, -12⟩).isFinite = true ∧ 0 < (nearest ⟨false, 1, -12⟩).toRat ∧
      (nearest ⟨false, 1, -12⟩).toRat ≤ 1 / 10 ^ 12 := by
  have unitPositive := Binary64.unitsPerOne_cast_pos
  have finite : (nearest ⟨false, 1, -12⟩).isFinite = true := by decide +kernel
  have unsigned : (nearest ⟨false, 1, -12⟩).negative = false := by decide +kernel
  have positive : 0 < (nearest ⟨false, 1, -12⟩).magnitude := by decide +kernel
  have small : (nearest ⟨false, 1, -12⟩).magnitude * 10 ^ 12 ≤ Binary64.unitsPerOne := by
    decide +kernel
  rw [Binary64.toRat_eq, unsigned]
  generalize (nearest ⟨false, 1, -12⟩).magnitude = count at *
  refine ⟨finite, div_pos (Nat.cast_pos.mpr positive) unitPositive, ?_⟩
  have smallCast : (count : ℚ) * 10 ^ 12 ≤ Binary64.unitsPerOne := by exact_mod_cast small
  show (count : ℚ) / Binary64.unitsPerOne ≤ 1 / 10 ^ 12
  rwa [div_le_div_iff₀ unitPositive (by positivity), one_mul]

/-- A trillionth is not read as much less either. -/
theorem le_toRat_nearest_trillionth : 999 / 10 ^ 15 ≤ (nearest ⟨false, 1, -12⟩).toRat := by
  have unitPositive := Binary64.unitsPerOne_cast_pos
  have unsigned : (nearest ⟨false, 1, -12⟩).negative = false := by decide +kernel
  have large : Binary64.unitsPerOne * 999 ≤ (nearest ⟨false, 1, -12⟩).magnitude * 10 ^ 15 := by
    decide +kernel
  rw [Binary64.toRat_eq, unsigned]
  generalize (nearest ⟨false, 1, -12⟩).magnitude = count at *
  have largeCast : (Binary64.unitsPerOne : ℚ) * 999 ≤ count * 10 ^ 15 := by exact_mod_cast large
  show (999 : ℚ) / 10 ^ 15 ≤ (count : ℚ) / Binary64.unitsPerOne
  rw [div_le_div_iff₀ (by positivity) unitPositive]
  linarith

end Quadratics.Decimal
