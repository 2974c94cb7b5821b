import Quadratics.Decimal.Shortest
import Quadratics.Proofs.Binary64.Zeros
import Quadratics.Proofs.Decimal.Nearest

/-!
# What is written reads back

The search for the shortest decimal takes a point of a grid only when the point
reads back as the number, and its last resort is the number's own expansion, so
whatever it returns reads back (`nearest_shortest`).  That holds of every finite
number, zeros with their signs included.
-/

namespace Quadratics.Decimal

set_option autoImplicit false

open Binary64 (ofQuotient unitsPerOne)

/-! ## Decimals and their signs -/

@[simp]
theorem negative_nearest (decimal : Decimal) : decimal.nearest.negative = decimal.negative := by
  simp only [nearest]
  split <;> simp

theorem neg_nearest (negative : Bool) (coefficient : Nat) (place : Int) :
    -(nearest ⟨negative, coefficient, place⟩) = nearest ⟨!negative, coefficient, place⟩ := by
  cases place with
  | ofNat zeros => rw [nearest_ofNat, nearest_ofNat, Binary64.neg_ofQuotient]
  | negSucc places => rw [nearest_negSucc, nearest_negSucc, Binary64.neg_ofQuotient]

/-- Zeros at the end of a decimal move its last place. -/
theorem nearest_zeros (negative : Bool) (coefficient zeros : Nat) :
    nearest ⟨negative, coefficient * 10 ^ zeros, 0⟩ =
      nearest ⟨negative, coefficient, (zeros : Int)⟩ := by
  show nearest ⟨negative, coefficient * 10 ^ zeros, .ofNat 0⟩ =
    nearest ⟨negative, coefficient, .ofNat zeros⟩
  rw [nearest_ofNat, nearest_ofNat, powerOfTen_eq, powerOfTen_eq, Nat.pow_zero, Nat.mul_one]

/-! ## The last resort -/

/-- A zero is written as zero. -/
theorem nearest_zero (negative : Bool) :
    (nearest ⟨negative, 0, 0⟩).isFinite = true ∧ (nearest ⟨negative, 0, 0⟩).magnitude = 0 := by
  cases negative <;> decide +kernel

/-- The expansion of a number reads back. -/
theorem nearest_expansion {number : Binary64} (finite : number.isFinite = true) :
    (expansion number).nearest = number := by
  match number, finite with
  | .finite negative significand exponent canonical, _ =>
    have exact := @Binary64.ofQuotient_exact negative _ _ _ canonical (powerOfTen_pos 1074)
    have powers : 5 ^ 1074 * unitsPerOne = powerOfTen 1074 := by
      rw [Binary64.unitsPerOne_eq, powerOfTen_eq, ← Nat.mul_pow]
    rw [← powers, ← Nat.mul_assoc] at exact
    rw [powers] at exact
    exact exact

/-! ## The search -/

/-- A point that is taken reads back. -/
theorem nearest_of_onGrid? {number : Binary64} {place : Int} {decimal : Decimal}
    (taken : onGrid? number place = some decimal) : decimal.nearest = number := by
  unfold onGrid? at taken
  dsimp only at taken
  split at taken
  · rename_i lower
    cases taken
    exact lower.1
  · split at taken
    · rename_i upper
      cases taken
      exact upper
    · cases taken

/-- **What is written of a finite number reads back as it.** -/
theorem nearest_shortest {number : Binary64} (finite : number.isFinite = true) :
    (shortest number).nearest = number := by
  simp only [shortest]
  split
  · rename_i zero
    obtain ⟨zeroFinite, zeroMagnitude⟩ := nearest_zero number.negative
    apply Binary64.eq_of_magnitude_eq zeroFinite finite
    · exact negative_nearest _
    · rw [zeroMagnitude, zero]
  · cases found : (searchPlaces number.magnitude).findSome? (onGrid? number) with
    | none => exact nearest_expansion finite
    | some decimal =>
      obtain ⟨place, -, taken⟩ := List.exists_of_findSome?_eq_some found
      exact nearest_of_onGrid? taken

/-- A number is written with its own sign. -/
theorem negative_shortest {number : Binary64} (finite : number.isFinite = true) :
    (shortest number).negative = number.negative := by
  rw [← negative_nearest, nearest_shortest finite]

/-- The text of a finite number is that of the shortest decimal. -/
theorem text_eq_characters {number : Binary64} (finite : number.isFinite = true) :
    number.text = String.ofList (shortest number).characters := by
  match number, finite with
  | .finite _ _ _ _, _ => rfl

/-! ## Digits -/

theorem digits_ne_nil (value : Nat) : digits value ≠ [] :=
  Nat.toDigits_ne_nil

theorem isDigit_of_mem_digits {value : Nat} {character : Char}
    (member : character ∈ digits value) : character.isDigit = true :=
  Nat.isDigit_of_mem_toDigits (by decide) (by decide) member

theorem isDigit_of_mem_paddedDigits {length value : Nat} {character : Char}
    (member : character ∈ paddedDigits length value) : character.isDigit = true := by
  rcases List.mem_append.mp member with zero | digit
  · rw [List.eq_of_mem_replicate zero]
    rfl
  · exact isDigit_of_mem_digits digit

/-- Zeros in front of digits do not change what they write. -/
theorem ofDigitChars_paddedDigits (length value : Nat) :
    Nat.ofDigitChars 10 (paddedDigits length value) 0 = value := by
  rw [paddedDigits, Nat.ofDigitChars_append, Nat.ofDigitChars_replicate_zero, Nat.mul_zero]
  exact Nat.ofDigitChars_ten_toDigits

/-- Each zero behind digits makes ten times as much of them. -/
theorem ofDigitChars_zeros (value zeros : Nat) :
    Nat.ofDigitChars 10 (digits value ++ List.replicate zeros '0') 0 = value * 10 ^ zeros := by
  rw [Nat.ofDigitChars_append, Nat.ofDigitChars_replicate_zero, Nat.mul_comm]
  exact congrArg (· * _) Nat.ofDigitChars_ten_toDigits

theorem length_paddedDigits (length value : Nat) : length ≤ (paddedDigits length value).length := by
  rw [paddedDigits, List.length_append, List.length_replicate]
  omega

end Quadratics.Decimal
