import Quadratics.Proofs.Binary64.Places
import Quadratics.Proofs.Decimal.Search

/-!
# The text of a whole number

A whole number is written without a point, as an integer that reads back as it
(`text_of_isWhole`): it is a point of the grid of the ones itself, and what is written ends at
no finer place.  For the same reason the integer that is written ends in as many zeros as an
integer can that reads back (`exists_zeros_shortest`).

Below `2 ^ 53` no other integer reads back, so there the number itself is written, with all
of its digits (`text_ofInt`).
-/

namespace Quadratics

set_option autoImplicit false

namespace Decimal

open Binary64 (ofQuotient unitsPerOne)

/-! ## Zeros at the end -/

/-- Each zero behind the digits of a number makes ten times as much of it. -/
theorem digits_mul_pow {value : Nat} (positive : 0 < value) (zeros : Nat) :
    digits (value * 10 ^ zeros) = digits value ++ List.replicate zeros '0' := by
  induction zeros with
  | zero => rw [Nat.pow_zero, Nat.mul_one, List.replicate_zero, List.append_nil]
  | succ zeros ih =>
    have next := @Nat.toDigits_append_toDigits 10 (value * 10 ^ zeros) 0 (by decide)
      (by positivity) (by decide)
    calc digits (value * 10 ^ (zeros + 1)) = digits (10 * (value * 10 ^ zeros) + 0) := by
          congr 1
          ring
      _ = digits (value * 10 ^ zeros) ++ ['0'] := next.symm
      _ = digits value ++ List.replicate (zeros + 1) '0' := by
          rw [ih, List.append_assoc, List.replicate_succ']

variable {x : Binary64} {wholes : Nat}

theorem nearest_wholes (negative : Bool) (wholes : Nat) :
    nearest ⟨negative, wholes, (0 : Nat)⟩ = ofQuotient negative (wholes * unitsPerOne) 1 := by
  show nearest ⟨negative, wholes, .ofNat 0⟩ = _
  rw [nearest_ofNat, powerOfTen_eq, Nat.pow_zero, Nat.mul_one]

/-- A whole number is a point of the grid of the ones. -/
theorem nearest_ones (finite : x.isFinite = true) (whole : x.magnitude = wholes * unitsPerOne) :
    nearest ⟨x.negative, wholes, (0 : Nat)⟩ = x := by
  rw [nearest_wholes, ← whole, Binary64.ofQuotient_magnitude finite]

/-- **Nothing is written behind the point of a whole number, and as many zeros in front of it
as can be.** -/
theorem exists_zeros_shortest (finite : x.isFinite = true)
    (whole : x.magnitude = wholes * unitsPerOne) (positive : 0 < wholes) :
    ∃ coefficient zeros : Nat, shortest x = ⟨x.negative, coefficient, (zeros : Int)⟩ ∧
      ∀ coefficient' zeros' : Nat, nearest ⟨x.negative, coefficient', (zeros' : Int)⟩ = x →
        zeros' ≤ zeros := by
  have nonzero : x.magnitude ≠ 0 := by
    rw [whole]
    exact (Nat.mul_pos positive Binary64.unitsPerOne_pos).ne'
  obtain ⟨zeros, isPlace⟩ := Int.eq_ofNat_of_zero_le
    (le_place_shortest_of_reads finite nonzero (nearest_ones finite whole))
  refine ⟨(shortest x).coefficient, zeros, ?_, fun coefficient' zeros' reads => ?_⟩
  · rw [← isPlace, ← negative_shortest finite]
  · have atLeast := le_place_shortest_of_reads finite nonzero reads
    omega

end Decimal

/-! ## The text -/

open Decimal (digits shortest)

theorem toString_eq_digits (number : ℤ) : toString number =
    String.ofList (if number < 0 then '-' :: digits number.natAbs else digits number.natAbs) := by
  rw [← String.toList_inj, String.toList_ofList, Int.toString_eq_repr]
  match number with
  | .ofNat count => exact Nat.toList_repr
  | .negSucc count =>
    rw [if_pos (Int.negSucc_lt_zero count), Int.repr, String.toList_append, Nat.toList_repr]
    rfl

namespace Binary64

variable {x : Binary64} {number written : ℤ}

/-- An integer is read like its digits. -/
theorem ofInt_eq_nearest (number : ℤ) :
    ofInt number = Decimal.nearest ⟨decide (number < 0), number.natAbs, (0 : Nat)⟩ := by
  rw [Decimal.nearest_wholes]
  rfl

theorem decide_signed_lt_zero (negative : Bool) {count : Nat} (positive : 0 < count) :
    decide (signed negative count < 0) = negative := by
  cases negative <;> simp [signed, positive]

theorem natAbs_signed (negative : Bool) (count : Nat) : (signed negative count).natAbs = count := by
  cases negative <;> simp [signed]

theorem toString_signed (negative : Bool) {count : Nat} (positive : 0 < count) :
    toString (signed negative count) =
      String.ofList (if negative then '-' :: digits count else digits count) := by
  have sign := decide_signed_lt_zero negative positive
  rw [toString_eq_digits, natAbs_signed]
  cases negative with
  | false => rw [if_neg (of_decide_eq_false sign), if_neg Bool.false_ne_true]
  | true => rw [if_pos (of_decide_eq_true sign), if_pos rfl]

/-- A zero without a sign is the number zero. -/
theorem eq_zero_of_magnitude (finite : x.isFinite = true) (none : x.magnitude = 0)
    (unsigned : x ≠ -0) : x = 0 := by
  cases sign : x.negative with
  | false => exact eq_of_magnitude_eq finite vanishes_zero.1 sign (none.trans vanishes_zero.2.symm)
  | true => exact absurd (eq_of_magnitude_eq finite vanishes_zero.neg.1 sign
      (none.trans vanishes_zero.neg.2.symm)) unsigned

/-- **A whole number is written as an integer that reads back as it**, with as many zeros at
the end as such an integer can have. -/
theorem text_of_isWhole (whole : x.isWhole = true) (unsigned : x ≠ -0) :
    ∃ written : ℤ, x.text = toString written ∧ ofInt written = x ∧
      ∀ (other : ℤ) (zeros : Nat), ofInt other = x → 10 ^ zeros ∣ other → 10 ^ zeros ∣ written := by
  have finite := (isWhole_iff.mp whole).1
  rw [isWhole, Bool.and_eq_true, beq_iff_eq, ← Nat.dvd_iff_mod_eq_zero] at whole
  obtain ⟨-, wholes, same⟩ := whole
  rw [Nat.mul_comm] at same
  rcases Nat.eq_zero_or_pos wholes with rfl | positive
  · obtain rfl := eq_zero_of_magnitude finite (same.trans (Nat.zero_mul _)) unsigned
    refine ⟨0, ?_, rfl, fun other zeros _ _ => dvd_zero _⟩
    rw [Decimal.text_eq_characters vanishes_zero.1, shortest, if_pos vanishes_zero.2]
    rfl
  · obtain ⟨coefficient, zeros, isShortest, most⟩ :=
      Decimal.exists_zeros_shortest finite same positive
    have reads := Decimal.nearest_shortest finite
    rw [isShortest] at reads
    have nonzero : x.magnitude ≠ 0 := by
      rw [same]
      exact (Nat.mul_pos positive unitsPerOne_pos).ne'
    have point := Decimal.coefficient_pos_of_reads nonzero reads
    have amount : 0 < coefficient * 10 ^ zeros := Nat.mul_pos point (Nat.pow_pos (by decide))
    refine ⟨signed x.negative (coefficient * 10 ^ zeros), ?_, ?_, ?_⟩
    · rw [Decimal.text_eq_characters finite, isShortest, toString_signed _ amount,
        Decimal.digits_mul_pow point]
      rfl
    · rw [ofInt_eq_nearest, decide_signed_lt_zero _ amount, natAbs_signed]
      exact (Decimal.nearest_zeros _ _ _).trans reads
    · intro other zeros' otherReads divides
      have sign : decide (other < 0) = x.negative := by
        rw [← otherReads, ofInt, negative_ofQuotient]
      obtain ⟨factor, split⟩ := Int.natAbs_dvd_natAbs.mpr divides
      rw [Int.natAbs_pow] at split
      rw [ofInt_eq_nearest, sign, split, Nat.mul_comm] at otherReads
      have fewer := most factor zeros' ((Decimal.nearest_zeros _ _ _).symm.trans otherReads)
      rw [← Int.natAbs_dvd_natAbs, natAbs_signed, Int.natAbs_pow]
      exact (Nat.pow_dvd_pow 10 fewer).trans (Nat.dvd_mul_left _ _)

/-- Below `2 ^ 53` no other integer reads back. -/
theorem eq_of_ofInt_eq (small : |number| < 2 ^ 53) (same : ofInt written = ofInt number) :
    written = number := by
  obtain ⟨finite, exact⟩ := toRat_rounded_intCast small.le
  rw [ofInt_eq_rounded, ofInt_eq_rounded] at same
  rw [← same] at finite exact
  have medium : |written| ≤ 2 ^ 53 := by
    -- Rounding does not carry a larger number below `2 ^ 53`.
    obtain ⟨limitFinite, limit⟩ := toRat_ofNat (2 ^ 53) (by decide)
    by_contra large
    have beyond : (OfNat.ofNat (2 ^ 53) : Binary64).toRat ≤ |(written : ℚ)| := by
      rw [limit]
      exact_mod_cast (not_le.mp large).le
    have kept := le_abs_toRat_rounded limitFinite finite beyond
    rw [exact, limit] at kept
    have back : (2 : ℤ) ^ 53 ≤ |number| := by exact_mod_cast kept
    omega
  rw [(toRat_rounded_intCast medium).2, Int.cast_inj] at exact
  exact exact

/-- **A whole number below `2 ^ 53` is written as the integer that it is.** -/
theorem text_ofInt (small : |number| < 2 ^ 53) : (ofInt number).text = toString number := by
  obtain ⟨finite, exact⟩ := toRat_rounded_intCast small.le
  rw [← ofInt_eq_rounded] at finite exact
  have unsigned : ofInt number ≠ -0 := by
    intro signedZero
    have sign : decide (number < 0) = true := by
      rw [← negative_ofQuotient (decide (number < 0)) (number.natAbs * unitsPerOne) 1, ← ofInt,
        signedZero]
      rfl
    rw [signedZero, toRat_neg, toRat_zero, neg_zero, eq_comm, Int.cast_eq_zero] at exact
    rw [exact] at sign
    cases sign
  obtain ⟨written, isText, reads, -⟩ :=
    text_of_isWhole (isWhole_iff.mpr ⟨finite, number, exact⟩) unsigned
  rw [isText, eq_of_ofInt_eq small reads]

end Binary64

end Quadratics
