import Quadratics.Term
import Quadratics.Proofs.Binary64.Opposites

/-!
# Sums of terms

A sum of terms is partial.  `Term.Takes` says which addends a term takes: the number zero,
and what has the term's own power, where any other number counts as a constant.  The sum is
made exactly then (`Term.add_eq_ok_iff`), and a failure keeps the term and the addend as it
was to be added (`Term.add_eq_error_iff`).

Where sums are made they are those of the coefficients (`Term.add_of_takes`).  So an addend
that vanishes is neutral, a term that vanishes gives back what is added to it, and like terms
may change places (`Term.add_laws`).

A vanishing term is not neutral for terms of another power, on neither side: it has a power
like every other term, and only the number zero is tried before powers are compared
(`Term.not_takes_zero`).
-/

namespace Quadratics

set_option autoImplicit false

open Binary64 (Alike)

/-- The term that an addend stands for when it is not the number zero. -/
def Addend.asTerm : Addend → Term
  | .number value => .constant value
  | .term summand => summand

/-- Does the addend vanish? -/
def Addend.isZero (addend : Addend) : Bool :=
  addend.asTerm.isZero

@[simp]
theorem Addend.asTerm_number (value : Binary64) : (number value).asTerm = .constant value := rfl

@[simp]
theorem Addend.asTerm_term (summand : Term) : (term summand).asTerm = summand := rfl

theorem Addend.asTerm_neg (addend : Addend) : addend.neg.asTerm = addend.asTerm.neg := by
  cases addend <;> rfl

namespace Term

variable {left right : Term} {addend : Addend}

/-- A term takes an addend that is the number zero, or that has its power. -/
def Takes (left : Term) (addend : Addend) : Prop :=
  (∃ zero, addend = .number zero ∧ zero.Vanishes) ∨ left.power = addend.asTerm.power

@[simp]
theorem isLike_iff : left.isLike right = true ↔ left.power = right.power :=
  beq_iff_eq

theorem isZero_iff {term : Term} : term.isZero = true ↔ term.value.Vanishes :=
  Binary64.sameNumber_zero_iff

theorem takes_term : left.Takes (.term right) ↔ left.power = right.power := by
  simp [Takes]

theorem takes_number {value : Binary64} :
    left.Takes (.number value) ↔ value.Vanishes ∨ left.power = 0 := by
  simp [Takes, constant]

/-! ## When a sum is made -/

theorem addTerm_of_isLike (like : left.power = right.power) :
    left.addTerm right = .ok ⟨left.value + right.value, left.power⟩ :=
  if_pos (isLike_iff.mpr like)

theorem addTerm_of_not_isLike (unlike : left.power ≠ right.power) :
    left.addTerm right = .error ⟨left, right⟩ :=
  if_neg (mt isLike_iff.mp unlike)

theorem add_zero_number {zero : Binary64} (vanishes : zero.Vanishes) :
    left.add (.number zero) = .ok left :=
  if_pos (Binary64.sameNumber_zero_iff.mpr vanishes)

/-- **A number that is not zero is a constant.** -/
theorem add_nonzero_number {value : Binary64} (nonzero : ¬ value.Vanishes) :
    left.add (.number value) = left.add (.term (constant value)) :=
  if_neg (mt Binary64.sameNumber_zero_iff.mp nonzero)

/-- **The sums that are made are those of the coefficients**, but for the sign of a zero: the
number zero leaves a negative zero as it is. -/
theorem add_of_takes (takes : left.Takes addend) :
    ∃ sum, left.add addend = .ok sum ∧ Alike sum.value (left.value + addend.asTerm.value) ∧
      sum.power = left.power := by
  match addend with
  | .term right => exact ⟨_, addTerm_of_isLike (takes_term.mp takes), .refl _, rfl⟩
  | .number value =>
    -- A zero gives back the term itself, whose coefficient may be the other zero than the sum.
    by_cases vanishes : value.Vanishes
    · exact ⟨left, add_zero_number vanishes,
        (Binary64.alike_add_of_vanishes vanishes left.value).symm, rfl⟩
    · have constants := (takes_number.mp takes).resolve_left vanishes
      rw [add_nonzero_number vanishes]
      exact ⟨_, addTerm_of_isLike constants, .refl _, rfl⟩

/-- A sum that is not made keeps both operands. -/
theorem add_of_not_takes (refused : ¬ left.Takes addend) :
    left.add addend = .error ⟨left, addend.asTerm⟩ := by
  match addend with
  | .term right => exact addTerm_of_not_isLike (mt takes_term.mpr refused)
  | .number value =>
    obtain ⟨nonzero, unlike⟩ := not_or.mp (mt takes_number.mpr refused)
    rw [add_nonzero_number nonzero]
    exact addTerm_of_not_isLike unlike

theorem add_eq_ok_iff : (∃ sum, left.add addend = .ok sum) ↔ left.Takes addend := by
  constructor
  · rintro ⟨sum, made⟩
    by_contra refused
    rw [add_of_not_takes refused] at made
    cases made
  · intro takes
    obtain ⟨sum, made, -⟩ := add_of_takes takes
    exact ⟨sum, made⟩

theorem add_eq_error_iff {mismatch : PowerMismatch} :
    left.add addend = .error mismatch ↔ ¬ left.Takes addend ∧ mismatch = ⟨left, addend.asTerm⟩ := by
  constructor
  · intro failed
    have refused : ¬ left.Takes addend := by
      intro takes
      obtain ⟨sum, made, -⟩ := add_of_takes takes
      rw [made] at failed
      cases failed
    rw [add_of_not_takes refused] at failed
    cases failed
    exact ⟨refused, rfl⟩
  · rintro ⟨refused, rfl⟩
    exact add_of_not_takes refused

/-! ## Zeros -/

/-- Terms of one power whose coefficients differ at most in the sign of a zero are the same. -/
theorem sameTerm_of_alike {term other : Term} (finite : term.value.isFinite = true)
    (alike : Alike other.value term.value) (like : other.power = term.power) :
    other.sameTerm term = true := by
  have otherFinite : other.value.isFinite = true := alike.isFinite_eq.trans finite
  rw [sameTerm, (Alike.iff_sameNumber otherFinite).mp alike, like, beq_self_eq_true]
  rfl

/-- **An addend that vanishes is neutral** for a term that takes it. -/
theorem add_of_isZero (finite : left.value.isFinite = true) (zero : addend.isZero = true)
    (takes : left.Takes addend) : ∃ sum, left.add addend = .ok sum ∧ sum.sameTerm left = true := by
  obtain ⟨sum, made, value, power⟩ := add_of_takes takes
  refine ⟨sum, made, sameTerm_of_alike finite (value.trans ?_) power⟩
  exact Binary64.alike_add_of_vanishes (isZero_iff.mp zero) left.value

/-- **A term that vanishes gives back what it takes.** -/
theorem add_of_isZero_left (finite : addend.asTerm.value.isFinite = true)
    (zero : left.isZero = true) (like : left.power = addend.asTerm.power) :
    ∃ sum, left.add addend = .ok sum ∧ sum.sameTerm addend.asTerm = true := by
  obtain ⟨sum, made, value, power⟩ := add_of_takes (.inr like)
  refine ⟨sum, made, sameTerm_of_alike finite (value.trans ?_) (power.trans like)⟩
  exact Binary64.alike_add_of_vanishes_left (isZero_iff.mp zero) addend.asTerm.value

/-- A term does not take a vanishing term of another power, nor is it taken by one. -/
theorem not_takes_zero {zero : Binary64} {power : UInt32} (unlike : left.power ≠ power) :
    ¬ left.Takes (.term ⟨zero, power⟩) ∧ ¬ Takes ⟨zero, power⟩ (.term left) :=
  ⟨mt takes_term.mp unlike, fun takes => unlike (takes_term.mp takes).symm⟩

theorem isZero_neg : addend.neg.isZero = addend.isZero := by
  rw [Bool.eq_iff_iff, Addend.isZero, Addend.isZero, Addend.asTerm_neg, isZero_iff, isZero_iff]
  exact Binary64.vanishes_neg_iff

theorem takes_neg : left.Takes addend.neg ↔ left.Takes addend := by
  match addend with
  | .term right =>
    rw [Addend.neg, takes_term, takes_term]
    rfl
  | .number value => rw [Addend.neg, takes_number, takes_number, Binary64.vanishes_neg_iff]

/-! ## The laws of addition -/

theorem add_term_comm (finite : left.value.isFinite = true) (like : left.power = right.power) :
    left.add (.term right) = right.add (.term left) := by
  rw [add, add, addTerm_of_isLike like, addTerm_of_isLike like.symm, like,
    Binary64.add_comm_of_isFinite finite]

/-- **The laws of addition.**  A sum is made exactly when the addend is taken, and a failure
keeps both operands.  An addend that vanishes is neutral where it is taken, also when it is
subtracted, and so is a term that vanishes for like terms.  Two terms have a sum exactly when
they are alike in power, and may then change places.  A number that is not zero is a constant,
and a difference is the sum with the negated addend. -/
theorem add_laws (leftFinite : left.value.isFinite = true)
    (rightFinite : right.value.isFinite = true) (addend : Addend) :
    ((∃ sum, left.add addend = .ok sum) ↔ left.Takes addend) ∧
      (∀ mismatch, left.add addend = .error mismatch ↔
        ¬ left.Takes addend ∧ mismatch = ⟨left, addend.asTerm⟩) ∧
      (∀ mismatch, left.sub addend = .error mismatch ↔
        ¬ left.Takes addend ∧ mismatch = ⟨left, addend.asTerm.neg⟩) ∧
      (addend.isZero = true → left.Takes addend →
        (∃ sum, left.add addend = .ok sum ∧ sum.sameTerm left = true) ∧
          ∃ difference, left.sub addend = .ok difference ∧ difference.sameTerm left = true) ∧
      (left.isZero = true → left.power = right.power →
        ∃ sum, left.add (.term right) = .ok sum ∧ sum.sameTerm right = true) ∧
      ((∃ sum, left.add (.term right) = .ok sum) ↔ left.power = right.power) ∧
      (left.power = right.power → left.add (.term right) = right.add (.term left)) ∧
      (∀ value : Binary64, ¬ value.Vanishes →
        left.add (.number value) = left.add (.term (constant value))) ∧
      left.sub addend = left.add addend.neg := by
  refine ⟨add_eq_ok_iff, fun _ => add_eq_error_iff, fun _ => ?_, fun zero takes => ⟨?_, ?_⟩,
    fun zero like => ?_, ?_, add_term_comm leftFinite, fun _ => add_nonzero_number, rfl⟩
  · rw [sub, add_eq_error_iff, takes_neg, Addend.asTerm_neg]
  · exact add_of_isZero leftFinite zero takes
  · exact add_of_isZero leftFinite (isZero_neg.trans zero) (takes_neg.mpr takes)
  · exact add_of_isZero_left rightFinite zero like
  · rw [add_eq_ok_iff, takes_term]

/-- The laws for `3 * x` and `4 * x`, and for the number zero. -/
theorem add_laws_linear :
    add ⟨3, 1⟩ (.term ⟨4, 1⟩) = add ⟨4, 1⟩ (.term ⟨3, 1⟩) ∧
      ∃ sum, add ⟨3, 1⟩ (.number 0) = .ok sum ∧ sum.sameTerm ⟨3, 1⟩ = true := by
  have three := Binary64.toRat_ofNat 3 (by decide)
  have four := Binary64.toRat_ofNat 4 (by decide)
  obtain ⟨-, -, -, neutral, -, -, commutes, -⟩ :=
    @add_laws ⟨3, 1⟩ ⟨4, 1⟩ three.1 four.1 (.number 0)
  have zero : Addend.isZero (.number 0) = true := isZero_iff.mpr Binary64.vanishes_zero
  exact ⟨commutes rfl, (neutral zero (takes_number.mpr (.inl Binary64.vanishes_zero))).1⟩

/-- Nothing times `x^2` is not added to `3 * x`, nor `3 * x` to it. -/
theorem add_zero_of_other_power :
    isZero ⟨0, 2⟩ = true ∧
      add ⟨3, 1⟩ (.term ⟨0, 2⟩) = .error ⟨⟨3, 1⟩, ⟨0, 2⟩⟩ ∧
      add ⟨0, 2⟩ (.term ⟨3, 1⟩) = .error ⟨⟨0, 2⟩, ⟨3, 1⟩⟩ := by
  have unlike : Term.power ⟨3, 1⟩ ≠ 2 := by decide
  obtain ⟨refused, refusing⟩ := @not_takes_zero ⟨3, 1⟩ 0 2 unlike
  exact ⟨isZero_iff.mpr Binary64.vanishes_zero, add_of_not_takes refused, add_of_not_takes refusing⟩

end Term

end Quadratics
