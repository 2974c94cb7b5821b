import Mathlib.Algebra.Polynomial.Monomial
import Mathlib.Algebra.Polynomial.Eval.Degree
import Quadratics.Proofs.Binary64.Operations
import Quadratics.Proofs.Equation.Reading

/-!
# The polynomial of some terms

Terms with exact values add up to a polynomial over the rational numbers, and its
coefficients are the exact sums of like values (`coeff_polynomial`).  On a canonical
list nothing is left to add up: its coefficients are its values
(`exactSum_likeValues`), and its degree is its highest power (`natDegree_polynomial`).
-/

namespace Quadratics.Equation

set_option autoImplicit false

/-! ## Exact sums -/

/-- The exact sum of some values. -/
def exactSum (values : List Binary64) : ℚ :=
  (values.map Binary64.toRat).sum

theorem exactSum_cons (value : Binary64) (values : List Binary64) :
    exactSum (value :: values) = value.toRat + exactSum values := by
  rw [exactSum, List.map_cons, List.sum_cons, exactSum]

theorem exactSum_append (front back : List Binary64) :
    exactSum (front ++ back) = exactSum front + exactSum back := by
  rw [exactSum, List.map_append, List.sum_append, exactSum, exactSum]

theorem exactSum_neg (values : List Binary64) :
    exactSum (values.map fun value => -value) = -exactSum values := by
  induction values with
  | nil => rfl
  | cons value values ih =>
    rw [List.map_cons, exactSum_cons, ih, exactSum_cons, Binary64.toRat_neg]
    ring

/-- A balance adds up to the left side less the right side. -/
theorem exactSum_balance (left right : List Term) (power : UInt32) :
    exactSum (balance left right power) =
      exactSum (likeValues left power) - exactSum (likeValues right power) := by
  rw [balance, exactSum_append, exactSum_neg, sub_eq_add_neg]

/-! ## Polynomials -/

/-- The polynomial that some terms write, with their exact values. -/
noncomputable def polynomial (terms : List Term) : Polynomial ℚ :=
  (terms.map fun term => Polynomial.monomial term.power.toNat term.value.toRat).sum

theorem polynomial_cons (term : Term) (terms : List Term) :
    polynomial (term :: terms) =
      Polynomial.monomial term.power.toNat term.value.toRat + polynomial terms := by
  rw [polynomial, List.map_cons, List.sum_cons, polynomial]

/-- **The coefficients are the exact sums of like values.** -/
theorem coeff_polynomial (terms : List Term) (power : UInt32) :
    (polynomial terms).coeff power.toNat = exactSum (likeValues terms power) := by
  induction terms with
  | nil => exact Polynomial.coeff_zero _
  | cons term terms ih =>
    rw [polynomial_cons, Polynomial.coeff_add, ih, Polynomial.coeff_monomial, likeValues_cons,
      exactSum_append]
    congr 1
    simp only [UInt32.toNat_inj]
    split
    · rw [exactSum_cons]
      exact (add_zero _).symm
    · rfl

/-- A term has no larger power than its type allows. -/
theorem coeff_polynomial_of_large (terms : List Term) {exponent : Nat}
    (large : UInt32.size ≤ exponent) : (polynomial terms).coeff exponent = 0 := by
  induction terms with
  | nil => exact Polynomial.coeff_zero _
  | cons term terms ih =>
    rw [polynomial_cons, Polynomial.coeff_add, ih, Polynomial.coeff_monomial, add_zero]
    exact if_neg (Nat.ne_of_lt (term.power.toNat_lt_size.trans_le large))

/-- An exponent is the power of a term, or too large for one. -/
theorem exists_power_or_large (exponent : Nat) :
    (∃ power : UInt32, power.toNat = exponent) ∨ UInt32.size ≤ exponent := by
  rcases Nat.lt_or_ge exponent UInt32.size with small | large
  · exact .inl ⟨.ofNat exponent, UInt32.toNat_ofNat_of_lt' small⟩
  · exact .inr large

/-! ## Canonical lists -/

/-- The values of a power in a canonical list add up to its coefficient. -/
theorem exactSum_likeValues {terms : List Term} (canonical : Canonical terms) (power : UInt32)
    (right : List Term) (form : Form) :
    exactSum (likeValues terms power) = (coefficient ⟨terms, right, form⟩ power).toRat := by
  simp only [coefficient]
  split
  · rename_i term found
    have holds := List.find?_some found
    rw [← beq_iff_eq.mp holds, canonical.likeValues_eq (List.mem_of_find?_eq_some found),
      exactSum_cons]
    exact add_zero _
  · rename_i missing
    have absent := List.find?_eq_none.mp missing
    rw [likeValues_eq_nil fun term member same => absent term member (beq_iff_eq.mpr same),
      Binary64.toRat_zero]
    rfl

/-- **The degree of a canonical list is its highest power.** -/
theorem natDegree_polynomial {terms : List Term} (canonical : Canonical terms)
    (finite : ∀ term ∈ terms, term.value.isFinite = true) :
    (polynomial terms).natDegree = (highestPower terms).toNat := by
  apply le_antisymm
  · rw [Polynomial.natDegree_le_iff_coeff_eq_zero]
    intro exponent above
    rcases exists_power_or_large exponent with ⟨power, rfl⟩ | large
    · have bounded := highestPower_le_iff.mp (UInt32.le_refl (highestPower terms))
      rw [coeff_polynomial, likeValues_eq_nil]
      · rfl
      · rintro term member rfl
        exact absurd above (Nat.not_lt.mpr (UInt32.le_iff_toNat_le.mp (bounded term member)))
    · exact coeff_polynomial_of_large terms large
  · by_cases constant : highestPower terms = 0
    · rw [constant]
      exact Nat.zero_le _
    · obtain ⟨term, member, same⟩ := exists_mem_highestPower constant
      apply Polynomial.le_natDegree_of_ne_zero
      rw [← same, coeff_polynomial, canonical.likeValues_eq member, exactSum_cons]
      intro zero
      have vanishes := (Binary64.vanishes_iff_toRat (finite term member)).mpr
        ((add_zero _).symm.trans zero)
      exact Binary64.sameNumber_zero_eq_false_iff.mp (canonical.nonzero term member) vanishes

end Quadratics.Equation
