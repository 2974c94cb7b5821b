import Quadratics.Proofs.Binary64.Opposites
import Quadratics.Proofs.Equation.CanonicalForm

/-!
# Mirrored equations

An equation is mirrored when every value on both sides changes its sign
(`Equation.negated`), or when its sides are exchanged (`Equation.exchanged`).  Either way
the values of each power amount to the opposite (`opposite_collect`), and so the reduced
form has every value negated (`reduce_mirrored`).

For an exchange a power must not occur more than once on a side.  Then its balance has two
values at most, and the order of two values does not matter (`collect_swap`); that of three
may, since each partial sum is rounded.
-/

namespace Quadratics.Equation

set_option autoImplicit false

open Binary64 (Alike Opposite larger)

/-! ## Mirroring -/

/-- The equation with every value negated. -/
def negated (equation : Equation) : Equation :=
  ⟨equation.left.map Term.neg, equation.right.map Term.neg, equation.form⟩

/-- The equation with its sides exchanged. -/
def exchanged (equation : Equation) : Equation :=
  ⟨equation.right, equation.left, equation.form⟩

/-- Each power occurs at most once on each side. -/
def PowersOnce (equation : Equation) : Prop :=
  (equation.left.map Term.power).Nodup ∧ (equation.right.map Term.power).Nodup

instance (equation : Equation) : Decidable equation.PowersOnce :=
  inferInstanceAs (Decidable (_ ∧ _))

/-- All values of an equation are finite. -/
def FiniteValues (equation : Equation) : Prop :=
  ∀ term ∈ equation.left ++ equation.right, term.value.isFinite = true

/-- One equation is the other one negated, or exchanged without a power repeated. -/
inductive Mirrored (equation : Equation) : Equation → Prop where
  /-- Every value is negated. -/
  | negated : Mirrored equation equation.negated
  /-- The sides are exchanged. -/
  | exchanged (once : equation.PowersOnce) : Mirrored equation equation.exchanged

/-! ## Collecting opposite values -/

theorem foldl_add_opposite {first second : Binary64} (opposite : Opposite first second)
    {values : List Binary64} (finite : ∀ value ∈ values, value.isFinite = true) :
    Opposite (values.foldl Binary64.add first)
      ((values.map fun value => -value).foldl Binary64.add second) := by
  induction values generalizing first second with
  | nil => exact opposite
  | cons value values ih =>
    obtain ⟨here, later⟩ := List.forall_mem_cons.mp finite
    exact ih (opposite.add (Binary64.opposite_neg (Binary64.isNaN_eq_false here)) here) later

theorem total_opposite {values : List Binary64} (finite : ∀ value ∈ values, value.isFinite = true) :
    Opposite (total values) (total (values.map fun value => -value)) := by
  cases values with
  | nil => exact Binary64.opposite_zero
  | cons value values =>
    obtain ⟨here, later⟩ := List.forall_mem_cons.mp finite
    exact foldl_add_opposite (Binary64.opposite_neg (Binary64.isNaN_eq_false here)) later

theorem largest_neg (values : List Binary64) :
    largest (values.map fun value => -value) = largest values := by
  rw [largest_eq_foldl, largest_eq_foldl, List.map_map]
  exact congrArg (List.foldl larger 0) (List.map_congr_left fun value _ => Binary64.abs_neg value)

/-- **Negated values amount to the opposite.** -/
theorem collect_opposite {values : List Binary64}
    (finite : ∀ value ∈ values, value.isFinite = true) :
    Opposite (collect values) (collect (values.map fun value => -value)) := by
  have totals := total_opposite finite
  unfold collect cancels
  rw [List.length_map, largest_neg, totals.abs_eq]
  split
  · exact Binary64.opposite_zero
  · exact totals

/-! ## Two values in either order -/

theorem larger_comm {x y : Binary64} (xFinite : x.isFinite = true) (yFinite : y.isFinite = true)
    (xUnsigned : x.negative = false) (yUnsigned : y.negative = false) :
    larger x y = larger y x := by
  simp only [larger, Binary64.isNaN_eq_false xFinite, Binary64.isNaN_eq_false yFinite,
    Bool.false_eq_true, if_false, Binary64.lt_iff xFinite yFinite, Binary64.lt_iff yFinite xFinite]
  rcases lt_trichotomy x.units y.units with below | same | above
  · rw [if_pos below, if_neg below.asymm]
  · have equal : x = y := by
      refine Binary64.eq_of_magnitude_eq xFinite yFinite (xUnsigned.trans yUnsigned.symm) ?_
      rw [← Binary64.natAbs_units, same, Binary64.natAbs_units]
    rw [equal]
  · rw [if_neg above.asymm, if_pos above]

/-- The order of two finite values does not matter. -/
theorem collect_swap {x y : Binary64} (xFinite : x.isFinite = true) (yFinite : y.isFinite = true) :
    collect [x, y] = collect [y, x] := by
  have totals : total [x, y] = total [y, x] := Binary64.add_comm_of_isFinite xFinite y
  have bounds : largest [x, y] = largest [y, x] := by
    show larger (largest [x]) y.abs = larger (largest [y]) x.abs
    rw [largest_singleton (Binary64.isNaN_eq_false xFinite),
      largest_singleton (Binary64.isNaN_eq_false yFinite)]
    exact larger_comm ((Binary64.isFinite_abs x).trans xFinite)
      ((Binary64.isFinite_abs y).trans yFinite) (Binary64.negative_abs x) (Binary64.negative_abs y)
  unfold collect cancels
  rw [totals, bounds]
  rfl

/-- Two lists of one value at most may be collected in either order. -/
theorem collect_append_comm {front back : List Binary64} (frontShort : front.length ≤ 1)
    (backShort : back.length ≤ 1) (frontFinite : ∀ value ∈ front, value.isFinite = true)
    (backFinite : ∀ value ∈ back, value.isFinite = true) :
    collect (front ++ back) = collect (back ++ front) := by
  match front, back, frontShort, backShort with
  | [], back, _, _ => rw [List.nil_append, List.append_nil]
  | front, [], _, _ => rw [List.nil_append, List.append_nil]
  | [x], [y], _, _ =>
    exact collect_swap (frontFinite x List.mem_cons_self) (backFinite y List.mem_cons_self)

/-! ## Balances of mirrored equations -/

/-- A power that occurs once at most has one value at most. -/
theorem length_likeValues_le {terms : List Term} (once : (terms.map Term.power).Nodup)
    (power : UInt32) : (likeValues terms power).length ≤ 1 := by
  have counted : (likeValues terms power).length = (terms.map Term.power).count power := by
    rw [likeValues, List.length_map, ← List.countP_eq_length_filter, List.count, List.countP_map]
    rfl
  rw [counted]
  exact List.nodup_iff_count_le_one.mp once power

theorem isFinite_likeValues {terms : List Term}
    (finite : ∀ term ∈ terms, term.value.isFinite = true) (power : UInt32) :
    ∀ value ∈ likeValues terms power, value.isFinite = true := by
  intro value member
  obtain ⟨term, kept, rfl⟩ := List.mem_map.mp member
  exact finite term (List.mem_of_mem_filter kept)

theorem isFinite_map_neg {values : List Binary64}
    (finite : ∀ value ∈ values, value.isFinite = true) :
    ∀ value ∈ values.map fun value => -value, value.isFinite = true := by
  intro value member
  obtain ⟨original, originalMember, rfl⟩ := List.mem_map.mp member
  exact (Binary64.isFinite_neg original).trans (finite original originalMember)

theorem isFinite_balance {equation : Equation} (finite : equation.FiniteValues) (power : UInt32) :
    ∀ value ∈ balance equation.left equation.right power, value.isFinite = true := by
  obtain ⟨left, right⟩ := List.forall_mem_append.mp finite
  exact List.forall_mem_append.mpr
    ⟨isFinite_likeValues left power, isFinite_map_neg (isFinite_likeValues right power)⟩

theorem balance_negated (left right : List Term) (power : UInt32) :
    balance (left.map Term.neg) (right.map Term.neg) power =
      (balance left right power).map fun value => -value := by
  rw [balance, balance, likeValues_neg, likeValues_neg, List.map_append]

/-- **The balances of a mirrored equation amount to the opposite.** -/
theorem opposite_collect {equation other : Equation} (mirrored : Mirrored equation other)
    (finite : equation.FiniteValues) (power : UInt32) :
    Opposite (collect (balance equation.left equation.right power))
      (collect (balance other.left other.right power)) := by
  obtain ⟨leftFinite, rightFinite⟩ := List.forall_mem_append.mp finite
  have left := isFinite_likeValues leftFinite power
  have right := isFinite_likeValues rightFinite power
  have opposite := collect_opposite (isFinite_balance finite power)
  cases mirrored with
  | negated => exact (balance_negated equation.left equation.right power).symm ▸ opposite
  | exchanged once =>
    -- Negated, a balance has the values of the exchanged one, the left side first.
    have swapped : collect (balance equation.right equation.left power) =
        collect ((balance equation.left equation.right power).map fun value => -value) := by
      rw [← balance_negated, balance, balance, likeValues_neg, likeValues_neg, List.map_map]
      simp only [Function.comp_def, Binary64.neg_neg, List.map_id']
      exact collect_append_comm (length_likeValues_le once.2 power)
        ((List.length_map _).trans_le (length_likeValues_le once.1 power)) right
        (isFinite_map_neg left)
    exact swapped.symm ▸ opposite

/-! ## Reduced forms of mirrored equations -/

theorem neg_involutive : Function.Involutive Term.neg :=
  fun term => congrArg (Term.mk · term.power) (Binary64.neg_neg term.value)

theorem isZero_neg (term : Term) : term.neg.isZero = term.isZero := by
  rw [Bool.eq_iff_iff, Term.isZero, Term.isZero, Binary64.sameNumber_zero_iff,
    Binary64.sameNumber_zero_iff, Binary64.Vanishes, Binary64.Vanishes]
  rw [show term.neg.value = -term.value from rfl, Binary64.isFinite_neg, Binary64.magnitude_neg]

theorem eq_of_value_eq {term other : Term} (values : term.value = other.value)
    (powers : term.power = other.power) : term = other := by
  obtain ⟨value, power⟩ := term
  subst values powers
  rfl

section Change

variable {change : Term → Term} (involutive : Function.Involutive change)
  (samePower : ∀ term, (change term).power = term.power)
  (sameZero : ∀ term, (change term).isZero = term.isZero)
include involutive samePower sameZero

/-- A canonical list stays canonical when its terms are changed. -/
theorem Canonical.map {terms : List Term} (canonical : Canonical terms) :
    Canonical (terms.map change) where
  descending := by
    refine List.pairwise_map.mpr (canonical.descending.imp ?_)
    intro higher lower below
    rwa [samePower, samePower]
  nonzero term member := by
    rw [← sameZero]
    exact canonical.nonzero _ ((List.mem_map_of_involutive involutive).mp member)

/-- **Terms whose values amount to changed ones collect to changed terms.** -/
theorem collectTerms_map {terms others : List Term}
    (alike : ∀ power, Alike (collect (likeValues others power))
      (change ⟨collect (likeValues terms power), power⟩).value) :
    collectTerms others = (collectTerms terms).map change := by
  apply (canonical_collectTerms others).ext
    ((canonical_collectTerms terms).map involutive samePower sameZero)
  intro term
  rw [List.mem_map_of_involutive involutive, mem_collectTerms, mem_collectTerms, sameZero]
  apply and_congr_right
  intro nonzero
  have notZero : ¬ term.value.Vanishes := Binary64.sameNumber_zero_eq_false_iff.mp nonzero
  have alike := alike term.power
  have powers := samePower ⟨collect (likeValues terms term.power), term.power⟩
  rw [samePower]
  constructor
  · intro same
    rw [same] at notZero
    have changed := eq_of_value_eq (same.trans (alike.eq_of_not_vanishes notZero)) powers.symm
    rw [changed, involutive, powers]
  · intro same
    have changed : change term = ⟨collect (likeValues terms term.power), term.power⟩ :=
      eq_of_value_eq same (samePower term)
    rw [← changed, involutive] at alike
    exact alike.symm.eq_of_not_vanishes notZero

end Change

/-- Terms whose values amount to opposites collect to negated terms. -/
theorem collectTerms_opposite {terms others : List Term}
    (opposite : ∀ power, Opposite (collect (likeValues terms power))
      (collect (likeValues others power))) :
    collectTerms others = (collectTerms terms).map Term.neg :=
  collectTerms_map neg_involutive (fun _ => rfl) isZero_neg fun power => (opposite power).alike

theorem highestPower_map {change : Term → Term}
    (samePower : ∀ term, (change term).power = term.power) (terms : List Term) :
    highestPower (terms.map change) = highestPower terms := by
  rw [highestPower, highestPower, List.foldr_map]
  simp only [samePower]

/-- Collecting finite values gives a number. -/
theorem isNaN_of_mem_reduce {equation : Equation} (written : equation.form = .written)
    (finite : equation.FiniteValues) : ∀ term ∈ equation.reduce.left, term.value.isNaN = false := by
  intro term member
  simp only [reduce, written] at member
  rw [(mem_collectTerms.mp member).2]
  have opposite := opposite_collect .negated finite term.power
  rw [← likeValues_moved] at opposite
  exact opposite.number

section Mirrored

variable {equation other : Equation} (written : equation.form = .written)
  (mirrored : Mirrored equation other) (finite : equation.FiniteValues)
include written mirrored finite

/-- **The reduced form of a mirrored equation has every value negated.** -/
theorem reduce_mirrored : other.reduce = equation.reduce.negated := by
  have otherWritten : other.form = .written := by
    cases mirrored <;> exact written
  have collected : collectTerms other.moved = (collectTerms equation.moved).map Term.neg := by
    apply collectTerms_opposite
    intro power
    have opposite := opposite_collect mirrored finite power
    rw [← likeValues_moved, ← likeValues_moved] at opposite
    exact opposite
  simp only [reduce, written, otherWritten, collected]
  rfl

/-- The degree stays. -/
theorem degree_mirrored : other.reduce.degree = equation.reduce.degree := by
  rw [reduce_mirrored written mirrored finite, degree, degree, negated, ← List.map_append]
  have samePower : ∀ term : Term, term.neg.power = term.power := fun _ => rfl
  exact highestPower_map samePower _

/-- **The coefficients are opposite.** -/
theorem coefficient_mirrored (power : UInt32) :
    Opposite (equation.reduce.coefficient power) (other.reduce.coefficient power) := by
  have negatedFound : equation.reduce.negated.left.find? (fun term => term.power == power) =
      (equation.reduce.left.find? fun term => term.power == power).map Term.neg :=
    List.find?_map
  rw [reduce_mirrored written mirrored finite, coefficient, coefficient, negatedFound]
  cases found : equation.reduce.left.find? fun term => term.power == power with
  | none => exact Binary64.opposite_zero
  | some term =>
    exact Binary64.opposite_neg
      (isNaN_of_mem_reduce written finite term (List.mem_of_find?_eq_some found))

end Mirrored

end Quadratics.Equation
