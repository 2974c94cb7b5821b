import Quadratics.Equation.Basic

/-!
# The reduced form of an equation

Reduction moves every term to the left side and leaves one term for each power
that does not vanish, the highest power first.  What becomes of a power depends
on nothing but its values in order (`likeValues`), which `collect` folds into
one.  A single value is kept as it is.  Several values are added from left to
right, and when the sum is negligible beside the largest of them, it is noise
and counts as zero.

An equation that is marked as reduced is left alone.
-/

namespace Quadratics

namespace Equation

set_option autoImplicit false

/-! ## Collecting like values -/

/-- A sum this small beside its largest summand is noise. -/
def cancellationThreshold : Binary64 :=
  Decimal.nearest ⟨false, 1, -12⟩

/-- The largest magnitude among some values. -/
def largest (values : List Binary64) : Binary64 :=
  values.foldl (fun bound value => Binary64.larger bound value.abs) 0

/-- The sum of some values from left to right. -/
def total : List Binary64 → Binary64
  | [] => 0
  | value :: values => values.foldl Binary64.add value

/-- Is a sum negligible beside the largest of its summands? -/
def cancels (sum : Binary64) (values : List Binary64) : Bool :=
  decide (sum.abs < largest values * cancellationThreshold)

/-- What the values of one power amount to. -/
def collect (values : List Binary64) : Binary64 :=
  if 2 ≤ values.length ∧ cancels (total values) values then 0 else total values

/-! ## Reduction -/

/-- All the terms of an equation, those of the right side with the other sign. -/
def moved (equation : Equation) : List Term :=
  equation.left ++ equation.right.map Term.neg

/-- The values that some terms have at a power, in order. -/
def likeValues (terms : List Term) (power : UInt32) : List Binary64 :=
  (terms.filter fun term => term.power == power).map Term.value

/-- A power put into its place in a descending list, once. -/
def insertPower (power : UInt32) : List UInt32 → List UInt32
  | [] => [power]
  | first :: rest =>
      if first < power then power :: first :: rest
      else if first = power then first :: rest
      else first :: insertPower power rest

/-- The powers of some terms, each once, the highest first. -/
def powers (terms : List Term) : List UInt32 :=
  terms.foldr (fun term => insertPower term.power) []

theorem mem_insertPower {power other : UInt32} {list : List UInt32} :
    other ∈ insertPower power list ↔ other = power ∨ other ∈ list := by
  induction list with
  | nil => simp only [insertPower, List.mem_singleton, List.not_mem_nil, or_false]
  | cons first rest ih =>
    unfold insertPower
    split
    · exact List.mem_cons
    · split
      · rename_i same
        subst same
        simp only [List.mem_cons, or_self_left]
      · simp only [List.mem_cons, ih]
        exact or_left_comm

/-- A descending list stays descending when a power is put into its place. -/
theorem pairwise_insertPower {power : UInt32} {list : List UInt32}
    (descending : list.Pairwise fun higher lower => lower < higher) :
    (insertPower power list).Pairwise fun higher lower => lower < higher := by
  induction list with
  | nil => exact List.pairwise_singleton _ _
  | cons first rest ih =>
    obtain ⟨above, restDescending⟩ := List.pairwise_cons.mp descending
    unfold insertPower
    split
    · rename_i below
      refine List.pairwise_cons.mpr ⟨fun other member => ?_, descending⟩
      rcases List.mem_cons.mp member with same | member
      · exact same ▸ below
      · exact UInt32.lt_trans (above other member) below
    · split
      · exact descending
      · rename_i notBelow different
        refine List.pairwise_cons.mpr ⟨fun other member => ?_, ih restDescending⟩
        rcases mem_insertPower.mp member with same | member
        · exact same ▸ UInt32.lt_of_le_of_ne (UInt32.not_lt.mp notBelow) (Ne.symm different)
        · exact above other member

/-- The powers of some terms descend. -/
theorem pairwise_powers (terms : List Term) :
    (powers terms).Pairwise fun higher lower => lower < higher := by
  induction terms with
  | nil => exact List.Pairwise.nil
  | cons term terms ih => exact pairwise_insertPower ih

/-- The powers of some terms are just those that occur. -/
theorem mem_powers {power : UInt32} {terms : List Term} :
    power ∈ powers terms ↔ ∃ term ∈ terms, term.power = power := by
  induction terms with
  | nil => simp only [powers, List.foldr_nil, List.not_mem_nil, false_and, exists_false]
  | cons term terms ih =>
    have unfolded : powers (term :: terms) = insertPower term.power (powers terms) := rfl
    rw [unfolded, mem_insertPower, ih]
    constructor
    · rintro (same | ⟨other, member, same⟩)
      · exact ⟨term, List.mem_cons_self, same.symm⟩
      · exact ⟨other, List.mem_cons_of_mem _ member, same⟩
    · rintro ⟨other, member, same⟩
      rcases List.mem_cons.mp member with here | member
      · exact .inl (here ▸ same.symm)
      · exact .inr ⟨other, member, same⟩

/-- Some terms with like ones collected, and without those that vanish. -/
def collectTerms (terms : List Term) : List Term :=
  ((powers terms).map fun power => ⟨collect (likeValues terms power), power⟩).filter
    fun term => !term.isZero

/-- The reduced form. -/
def reduce (equation : Equation) : Equation :=
  match equation.form with
  | .reduced => equation
  | .written => ⟨collectTerms equation.moved, [], .reduced⟩

/-! ## Coefficients -/

/-- The coefficient of a power on the left side, zero if it does not occur. -/
def coefficient (equation : Equation) (power : UInt32) : Binary64 :=
  match equation.left.find? fun term => term.power == power with
  | some term => term.value
  | none => 0

end Equation

/-- The coefficients of a quadratic polynomial. -/
structure Coefficients where
  /-- The coefficient of the square. -/
  quadratic : Binary64
  /-- The coefficient of the unknown. -/
  linear : Binary64
  /-- The constant. -/
  constant : Binary64
  deriving DecidableEq

/-- The coefficients of the reduced form. -/
def Equation.coefficients (equation : Equation) : Coefficients :=
  let reduced := equation.reduce
  ⟨reduced.coefficient 2, reduced.coefficient 1, reduced.coefficient 0⟩

end Quadratics
