import Quadratics.Proofs.Equation.Grouping

/-!
# The canonical form

The reduced form of a written equation is settled by the *balance* of each power:
the values on the left side in order, and then those on the right side with the
other sign.  A power has a term in the reduced form just when its balance amounts
to something other than zero, and that is then its value (`mem_collectTerms`).
Since the powers descend, nothing else can make a difference, and equations with
the same balances have the same reduced form (`collectTerms_congr`).
-/

namespace Quadratics.Equation

set_option autoImplicit false

open Binary64 (Alike)

/-! ## Balances -/

/-- The values of a power on the left side, and those on the right side with the
other sign. -/
def balance (left right : List Term) (power : UInt32) : List Binary64 :=
  likeValues left power ++ (likeValues right power).map fun value => -value

theorem likeValues_append (front back : List Term) (power : UInt32) :
    likeValues (front ++ back) power = likeValues front power ++ likeValues back power := by
  rw [likeValues, List.filter_append, List.map_append]
  rfl

theorem likeValues_cons (term : Term) (terms : List Term) (power : UInt32) :
    likeValues (term :: terms) power =
      (if term.power = power then [term.value] else []) ++ likeValues terms power := by
  rw [likeValues, List.filter_cons]
  simp only [beq_iff_eq]
  split <;> rfl

theorem likeValues_eq_nil {terms : List Term} {power : UInt32}
    (absent : ∀ term ∈ terms, term.power ≠ power) : likeValues terms power = [] :=
  List.map_eq_nil_iff.mpr (Grouping.ofPower_eq_nil absent)

/-- Changing the values changes those of each power. -/
theorem likeValues_map (change : UInt32 → Binary64 → Binary64) (terms : List Term)
    (power : UInt32) :
    likeValues (terms.map fun term => ⟨change term.power term.value, term.power⟩) power =
      (likeValues terms power).map (change power) := by
  induction terms with
  | nil => rfl
  | cons term terms ih =>
    rw [List.map_cons, likeValues_cons, likeValues_cons, List.map_append, ih]
    by_cases same : term.power = power
    · rw [if_pos same, if_pos same, same]
      rfl
    · rw [if_neg same, if_neg same]
      rfl

theorem likeValues_neg (terms : List Term) (power : UInt32) :
    likeValues (terms.map Term.neg) power = (likeValues terms power).map fun value => -value :=
  likeValues_map (fun _ value => -value) terms power

theorem likeValues_moved (left right : List Term) (power : UInt32) :
    likeValues (ofSides left right).moved power = balance left right power := by
  rw [balance, ← likeValues_neg, ← likeValues_append]
  rfl

/-- Adjacent terms of different powers may change places. -/
theorem likeValues_swap {first second : Term} (different : first.power ≠ second.power)
    (front back : List Term) (power : UInt32) :
    likeValues (front ++ second :: first :: back) power =
      likeValues (front ++ first :: second :: back) power := by
  simp only [likeValues_append, likeValues_cons]
  by_cases isFirst : first.power = power
  · rw [if_neg fun isSecond : second.power = power => different (isFirst.trans isSecond.symm)]
    simp only [List.nil_append]
  · rw [if_neg isFirst]
    simp only [List.nil_append]

/-- The last term of the left side may become the first one of the right side, with
its sign changed. -/
theorem balance_move (front right : List Term) (last : Term) (power : UInt32) :
    balance front (last.neg :: right) power = balance (front ++ [last]) right power := by
  have moved : (if last.power = power then [-last.value] else []).map (fun value => -value) =
      if last.power = power then [last.value] else [] := by
    split
    · rw [List.map_cons, Binary64.neg_neg, List.map_nil]
    · rfl
  rw [balance, balance, likeValues_append, likeValues_cons, likeValues_cons, List.map_append,
    ← List.append_assoc]
  refine congrArg (· ++ _) (congrArg (likeValues front power ++ ·) ?_)
  rw [show likeValues [] power = [] from rfl, List.append_nil]
  exact moved

/-! ## Canonical lists of terms -/

/-- Terms of descending powers, none of which vanishes. -/
structure Canonical (terms : List Term) : Prop where
  descending : terms.Pairwise fun higher lower => lower.power < higher.power
  nonzero : ∀ term ∈ terms, term.isZero = false

theorem Canonical.tail {term : Term} {terms : List Term} (canonical : Canonical (term :: terms)) :
    Canonical terms :=
  ⟨(List.pairwise_cons.mp canonical.descending).2,
    (List.forall_mem_cons.mp canonical.nonzero).2⟩

/-- A canonical list has one value of a power at most. -/
theorem Canonical.likeValues_eq {terms : List Term} (canonical : Canonical terms) {term : Term}
    (member : term ∈ terms) : likeValues terms term.power = [term.value] := by
  induction terms with
  | nil => cases member
  | cons first rest ih =>
    have below := (List.pairwise_cons.mp canonical.descending).1
    rw [likeValues_cons]
    rcases List.mem_cons.mp member with rfl | later
    · rw [if_pos rfl, likeValues_eq_nil fun other member => UInt32.ne_of_lt (below other member)]
      rfl
    · rw [if_neg (UInt32.ne_of_lt (below term later)).symm, ih canonical.tail later]
      rfl

/-- A canonical list is settled by what belongs to it. -/
theorem Canonical.ext {terms others : List Term} (canonical : Canonical terms)
    (canonical' : Canonical others) (same : ∀ term, term ∈ terms ↔ term ∈ others) :
    terms = others := by
  have irreflexive : Std.Irrefl fun higher lower : Term => lower.power < higher.power :=
    ⟨fun _ => UInt32.lt_irrefl _⟩
  have antisymmetric : Std.Antisymm fun higher lower : Term => lower.power < higher.power :=
    ⟨fun _ _ first second => absurd (UInt32.lt_trans first second) (UInt32.lt_irrefl _)⟩
  exact canonical.descending.eq_of_mem_iff canonical'.descending same

/-- **A power has a term just when its values amount to something.** -/
theorem mem_collectTerms {terms : List Term} {term : Term} :
    term ∈ collectTerms terms ↔
      term.isZero = false ∧ term.value = collect (likeValues terms term.power) := by
  obtain ⟨value, power⟩ := term
  simp only [collectTerms]
  rw [List.mem_filter, Bool.not_eq_true', and_comm]
  apply and_congr_right
  intro nonzero
  constructor
  · intro member
    obtain ⟨_, -, same⟩ := List.mem_map.mp member
    cases same
    rfl
  · intro same
    change value = collect (likeValues terms power) at same
    subst same
    refine List.mem_map.mpr ⟨power, mem_powers.mpr ?_, rfl⟩
    -- Values that amount to something cannot be missing.
    by_contra absent
    have none : likeValues terms power = [] :=
      likeValues_eq_nil fun term member same => absent ⟨term, member, same⟩
    change (collect (likeValues terms power)).sameNumber 0 = false at nonzero
    rw [none, collect_nil] at nonzero
    exact Binary64.sameNumber_zero_eq_false_iff.mp nonzero Binary64.vanishes_zero

theorem canonical_collectTerms (terms : List Term) : Canonical (collectTerms terms) where
  descending := by
    refine List.Pairwise.filter _ (List.pairwise_map.mpr ?_)
    exact pairwise_powers terms
  nonzero := fun _ member => (mem_collectTerms.mp member).1

/-- **Terms whose values amount to the same collect to the same**, and the signs of
zeros do not matter. -/
theorem collectTerms_congr {terms others : List Term}
    (alike : ∀ power, Alike (collect (likeValues terms power))
      (collect (likeValues others power))) : collectTerms terms = collectTerms others := by
  apply (canonical_collectTerms terms).ext (canonical_collectTerms others)
  intro term
  rw [mem_collectTerms, mem_collectTerms]
  apply and_congr_right
  intro nonzero
  have notZero : ¬ term.value.Vanishes := Binary64.sameNumber_zero_eq_false_iff.mp nonzero
  constructor
  · intro same
    rw [same] at notZero ⊢
    exact (alike _).eq_of_not_vanishes notZero
  · intro same
    rw [same] at notZero ⊢
    exact (alike _).symm.eq_of_not_vanishes notZero

/-- A canonical list collects to itself. -/
theorem collectTerms_of_canonical {terms : List Term} (canonical : Canonical terms) :
    collectTerms terms = terms := by
  apply (canonical_collectTerms terms).ext canonical
  intro term
  rw [mem_collectTerms]
  constructor
  · rintro ⟨nonzero, same⟩
    by_cases occurs : ∃ other ∈ terms, other.power = term.power
    · obtain ⟨other, member, powers⟩ := occurs
      rw [← powers, canonical.likeValues_eq member, collect_singleton] at same
      obtain ⟨value, power⟩ := term
      obtain ⟨otherValue, otherPower⟩ := other
      cases same
      cases powers
      exact member
    · have none : likeValues terms term.power = [] :=
        likeValues_eq_nil fun other member powers => occurs ⟨other, member, powers⟩
      rw [none, collect_nil] at same
      rw [Term.isZero, same] at nonzero
      exact absurd Binary64.vanishes_zero (Binary64.sameNumber_zero_eq_false_iff.mp nonzero)
  · intro member
    refine ⟨canonical.nonzero term member, ?_⟩
    rw [canonical.likeValues_eq member, collect_singleton]

/-! ## Zeros among the terms -/

/-- Two terms are equal but for the sign of a zero. -/
def AlikeTerms (term other : Term) : Prop :=
  term.power = other.power ∧ Alike term.value other.value

theorem AlikeTerms.refl (term : Term) : AlikeTerms term term :=
  ⟨rfl, .refl _⟩

theorem AlikeTerms.neg {term other : Term} (alike : AlikeTerms term other) :
    AlikeTerms term.neg other.neg :=
  ⟨alike.1, alike.2.neg⟩

theorem forall₂_alikeTerms_refl (terms : List Term) : List.Forall₂ AlikeTerms terms terms :=
  List.forall₂_same.mpr fun term _ => .refl term

theorem likeValues_alike {terms others : List Term}
    (pointwise : List.Forall₂ AlikeTerms terms others) (power : UInt32) :
    List.Forall₂ Alike (likeValues terms power) (likeValues others power) := by
  induction pointwise with
  | nil => exact .nil
  | cons head _ ih =>
    rw [likeValues_cons, likeValues_cons, head.1]
    split
    · exact .cons head.2 ih
    · exact ih

/-- The signs of zeros do not matter to what terms collect to. -/
theorem collectTerms_alike {terms others : List Term}
    (pointwise : List.Forall₂ AlikeTerms terms others) : collectTerms terms = collectTerms others :=
  collectTerms_congr fun power => collect_alike (likeValues_alike pointwise power)

/-- **A term that vanishes does not matter to what terms collect to**, wherever it
stands. -/
theorem collectTerms_insert_zero {zero : Term} (vanishes : zero.value.Vanishes)
    (front back : List Term) :
    collectTerms (front ++ zero :: back) = collectTerms (front ++ back) := by
  apply collectTerms_congr
  intro power
  rw [likeValues_append, likeValues_append, likeValues_cons]
  split
  · exact collect_insert_zero vanishes _ _
  · exact .refl _

/-! ## Balances settle the reduced form -/

/-- Equations with the same balances have the same reduced form. -/
theorem reduce_congr {left right left' right' : List Term}
    (same : ∀ power, balance left' right' power = balance left right power) :
    (ofSides left' right').reduce = (ofSides left right).reduce := by
  show (⟨collectTerms (ofSides left' right').moved, [], .reduced⟩ : Equation) =
    ⟨collectTerms (ofSides left right).moved, [], .reduced⟩
  rw [collectTerms_congr fun power => ?_]
  rw [likeValues_moved, likeValues_moved, same]
  exact .refl _

/-! ## Reduction as a whole -/

/-- **Reduction brings a written equation to its canonical form and loses nothing.**
Its reading as a program comes to no breach.  The reduced form has descending
powers and no zeros on its left side, and nothing on its right side; its terms are
those that the balances call for; and equations with the same balances have the
same one. -/
theorem reduce_canonical (left right : List Term) :
    Grouping.run (ofSides left right) = .ok (ofSides left right).reduce ∧
      (ofSides left right).reduce.right = [] ∧
      (ofSides left right).reduce.form = .reduced ∧
      (ofSides left right).reduce.left.Pairwise (fun higher lower => lower.power < higher.power) ∧
      (∀ term ∈ (ofSides left right).reduce.left, term.value.sameNumber 0 = false) ∧
      (∀ value power, ⟨value, power⟩ ∈ (ofSides left right).reduce.left ↔
        balance left right power ≠ [] ∧
          (collect (balance left right power)).sameNumber 0 = false ∧
          value = collect (balance left right power)) ∧
      (∀ left' right', (∀ power, balance left' right' power = balance left right power) →
        (ofSides left' right').reduce = (ofSides left right).reduce) ∧
      (∀ front first second back, first.power ≠ second.power →
        left = front ++ first :: second :: back →
          (ofSides (front ++ second :: first :: back) right).reduce =
            (ofSides left right).reduce) ∧
      (∀ front last, left = front ++ [last] →
        (ofSides front (last.neg :: right)).reduce = (ofSides left right).reduce) := by
  have canonical := canonical_collectTerms (ofSides left right).moved
  refine ⟨Grouping.run_eq _, rfl, rfl, canonical.descending, canonical.nonzero, ?_,
    fun _ _ => reduce_congr, ?_, ?_⟩
  · intro value power
    have member : ⟨value, power⟩ ∈ (ofSides left right).reduce.left ↔
        value.sameNumber 0 = false ∧ value = collect (balance left right power) := by
      rw [← likeValues_moved]
      exact mem_collectTerms
    rw [member]
    constructor
    · rintro ⟨nonzero, rfl⟩
      refine ⟨?_, nonzero, rfl⟩
      intro none
      rw [none, collect_nil] at nonzero
      exact Binary64.sameNumber_zero_eq_false_iff.mp nonzero Binary64.vanishes_zero
    · rintro ⟨-, nonzero, rfl⟩
      exact ⟨nonzero, rfl⟩
  · rintro front first second back different rfl
    apply reduce_congr
    intro power
    rw [balance, likeValues_swap different, balance]
  · rintro front last rfl
    exact reduce_congr (balance_move front right last)

/-- The equations `x + 2 = x^2`, `2 + x = x^2` and `x = -2 + x^2`. -/
theorem reduce_canonical_linear :
    (ofSides [⟨2, 0⟩, ⟨1, 1⟩] [⟨1, 2⟩]).reduce = (ofSides [⟨1, 1⟩, ⟨2, 0⟩] [⟨1, 2⟩]).reduce ∧
      (ofSides [⟨1, 1⟩] [Term.neg ⟨2, 0⟩, ⟨1, 2⟩]).reduce =
        (ofSides [⟨1, 1⟩, ⟨2, 0⟩] [⟨1, 2⟩]).reduce := by
  obtain ⟨-, -, -, -, -, -, congruent, swapped, moved⟩ :=
    reduce_canonical [⟨1, 1⟩, ⟨2, 0⟩] [⟨1, 2⟩]
  have different : (1 : UInt32) ≠ 0 := by decide
  constructor
  · exact swapped [] ⟨1, 1⟩ ⟨2, 0⟩ [] different rfl
  · exact congruent _ _ (balance_move [⟨1, 1⟩] [⟨1, 2⟩] ⟨2, 0⟩)

end Quadratics.Equation
