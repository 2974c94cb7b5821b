import Quadratics.Proofs.Equation.Obtained
import Quadratics.Proofs.Equation.Printing

/-!
# Printing and reading are inverse

An equation whose values are finite is printed as a text that writes its terms
again.  Reading the text differs from the equation only where the sign of a zero or
an empty side is concerned, and neither matters to the reduced form
(`reduce_printed`).  The text is therefore refused for just those reasons that speak
against the equation itself: the highest coefficient that is too large, or else the
degree.
-/

namespace Quadratics.Equation

set_option autoImplicit false

open Binary64 (Alike)

/-! ## What is read of a printed equation -/

/-- The terms of a side, or zero if there are none. -/
def filled (terms : List Term) : List Term :=
  if terms = [] then [⟨0, 0⟩] else terms

theorem printed_alike_filled (terms : List Term) :
    List.Forall₂ AlikeTerms (printed terms) (filled terms) := by
  cases terms with
  | nil => exact forall₂_alikeTerms_refl _
  | cons first later =>
    rw [filled, if_neg (List.cons_ne_nil _ _)]
    exact .cons ⟨rfl, Binary64.alike_add_zero _⟩ (forall₂_alikeTerms_refl later)

/-- Terms that are alike and finite are the same as numbers. -/
theorem sameSide_of_alike {terms others : List Term}
    (pointwise : List.Forall₂ AlikeTerms terms others)
    (finite : ∀ term ∈ others, term.value.isFinite = true) : sameSide terms others = true := by
  induction pointwise with
  | nil => rfl
  | cons head _ ih =>
    obtain ⟨headFinite, finite⟩ := List.forall_mem_cons.mp finite
    have same := (Alike.iff_sameNumber (head.2.isFinite_eq.trans headFinite)).mp head.2
    rw [sameSide, ih finite, Term.sameTerm, same, head.1, beq_self_eq_true]
    rfl

theorem finite_filled {terms : List Term} (finite : ∀ term ∈ terms, term.value.isFinite = true) :
    ∀ term ∈ filled terms, term.value.isFinite = true := by
  simp only [filled]
  split
  · intro term member
    rw [List.mem_singleton.mp member]
    exact Binary64.vanishes_zero.1
  · exact finite

theorem collectTerms_filled_left (terms others : List Term) :
    collectTerms (filled terms ++ others) = collectTerms (terms ++ others) := by
  simp only [filled]
  split
  · rename_i none
    subst none
    exact collectTerms_insert_zero Binary64.vanishes_zero [] others
  · rfl

theorem collectTerms_filled_right (terms others : List Term) :
    collectTerms (others ++ (filled terms).map Term.neg) =
      collectTerms (others ++ terms.map Term.neg) := by
  simp only [filled]
  split
  · rename_i none
    subst none
    have vanishes : (Term.neg ⟨0, 0⟩).value.Vanishes := Binary64.vanishes_zero.neg
    exact collectTerms_insert_zero vanishes others []
  · rfl

/-- **What is read of a printed equation reduces to the same.** -/
theorem reduce_printed {equation : Equation} (wellFormed : equation.WellFormed) :
    (ofSides (printed equation.left) (printed equation.right)).reduce = equation.reduce := by
  have alike : List.Forall₂ AlikeTerms
      (ofSides (printed equation.left) (printed equation.right)).moved
      (ofSides (filled equation.left) (filled equation.right)).moved := by
    apply List.rel_append (printed_alike_filled equation.left)
    apply List.rel_map _ (printed_alike_filled equation.right)
    intro term other
    exact AlikeTerms.neg
  have collected : collectTerms (ofSides (printed equation.left) (printed equation.right)).moved =
      collectTerms equation.moved :=
    calc collectTerms (ofSides (printed equation.left) (printed equation.right)).moved
      _ = collectTerms (filled equation.left ++ (filled equation.right).map Term.neg) :=
          collectTerms_alike alike
      _ = collectTerms (equation.left ++ (filled equation.right).map Term.neg) :=
          collectTerms_filled_left _ _
      _ = collectTerms (equation.left ++ equation.right.map Term.neg) :=
          collectTerms_filled_right _ _
  rw [wellFormed.reduce_eq, (wellFormed_ofSides _ _).reduce_eq, collected]

/-- An objection concerns the reduced form only. -/
theorem objection_congr {equation other : Equation} (same : equation.reduce = other.reduce) :
    equation.objection = other.objection := by
  simp only [objection]
  rw [same]

/-- **A printed equation is read back, or refused for what speaks against the
equation itself.** -/
theorem read_text {equation : Equation} (wellFormed : equation.WellFormed)
    (finite : ∀ term ∈ equation.left ++ equation.right, term.value.isFinite = true) :
    read equation.text =
      match equation.objection with
      | some reason => .error (.citing equation.text.toList reason)
      | none => .ok (ofSides (printed equation.left) (printed equation.right)) := by
  obtain ⟨leftFinite, rightFinite⟩ := List.forall_mem_append.mp finite
  obtain ⟨left, isLeft, leftFits, leftMeaning⟩ := exists_spellsSide .nil .space leftFinite
  obtain ⟨right, isRight, rightFits, rightMeaning⟩ := exists_spellsSide .space .nil rightFinite
  have text : equation.text.toList =
      ([] ++ ((sideText equation.left).toList ++ [' '])) ++
        '=' :: ([' '] ++ ((sideText equation.right).toList ++ [])) := by
    rw [Equation.text, String.toList_append, String.toList_append]
    simp
  have appended := readCharacters_append isLeft.no_equals isRight.no_equals
    (readSide_sideText .nil .space leftFinite) (readSide_sideText .space .nil rightFinite)
  rw [objection_congr (reduce_printed wellFormed)] at appended
  rw [read, text]
  exact appended

/-! ## What speaks against an equation -/

/-- The first coefficient that is too large decides, and where there is none the
degree. -/
theorem objection_of_overflow {equation : Equation} {term : Term}
    (found : equation.reduce.left.find? (fun term => !term.value.isFinite) = some term) :
    equation.objection = some (.overflowing term.power) := by
  simp only [objection]
  rw [found]

theorem objection_of_finite {equation : Equation}
    (finite : ∀ term ∈ equation.reduce.left, term.value.isFinite = true) :
    equation.objection =
      if solvableDegree < equation.reduce.degree then some (.unsolvable equation.reduce.degree)
      else none := by
  have none : equation.reduce.left.find? (fun term => !term.value.isFinite) = none := by
    apply List.find?_eq_none.mpr
    intro term member
    simp [finite term member]
  simp only [objection]
  rw [none]

/-- In a descending list the first term with a property has the highest power. -/
theorem highest_of_find? {terms : List Term} {property : Term → Bool} {term : Term}
    (descending : terms.Pairwise fun higher lower => lower.power < higher.power)
    (found : terms.find? property = some term) :
    ∀ other ∈ terms, term.power < other.power → property other = false := by
  obtain ⟨-, front, back, rfl, before⟩ := List.find?_eq_some_iff_append.mp found
  intro other member above
  rcases List.mem_append.mp member with member | member
  · simpa using before other member
  · obtain ⟨-, later, -⟩ := List.pairwise_append.mp descending
    rcases List.mem_cons.mp member with rfl | member
    · exact absurd above (UInt32.lt_irrefl _)
    · have below := (List.pairwise_cons.mp later).1 other member
      exact absurd (UInt32.lt_trans above below) (UInt32.lt_irrefl _)

/-- A coefficient that is too large speaks against an equation, and the highest one
is named. -/
theorem objection_of_overflows {equation : Equation} (wellFormed : equation.WellFormed)
    (overflows : ∃ term ∈ equation.reduce.left, term.value.isFinite = false) :
    ∃ term ∈ equation.reduce.left, term.value.isFinite = false ∧
      (∀ other ∈ equation.reduce.left, term.power < other.power → other.value.isFinite = true) ∧
      equation.objection = some (.overflowing term.power) := by
  have descending : equation.reduce.left.Pairwise
      fun higher lower => lower.power < higher.power := by
    rw [wellFormed.reduce_eq]
    exact (canonical_collectTerms _).descending
  obtain ⟨infinite, member, notFinite⟩ := overflows
  cases found : equation.reduce.left.find? fun term => !term.value.isFinite with
  | none =>
    have absurdly := List.find?_eq_none.mp found infinite member
    rw [notFinite] at absurdly
    exact absurd rfl absurdly
  | some term =>
    have isFirst := List.find?_some found
    refine ⟨term, List.mem_of_find?_eq_some found, by simpa using isFirst, ?_,
      objection_of_overflow found⟩
    intro other otherMember above
    simpa using highest_of_find? descending found other otherMember above

/-! ## The round trip -/

/-- The reduced form of an equation that was read is itself read back. -/
theorem read_reduced_text {source : String} {equation : Equation}
    (isRead : read source = .ok equation) :
    ∃ again, read equation.reduce.text = .ok again ∧ again.reduce = equation.reduce := by
  obtain ⟨left, right, rfl, workable⟩ := exists_ofSides_of_read isRead
  have wellFormed := (wellFormed_ofSides left right).reduce
  have noObjection := objection_eq_none_iff.mpr workable
  have finite : ∀ term ∈ (ofSides left right).reduce.left ++ (ofSides left right).reduce.right,
      term.value.isFinite = true := by
    intro term member
    rw [show (ofSides left right).reduce.right = [] from rfl, List.append_nil] at member
    obtain ⟨-, same⟩ := mem_collectTerms.mp member
    rw [same]
    exact workable.finite term.power
  have readBack := read_text wellFormed finite
  rw [objection_congr (reduce_reduce _), noObjection] at readBack
  refine ⟨_, readBack, ?_⟩
  rw [reduce_printed wellFormed, reduce_reduce]

/-- **Printing and reading are inverse.**  An equation that is obtained and whose
values are finite is read back from its text, but for the signs of zeros and with
zero on its empty sides, if its reduced form has finite coefficients and a degree of
two at most; and it then has the same reduced form.  Otherwise the text is refused,
because of the highest coefficient that is too large, or else because of the degree.
The reduced form of an equation that was read is itself read back. -/
theorem read_text_round_trip :
    (∀ equation, Obtained equation →
      (∀ term ∈ equation.left ++ equation.right, term.value.isFinite = true) →
      ((∀ term ∈ equation.reduce.left, term.value.isFinite = true) →
        equation.reduce.degree ≤ 2 →
          ∃ again, read equation.text = .ok again ∧ again.form = .written ∧
            sameSide again.left (filled equation.left) = true ∧
            sameSide again.right (filled equation.right) = true ∧
            again.reduce.left = equation.reduce.left) ∧
      ((∃ term ∈ equation.reduce.left, term.value.isFinite = false) →
        ∃ term ∈ equation.reduce.left, term.value.isFinite = false ∧
          (∀ other ∈ equation.reduce.left, term.power < other.power →
            other.value.isFinite = true) ∧
          read equation.text =
            .error (.citing equation.text.toList (.overflowing term.power))) ∧
      ((∀ term ∈ equation.reduce.left, term.value.isFinite = true) →
        2 < equation.reduce.degree →
          read equation.text =
            .error (.citing equation.text.toList (.unsolvable equation.reduce.degree)))) ∧
    (∀ source equation, read source = .ok equation →
      ∃ again, read equation.reduce.text = .ok again ∧ again.reduce = equation.reduce) := by
  constructor
  · intro equation obtained finite
    have readBack := read_text obtained.wellFormed finite
    obtain ⟨leftFinite, rightFinite⟩ := List.forall_mem_append.mp finite
    refine ⟨?_, ?_, ?_⟩
    · intro reducedFinite low
      have notHigh : ¬ solvableDegree < equation.reduce.degree := UInt32.not_lt.mpr low
      rw [objection_of_finite reducedFinite, if_neg notHigh] at readBack
      refine ⟨_, readBack, rfl, ?_, ?_, ?_⟩
      · exact sameSide_of_alike (printed_alike_filled _) (finite_filled leftFinite)
      · exact sameSide_of_alike (printed_alike_filled _) (finite_filled rightFinite)
      · rw [reduce_printed obtained.wellFormed]
    · intro overflows
      obtain ⟨term, member, notFinite, highest, objected⟩ :=
        objection_of_overflows obtained.wellFormed overflows
      rw [objected] at readBack
      exact ⟨term, member, notFinite, highest, readBack⟩
    · intro reducedFinite high
      have tooHigh : solvableDegree < equation.reduce.degree := high
      rw [objection_of_finite reducedFinite, if_pos tooHigh] at readBack
      exact readBack
  · intro source equation isRead
    exact read_reduced_text isRead

/-- The equation `x^2 - 0 * x = 3` and its text. -/
theorem read_text_round_trip_square :
    ∃ again, read (ofSides [⟨1, 2⟩, ⟨-0, 1⟩] [⟨3, 0⟩]).text = .ok again ∧
      sameSide again.left [⟨1, 2⟩, ⟨-0, 1⟩] = true ∧ sameSide again.right [⟨3, 0⟩] = true ∧
      again.reduce.left = (ofSides [⟨1, 2⟩, ⟨-0, 1⟩] [⟨3, 0⟩]).reduce.left := by
  have finite : ∀ term ∈ (ofSides [⟨1, 2⟩, ⟨-0, 1⟩] [⟨3, 0⟩]).left ++
      (ofSides [⟨1, 2⟩, ⟨-0, 1⟩] [⟨3, 0⟩]).right, term.value.isFinite = true := by decide +kernel
  have reducedFinite : ∀ term ∈ (ofSides [⟨1, 2⟩, ⟨-0, 1⟩] [⟨3, 0⟩]).reduce.left,
      term.value.isFinite = true := by decide +kernel
  have low : (ofSides [⟨1, 2⟩, ⟨-0, 1⟩] [⟨3, 0⟩]).reduce.degree ≤ 2 := by decide +kernel
  obtain ⟨again, readBack, -, left, right, reduced⟩ :=
    (read_text_round_trip.1 _ (.built _ _) finite).1 reducedFinite low
  exact ⟨again, readBack, left, right, reduced⟩

end Quadratics.Equation
