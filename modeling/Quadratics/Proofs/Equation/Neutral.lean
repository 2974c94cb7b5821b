import Quadratics.Proofs.Equation.Mirrored

/-!
# Terms that vanish are neutral

Zeros of either sign, of any powers, may be strewn among the terms of a written
equation without a trace in its reduced form (`Padded`, `reduce_padded`).  Noise is
where this could fail: a power with a single value is never cleared of noise, and a
zero beside that value makes it one of two.  One zero at a time is harmless
(`collectTerms_insert_zero`), and so are any number of them, by induction on where
they were put.

A reduced form, taken for a written equation, is canonical, so that reducing it a
second time changes nothing, whatever zeros stand on its right side.
-/

namespace Quadratics.Equation

set_option autoImplicit false

/-! ## Terms with zeros among them -/

/-- The second list is the first one with zeros put in, any number of them and
anywhere. -/
inductive Padded : List Term → List Term → Prop where
  /-- Nothing is put into the empty list. -/
  | nil : Padded [] []
  /-- A term of the list comes next. -/
  | keep {terms padded : List Term} (term : Term) :
      Padded terms padded → Padded (term :: terms) (term :: padded)
  /-- A zero that was put in comes next. -/
  | insert {terms padded : List Term} {zero : Term} :
      zero.isZero = true → Padded terms padded → Padded terms (zero :: padded)

theorem Padded.refl (terms : List Term) : Padded terms terms := by
  induction terms with
  | nil => exact .nil
  | cons term _ ih => exact .keep term ih

theorem Padded.append {terms padded others padded' : List Term} (first : Padded terms padded)
    (second : Padded others padded') : Padded (terms ++ others) (padded ++ padded') := by
  induction first with
  | nil => exact second
  | keep term _ ih => exact .keep term ih
  | insert isZero _ ih => exact .insert isZero ih

theorem Padded.map_neg {terms padded : List Term} (strewn : Padded terms padded) :
    Padded (terms.map Term.neg) (padded.map Term.neg) := by
  induction strewn with
  | nil => exact .nil
  | keep term _ ih => exact .keep term.neg ih
  | insert isZero _ ih => exact .insert ((isZero_neg _).trans isZero) ih

/-- Zeros on both sides are zeros among all the terms. -/
theorem Padded.moved {left right left' right' : List Term} (onLeft : Padded left left')
    (onRight : Padded right right') :
    Padded (ofSides left right).moved (ofSides left' right').moved :=
  onLeft.append onRight.map_neg

/-! ## What they collect to -/

/-- **Zeros do not matter to what terms collect to**, how many and wherever they are.
The terms in front are those that the induction has passed already. -/
theorem collectTerms_padded {terms padded : List Term} (strewn : Padded terms padded)
    (front : List Term) : collectTerms (front ++ padded) = collectTerms (front ++ terms) := by
  induction strewn generalizing front with
  | nil => rfl
  | keep term _ ih =>
    have passed := ih (front ++ [term])
    rwa [List.append_assoc, List.append_assoc] at passed
  | insert isZero _ ih =>
    rw [collectTerms_insert_zero (Binary64.sameNumber_zero_iff.mp isZero), ih]

theorem reduce_padded {left right left' right' : List Term} (onLeft : Padded left left')
    (onRight : Padded right right') : (ofSides left' right').reduce = (ofSides left right).reduce :=
  congrArg (Equation.mk · [] .reduced) (collectTerms_padded (onLeft.moved onRight) [])

/-! ## Reducing a reduced form -/

/-- Canonical terms with nothing on the other side are their own reduced form. -/
theorem reduce_of_canonical {terms : List Term} (canonical : Canonical terms) :
    (ofSides terms []).reduce = ⟨terms, [], .reduced⟩ := by
  have moved : (ofSides terms []).moved = terms := List.append_nil terms
  show Equation.mk (collectTerms (ofSides terms []).moved) [] .reduced = _
  rw [moved, collectTerms_of_canonical canonical]

/-- **Zeros are neutral, and reduced forms stay as they are.**  Zeros put in anywhere
on either side of a written equation leave its reduced form the same; the reduced
form, reduced as if it had been written, comes out the same; and so it does with
nothing but zeros on its right side. -/
theorem reduce_neutral (left right : List Term) :
    (∀ left' right', Padded left left' → Padded right right' →
        (ofSides left' right').reduce = (ofSides left right).reduce) ∧
      (ofSides (ofSides left right).reduce.left (ofSides left right).reduce.right).reduce =
        (ofSides left right).reduce ∧
      ∀ zeros : List Term, (∀ zero ∈ zeros, zero.isZero = true) →
        (ofSides (ofSides left right).reduce.left zeros).reduce = (ofSides left right).reduce := by
  have again : (ofSides (ofSides left right).reduce.left []).reduce = (ofSides left right).reduce :=
    reduce_of_canonical (canonical_collectTerms _)
  refine ⟨fun _ _ => reduce_padded, again, fun zeros allZero => ?_⟩
  have onRight : Padded [] zeros := by
    induction zeros with
    | nil => exact .nil
    | cons zero _ ih =>
      obtain ⟨isZero, rest⟩ := List.forall_mem_cons.mp allZero
      exact .insert isZero (ih rest)
  rw [reduce_padded (.refl _) onRight, again]

/-- The equation `0 * x^7 + x - 0 * x = 2`, and `x - 2 = 0`. -/
theorem reduce_neutral_linear :
    (ofSides [⟨0, 7⟩, ⟨1, 1⟩, Term.neg ⟨0, 1⟩] [⟨2, 0⟩]).reduce =
        (ofSides [⟨1, 1⟩] [⟨2, 0⟩]).reduce ∧
      (ofSides (ofSides [⟨1, 1⟩] [⟨2, 0⟩]).reduce.left [⟨0, 0⟩]).reduce =
        (ofSides [⟨1, 1⟩] [⟨2, 0⟩]).reduce := by
  obtain ⟨padded, -, zeros⟩ := reduce_neutral [⟨1, 1⟩] [⟨2, 0⟩]
  have isZero (power : UInt32) : Term.isZero ⟨0, power⟩ = true :=
    Binary64.sameNumber_zero_iff.mpr Binary64.vanishes_zero
  constructor
  · refine padded _ _ ?_ (.refl _)
    exact .insert (isZero 7) (.keep _ (.insert ((isZero_neg _).trans (isZero 1)) .nil))
  · refine zeros _ fun zero member => ?_
    rw [List.mem_singleton.mp member]
    exact isZero 0

end Quadratics.Equation
