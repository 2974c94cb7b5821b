import Quadratics.Proofs.Equation.Mirrored
import Quadratics.Proofs.Equation.Polynomial
import Quadratics.Proofs.Equation.RoundTrip

/-!
# Coefficients that are too large

The values of a power are added from left to right, and each partial sum is rounded.  An
equation is refused because of a power just when some partial sum and the value after it
together round to no finite number (`Overruns`, `refusedFor_iff_overruns`).

That is said of partial sums, and a later value may take back what was too much
(`refusedFor_taken_back`).  So all that can be said of exact sums concerns an initial stretch of
the values: its sum is too large, but for the roundings on the way, each of which changes a
partial sum by `2 ^ 970` at most (`Overruns.exists_stretch`).  Two values have no partial
sum before their total, and values of one sign take nothing back, so there it is the exact
total that is too large.
-/

namespace Quadratics.Equation

set_option autoImplicit false

open Binary64 (overflowBound)

/-! ## Partial sums -/

/-- Some partial sum and the value after it together round to no finite number. -/
def Overruns (values : List Binary64) : Prop :=
  ∃ front value back, values = front ++ value :: back ∧ front ≠ [] ∧
    (total front).isFinite = true ∧ overflowBound ≤ |(total front).toRat + value.toRat|

theorem total_append_singleton {values : List Binary64} (some : values ≠ []) (value : Binary64) :
    total (values ++ [value]) = total values + value := by
  match values with
  | first :: rest =>
    rw [List.cons_append, total, List.foldl_append]
    rfl

/-- An overrun comes about by the last value, or it is one of those before. -/
theorem overruns_append_singleton {values : List Binary64} {value : Binary64} :
    Overruns (values ++ [value]) ↔ Overruns values ∨
      (values ≠ [] ∧ (total values).isFinite = true ∧
        overflowBound ≤ |(total values).toRat + value.toRat|) := by
  constructor
  · rintro ⟨front, next, back, same, some, finite, beyond⟩
    rcases List.eq_nil_or_concat back with rfl | ⟨back, last, rfl⟩
    · obtain ⟨rfl, sameLast⟩ := List.append_inj' same rfl
      obtain rfl := List.singleton_inj.mp sameLast
      exact .inr ⟨some, finite, beyond⟩
    · rw [List.concat_eq_append, ← List.cons_append, ← List.append_assoc] at same
      obtain ⟨rfl, -⟩ := List.append_inj' same rfl
      exact .inl ⟨front, next, back, rfl, some, finite, beyond⟩
  · rintro (⟨front, next, back, rfl, some, finite, beyond⟩ | ⟨some, finite, beyond⟩)
    · exact ⟨front, next, back ++ [value], by simp, some, finite, beyond⟩
    · exact ⟨values, value, [], rfl, some, finite, beyond⟩

/-- **A total is finite unless the values overrun.** -/
theorem isFinite_total_iff {values : List Binary64}
    (finite : ∀ value ∈ values, value.isFinite = true) :
    (total values).isFinite = true ↔ ¬ Overruns values := by
  -- The last value is the one that is added last, so the induction takes values off there.
  induction values using List.reverseRecOn with
  | nil =>
    refine iff_of_true Binary64.vanishes_zero.1 ?_
    rintro ⟨front, value, back, same, -⟩
    simp at same
  | append_singleton values value ih =>
    obtain ⟨before, last⟩ := List.forall_mem_append.mp finite
    have lastFinite := last value List.mem_cons_self
    rw [overruns_append_singleton, not_or, ← ih before]
    by_cases some : values = []
    · subst some
      exact iff_of_true lastFinite ⟨Binary64.vanishes_zero.1, fun overrun => overrun.1 rfl⟩
    · rw [total_append_singleton some]
      constructor
      · intro sumFinite
        have totalFinite := (Binary64.isFinite_of_add sumFinite).1
        have inside := (Binary64.add_alike totalFinite lastFinite).isFinite_iff.mp sumFinite
        exact ⟨totalFinite, fun overrun => overrun.2.2.not_gt inside⟩
      · rintro ⟨totalFinite, inside⟩
        refine (Binary64.add_alike totalFinite lastFinite).isFinite_iff.mpr (not_le.mp ?_)
        exact fun beyond => inside ⟨some, totalFinite, beyond⟩

/-- What is not finite is no noise. -/
theorem isFinite_collect (values : List Binary64) :
    (collect values).isFinite = (total values).isFinite := by
  cases finite : (total values).isFinite
  · have loud : cancels (total values) values = false :=
      decide_eq_false (Binary64.not_abs_lt_of_not_finite finite _)
    rw [collect, if_neg fun noise => by simp [loud] at noise]
    exact finite
  · unfold collect
    split
    · exact Binary64.vanishes_zero.1
    · exact finite

/-! ## Exact sums -/

theorem exactSum_append_singleton (values : List Binary64) (value : Binary64) :
    exactSum (values ++ [value]) = exactSum values + value.toRat := by
  rw [exactSum_append, exactSum_cons]
  exact congrArg _ (add_zero _)

theorem exactSum_nonneg {values : List Binary64} (nonneg : ∀ value ∈ values, 0 ≤ value.toRat) :
    0 ≤ exactSum values :=
  List.sum_nonneg (List.forall_mem_map.mpr nonneg)

theorem exactSum_nonpos {values : List Binary64} (nonpos : ∀ value ∈ values, value.toRat ≤ 0) :
    exactSum values ≤ 0 :=
  (List.sum_le_card_nsmul _ 0 (List.forall_mem_map.mpr nonpos)).trans_eq (smul_zero _)

/-- Values of one sign take nothing back. -/
theorem abs_exactSum_le_append {front back : List Binary64}
    (sign : (∀ value ∈ front ++ back, 0 ≤ value.toRat) ∨
      ∀ value ∈ front ++ back, value.toRat ≤ 0) :
    |exactSum front| ≤ |exactSum (front ++ back)| := by
  have apart : |exactSum (front ++ back)| = |exactSum front| + |exactSum back| := by
    rw [exactSum_append, abs_add_eq_add_abs_iff]
    refine sign.imp (fun nonneg => ?_) fun nonpos => ?_
    · obtain ⟨here, later⟩ := List.forall_mem_append.mp nonneg
      exact ⟨exactSum_nonneg here, exactSum_nonneg later⟩
    · obtain ⟨here, later⟩ := List.forall_mem_append.mp nonpos
      exact ⟨exactSum_nonpos here, exactSum_nonpos later⟩
  rw [apart]
  exact le_add_of_nonneg_right (abs_nonneg _)

/-- **Each addition changes a total by `2 ^ 970` at most.** -/
theorem total_near {values : List Binary64} (some : values ≠ [])
    (finite : (total values).isFinite = true) :
    |(total values).toRat - exactSum values| ≤ (values.length - 1) * 2 ^ 970 := by
  induction values using List.reverseRecOn with
  | nil => exact absurd rfl some
  | append_singleton values value ih =>
    rw [exactSum_append_singleton, List.length_append, List.length_singleton, Nat.cast_add,
      Nat.cast_one, add_sub_cancel_right]
    by_cases none : values = []
    · subst none
      have alone : (total ([] ++ [value])).toRat - (exactSum [] + value.toRat) = 0 := by
        rw [show exactSum [] = 0 from rfl, zero_add]
        exact sub_self _
      rw [alone, abs_zero]
      positivity
    · rw [total_append_singleton none] at finite ⊢
      obtain ⟨totalFinite, lastFinite⟩ := Binary64.isFinite_of_add finite
      have alike := Binary64.add_alike totalFinite lastFinite
      have step := Binary64.abs_toRat_rounded_sub_le_pow (alike.isFinite_eq.symm.trans finite)
      rw [← alike.toRat_eq] at step
      have before := ih none totalFinite
      have apart := abs_sub_le (total values + value).toRat ((total values).toRat + value.toRat)
        (exactSum values + value.toRat)
      rw [add_sub_add_right_eq_sub] at apart
      calc |(total values + value).toRat - (exactSum values + value.toRat)|
        _ ≤ _ := apart
        _ ≤ 2 ^ 970 + (values.length - 1) * 2 ^ 970 := add_le_add step before
        _ = values.length * 2 ^ 970 := by rw [sub_mul, one_mul, add_sub_cancel]

section Overruns

variable {values : List Binary64} (overruns : Overruns values)
include overruns

/-- **An initial stretch of values that overrun has a sum that is too large**, but for the
roundings before its last value. -/
theorem Overruns.exists_stretch : ∃ front value back, values = front ++ value :: back ∧
    front ≠ [] ∧
      overflowBound - (front.length - 1) * 2 ^ 970 ≤ |exactSum (front ++ [value])| := by
  obtain ⟨front, value, back, same, some, finite, beyond⟩ := overruns
  refine ⟨front, value, back, same, some, ?_⟩
  have near := total_near some finite
  rw [exactSum_append_singleton]
  have apart := abs_sub_abs_le_abs_sub ((total front).toRat + value.toRat)
    (exactSum front + value.toRat)
  rw [add_sub_add_right_eq_sub] at apart
  generalize (2 : ℚ) ^ 970 = rounding at *
  linarith

/-- Two values that overrun are too large together. -/
theorem Overruns.of_length_le_two (few : values.length ≤ 2) :
    overflowBound ≤ |exactSum values| := by
  obtain ⟨front, value, back, rfl, some, beyond⟩ := overruns.exists_stretch
  have frontLength := List.length_pos_iff.mpr some
  rw [List.length_append, List.length_cons] at few
  have alone : front.length = 1 := by omega
  have last : back = [] := List.length_eq_zero_iff.mp (by omega)
  subst last
  rwa [alone, Nat.cast_one, sub_self, zero_mul, sub_zero] at beyond

/-- Values of one sign that overrun are too large together, but for the roundings. -/
theorem Overruns.of_one_sign (sign : (∀ value ∈ values, 0 ≤ value.toRat) ∨
    ∀ value ∈ values, value.toRat ≤ 0) :
    overflowBound - (values.length - 2) * 2 ^ 970 ≤ |exactSum values| := by
  obtain ⟨front, value, back, rfl, some, beyond⟩ := overruns.exists_stretch
  have parts : front ++ value :: back = (front ++ [value]) ++ back := by simp
  rw [parts] at sign ⊢
  refine le_trans (sub_le_sub_left ?_ _) (beyond.trans (abs_exactSum_le_append sign))
  refine mul_le_mul_of_nonneg_right ?_ (by positivity)
  rw [List.length_append, List.length_append, List.length_singleton]
  push_cast
  linarith [Nat.cast_nonneg (α := ℚ) back.length]

end Overruns

/-! ## What speaks against an equation -/

/-- The highest power that does not amount to something finite is named. -/
theorem objection_eq_overflowing_iff {left right : List Term} {power : UInt32} :
    (ofSides left right).objection = some (.overflowing power) ↔
      (collect (balance left right power)).isFinite = false ∧
        ∀ higher, power < higher → (collect (balance left right higher)).isFinite = true := by
  have wellFormed := wellFormed_ofSides left right
  have canonical : Canonical (ofSides left right).reduce.left :=
    canonical_collectTerms (ofSides left right).moved
  have member : ∀ term, term ∈ (ofSides left right).reduce.left ↔
      term.isZero = false ∧ term.value = collect (balance left right term.power) := by
    intro term
    rw [← likeValues_moved]
    exact mem_collectTerms
  -- A power that amounts to nothing finite has a term.
  have occurs : ∀ power, (collect (balance left right power)).isFinite = false →
      ⟨collect (balance left right power), power⟩ ∈ (ofSides left right).reduce.left := by
    intro power infinite
    refine (member _).mpr ⟨Binary64.sameNumber_zero_eq_false_iff.mpr ?_, rfl⟩
    intro vanishes
    rw [vanishes.1] at infinite
    cases infinite
  constructor
  · intro objected
    cases found : (ofSides left right).reduce.left.find? fun term => !term.value.isFinite with
    | none =>
      simp only [objection, found] at objected
      split at objected <;> cases objected
    | some term =>
      rw [objection_of_overflow found] at objected
      obtain rfl : term.power = power := by
        cases objected
        rfl
      have infinite := List.find?_some found
      rw [← ((member term).mp (List.mem_of_find?_eq_some found)).2]
      refine ⟨by simpa using infinite, fun higher above => ?_⟩
      by_contra notFinite
      have other := occurs higher (Bool.not_eq_true _ ▸ notFinite)
      have finite := highest_of_find? canonical.descending found _ other above
      simp [notFinite] at finite
  · rintro ⟨infinite, highest⟩
    obtain ⟨term, isTerm, termInfinite, above, objected⟩ :=
      objection_of_overflows wellFormed ⟨_, occurs power infinite, infinite⟩
    rw [objected]
    have value := ((member term).mp isTerm).2
    have order := Nat.lt_trichotomy term.power.toNat power.toNat
    rw [← UInt32.lt_iff_toNat_lt, UInt32.toNat_inj, ← UInt32.lt_iff_toNat_lt] at order
    rcases order with lower | same | higher
    · have finite := above _ (occurs power infinite) lower
      rw [infinite] at finite
      cases finite
    · rw [same]
    · have finite := highest term.power higher
      rw [← value, termInfinite] at finite
      cases finite

/-- A text is refused because of the terms of a power. -/
def RefusedFor (source : String) (power : UInt32) : Prop :=
  ∃ refusal, read source = .error refusal ∧ refusal.reason = .overflowing power

/-- What is read of a side is finite. -/
theorem isFinite_of_readSide {text : List Char} {terms : List Term}
    (isRead : readSide text = .ok terms) : ∀ term ∈ terms, term.value.isFinite = true := by
  obtain ⟨phrases, -, fits, rfl⟩ := readSide_eq_ok_iff.mp isRead
  intro term member
  obtain ⟨phrase, isPhrase, rfl⟩ := List.mem_map.mp member
  have finite := (fits phrase isPhrase).1
  rw [Phrase.term]
  split
  · exact (Binary64.isFinite_neg _).trans finite
  · exact finite

section Sides

variable {source : String} {left right : List Char} {leftTerms rightTerms : List Term}
  (splits : source.toList = left ++ '=' :: right) (noLeft : '=' ∉ left) (noRight : '=' ∉ right)
  (leftRead : readSide left = .ok leftTerms) (rightRead : readSide right = .ok rightTerms)
include splits noLeft noRight leftRead rightRead

theorem refusedFor_iff_objection (power : UInt32) :
    RefusedFor source power ↔
      (ofSides leftTerms rightTerms).objection = some (.overflowing power) := by
  rw [RefusedFor, read, splits, readCharacters_append noLeft noRight leftRead rightRead]
  cases (ofSides leftTerms rightTerms).objection with
  | none => simp
  | some reason =>
    constructor
    · rintro ⟨_, refused, same⟩
      cases refused
      exact congrArg some same
    · intro same
      exact ⟨_, rfl, Option.some.inj same⟩

/-- **A text is refused because of the highest power whose values overrun.** -/
theorem refusedFor_iff_overruns (power : UInt32) :
    RefusedFor source power ↔ Overruns (balance leftTerms rightTerms power) ∧
      ∀ higher, power < higher → ¬ Overruns (balance leftTerms rightTerms higher) := by
  have finite : (ofSides leftTerms rightTerms).FiniteValues :=
    List.forall_mem_append.mpr ⟨isFinite_of_readSide leftRead, isFinite_of_readSide rightRead⟩
  have collected : ∀ power, (collect (balance leftTerms rightTerms power)).isFinite = true ↔
      ¬ Overruns (balance leftTerms rightTerms power) := fun power => by
    rw [isFinite_collect]
    exact isFinite_total_iff (isFinite_balance finite power)
  rw [refusedFor_iff_objection splits noLeft noRight leftRead rightRead,
    objection_eq_overflowing_iff, ← Bool.not_eq_true, collected, not_not]
  simp only [collected]

/-- **A text is refused for terms that are too large together.**  It is refused because of
a power just when that is the highest one of which some partial sum and the next value
overrun.  Then some of its values, from the first one on, have an exact sum that rounds to
no finite number, but for the roundings on the way.  Where the power has two values, or
values of one sign, that is said of all of them. -/
theorem refusedFor_explained (power : UInt32) :
    (RefusedFor source power ↔ Overruns (balance leftTerms rightTerms power) ∧
      ∀ higher, power < higher → ¬ Overruns (balance leftTerms rightTerms higher)) ∧
    (RefusedFor source power →
      (∃ front value back, balance leftTerms rightTerms power = front ++ value :: back ∧
        front ≠ [] ∧
          overflowBound - (front.length - 1) * 2 ^ 970 ≤ |exactSum (front ++ [value])|) ∧
      ((balance leftTerms rightTerms power).length ≤ 2 →
        overflowBound ≤
          |exactSum (likeValues leftTerms power) - exactSum (likeValues rightTerms power)|) ∧
      ((∀ value ∈ balance leftTerms rightTerms power, 0 ≤ value.toRat) ∨
          (∀ value ∈ balance leftTerms rightTerms power, value.toRat ≤ 0) →
        overflowBound - ((balance leftTerms rightTerms power).length - 2) * 2 ^ 970 ≤
          |exactSum (likeValues leftTerms power) - exactSum (likeValues rightTerms power)|)) := by
  have overrun := refusedFor_iff_overruns splits noLeft noRight leftRead rightRead power
  rw [← exactSum_balance]
  refine ⟨overrun, fun refused => ?_⟩
  obtain ⟨overruns, -⟩ := overrun.mp refused
  exact ⟨overruns.exists_stretch, overruns.of_length_le_two, overruns.of_one_sign⟩

end Sides

/-! ## Sums of a huge number -/

/-- The digits of `9·10³⁰⁷`, which is finite while twice as much is not. -/
def hugeDigits : List Char :=
  '9' :: List.replicate 307 '0'

/-- The number with these digits. -/
def huge : Binary64 :=
  Decimal.nearest ⟨false, 9, 307⟩

/-- The number added to itself, as a side of an equation. -/
def hugeTwice : List Char :=
  hugeDigits ++ ' ' :: '+' :: ' ' :: hugeDigits ++ [' ']

/-- The number once more, and the unknown. -/
def hugeOnce : List Char :=
  ' ' :: hugeDigits ++ [' ', '+', ' ', 'x']

theorem read_huge : readSide hugeTwice = .ok [⟨huge, 0⟩, ⟨huge, 0⟩] ∧
    readSide hugeOnce = .ok [⟨huge, 0⟩, ⟨1, 1⟩] ∧ readSide [' ', 'x'] = .ok [⟨1, 1⟩] ∧
    '=' ∉ hugeTwice ∧ '=' ∉ hugeOnce ∧ huge.isFinite = true ∧
    (ofSides [⟨huge, 0⟩, ⟨huge, 0⟩] [⟨1, 1⟩]).objection = some (.overflowing 0) ∧
    (ofSides [⟨huge, 0⟩, ⟨huge, 0⟩] [⟨huge, 0⟩, ⟨1, 1⟩]).objection = some (.overflowing 0) := by
  decide +kernel

/-- With `D` for the number, `D + D = x` is refused because of its two constants, which are
too large together. -/
theorem refusedFor_explained_doubled :
    RefusedFor (String.ofList (hugeTwice ++ '=' :: [' ', 'x'])) 0 ∧
      overflowBound ≤ |exactSum (likeValues [⟨huge, 0⟩, ⟨huge, 0⟩] 0) -
        exactSum (likeValues [⟨1, 1⟩] 0)| := by
  obtain ⟨leftRead, -, rightRead, noLeft, -, -, objected, -⟩ := read_huge
  have splits : (String.ofList (hugeTwice ++ '=' :: [' ', 'x'])).toList =
      hugeTwice ++ '=' :: [' ', 'x'] := String.toList_ofList
  have noRight : '=' ∉ [' ', 'x'] := by decide
  have refused := (refusedFor_iff_objection splits noLeft noRight leftRead rightRead 0).mpr objected
  obtain ⟨-, explained⟩ := refusedFor_explained splits noLeft noRight leftRead rightRead 0
  exact ⟨refused, (explained refused).2.1 (Nat.le_refl 2)⟩

/-- **A later value takes back what was too much.**  With `D` for the number,
`D + D = D + x` is refused because of its constants, which add up to `D`. -/
theorem refusedFor_taken_back :
    RefusedFor (String.ofList (hugeTwice ++ '=' :: hugeOnce)) 0 ∧
      readSide hugeTwice = .ok [⟨huge, 0⟩, ⟨huge, 0⟩] ∧
      readSide hugeOnce = .ok [⟨huge, 0⟩, ⟨1, 1⟩] ∧
      |exactSum (likeValues [⟨huge, 0⟩, ⟨huge, 0⟩] 0) -
        exactSum (likeValues [⟨huge, 0⟩, ⟨1, 1⟩] 0)| < overflowBound := by
  obtain ⟨leftRead, rightRead, -, noLeft, noRight, finite, -, objected⟩ := read_huge
  have splits : (String.ofList (hugeTwice ++ '=' :: hugeOnce)).toList =
      hugeTwice ++ '=' :: hugeOnce := String.toList_ofList
  have refused := (refusedFor_iff_objection splits noLeft noRight leftRead rightRead 0).mpr objected
  refine ⟨refused, leftRead, rightRead, ?_⟩
  have twice : ∀ value, likeValues [⟨value, 0⟩, ⟨value, 0⟩] 0 = [value, value] := fun _ => rfl
  have once : ∀ value, likeValues [⟨value, 0⟩, ⟨1, 1⟩] 0 = [value] := fun _ => rfl
  rw [twice, once, exactSum_cons, add_sub_cancel_right]
  exact Binary64.abs_toRat_lt finite

end Quadratics.Equation
