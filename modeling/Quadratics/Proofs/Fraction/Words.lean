import Quadratics.Proofs.Binary64.Zeros
import Quadratics.Proofs.Fraction.Expansion

/-!
# The search in words of 64 bits

The search for a near fraction as a program on signed words of 64 bits.  Every
operation on words is checked: a result that does not fit, a division by zero and a
fraction with denominator zero are breaches, and so are a bound below one and a turn
of the loop after which the divisor is no smaller.

For every value and every bound that is a positive word, the program comes to no
breach and finds what `closest?` finds (`closest_eq`).  The words of the loop are
those of the expansion (`State.ofExpansion`), and these are bounded by the numbers
that are expanded.
-/

namespace Quadratics.Fraction.Words

set_option autoImplicit false

/-! ## Checked operations -/

/-- The promises that the search makes. -/
inductive Breach where
  | overflow
  | divisionByZero
  | zeroDenominator
  | noDenominatorAllowed
  | endless
  deriving DecidableEq

/-- Words stay below `2 ^ 63`. -/
def wordLimit : Nat := 1 <<< 63

/-- A result that must fit a word. -/
def word (value : Int) : Except Breach Int :=
  if -(wordLimit : Int) ≤ value ∧ value < wordLimit then .ok value else .error .overflow

def divide (x y : Int) : Except Breach Int :=
  if y = 0 then .error .divisionByZero else word (x.tdiv y)

/-- The fraction of two words. -/
def ratio (numerator denominator : Int) : Except Breach Rat :=
  if denominator = 0 then .error .zeroDenominator else .ok (Rat.divInt numerator denominator)

/-- A number moved on by a multiple of another one. -/
def combine (older factor last : Int) : Except Breach Int := do
  word (older + (← word (factor * last)))

/-! ## The search -/

/-- The variables of the loop. -/
structure State where
  numerator : Int
  denominator : Int
  olderNumerator : Int
  olderDenominator : Int
  dividend : Int
  divisor : Int

/-- How a turn of the loop ends. -/
inductive Turn where
  | leave (state : State)
  | again (state : State)

/-- A turn of the loop. -/
def turn (bound : Int) (state : State) : Except Breach Turn := do
  let quotient ← divide state.dividend state.divisor
  let denominator ← combine state.olderDenominator quotient state.denominator
  if bound < denominator then return .leave state
  let numerator ← combine state.olderNumerator quotient state.numerator
  let remainder ← word (state.dividend - (← word (quotient * state.divisor)))
  let next : State :=
    ⟨numerator, denominator, state.numerator, state.denominator, state.divisor, remainder⟩
  if remainder = 0 then return .leave next else return .again next

/-- The loop. -/
def loop (bound : Int) (state : State) : Except Breach State :=
  match turn bound state with
  | .error breach => .error breach
  | .ok (.leave state) => .ok state
  | .ok (.again next) =>
      if next.divisor.natAbs < state.divisor.natAbs then loop bound next else .error .endless
termination_by state.divisor.natAbs

/-- How far a fraction is from a number. -/
def distance (target : Binary64) (fraction : Rat) : Binary64 :=
  (Binary64.ofInt fraction.num / Binary64.ofInt fraction.den - target).abs

/-- The nearer one of the two candidates where the loop ends. -/
def choose (target : Binary64) (bound : Int) (state : State) : Except Breach Rat := do
  let steps ← divide (← word (bound - state.olderDenominator)) state.denominator
  let semiconvergent ← ratio (← combine state.olderNumerator steps state.numerator)
    (← combine state.olderDenominator steps state.denominator)
  let convergent ← ratio state.numerator state.denominator
  if distance target convergent ≤ distance target semiconvergent then return convergent
  else return semiconvergent

/-- The fraction near a quotient whose denominator keeps within the bound. -/
def limit (numerator denominator bound : Int) : Except Breach Rat := do
  if denominator ≤ bound then ratio numerator denominator
  else
    let state ← loop bound ⟨1, 0, 0, 1, numerator, denominator⟩
    choose (Binary64.ofInt numerator / Binary64.ofInt denominator) bound state

/-- The fraction near a fraction, with the sign left aside in the search. -/
def limitSigned (exact : Rat) (bound : Int) : Except Breach Rat := do
  let limited ← limit (← word |exact.num|) exact.den bound
  if exact.num < 0 then ratio (← word (-limited.num)) limited.den else return limited

/-- The fraction near a number, if the number is not too large to be looked at. -/
def closest (value : Binary64) (bound : Int) : Except Breach (Option Rat) := do
  if bound < 1 then throw .noDenominatorAllowed
  let scaled := (value * .ofInt scale).round
  if !scaled.isFinite ∨ scaledLimit ≤ scaled.abs then return none
  let exact ← ratio (← word scaled.truncate) scale
  return some (← limitSigned exact bound)

/-! ## The words of an expansion -/

/-- The variables of the loop at an expansion. -/
def State.ofExpansion (expansion : Expansion) : State :=
  ⟨expansion.numerator, expansion.denominator, expansion.olderNumerator,
    expansion.olderDenominator, expansion.dividend, expansion.divisor⟩

theorem word_eq_ok {value : Int} (small : value.natAbs < wordLimit) : word value = .ok value := by
  apply if_pos
  omega

theorem word_natCast {value : Nat} (small : value < wordLimit) : word value = .ok value := by
  apply word_eq_ok
  rwa [Int.natAbs_natCast]

theorem ok_bind {α β : Type} (value : α) (next : α → Except Breach β) :
    (Except.ok value >>= next) = next value :=
  pure_bind value next

theorem divide_natCast {x y : Nat} (small : x < wordLimit) (positive : 0 < y) :
    divide x y = .ok (x / y : Nat) := by
  have nonzero : (y : Int) ≠ 0 := by omega
  rw [divide, if_neg nonzero, ← Int.ofNat_tdiv]
  exact word_natCast ((Nat.div_le_self x y).trans_lt small)

theorem ratio_natCast (x : Int) {y : Nat} (positive : 0 < y) : ratio x y = .ok (mkRat x y) := by
  have nonzero : (y : Int) ≠ 0 := by omega
  rw [ratio, if_neg nonzero, Rat.mkRat_eq_divInt]

theorem combine_natCast {older factor last : Nat} (small : older + factor * last < wordLimit) :
    combine older factor last = .ok (older + factor * last : Nat) := by
  have product : word (factor * last : Nat) = .ok (factor * last : Nat) :=
    word_natCast ((Nat.le_add_left _ _).trans_lt small)
  rw [combine, ← Int.natCast_mul, product, ok_bind, ← Int.natCast_add, word_natCast small]

theorem remainder_ofExpansion (expansion : Expansion) :
    (expansion.dividend : Int) - (expansion.quotient * expansion.divisor : Nat) =
      (expansion.next.divisor : Nat) := by
  have divided := Expansion.divided expansion
  omega

section Loop

variable {numerator denominator bound : Nat} {expansion : Expansion}

/-- **A turn of the loop is a step of the expansion.** -/
theorem turn_ofExpansion (keeps : expansion.Keeps numerator denominator bound)
    (positive : 0 < expansion.divisor) (numeratorSmall : numerator < wordLimit)
    (denominatorSmall : denominator < wordLimit) :
    turn bound (.ofExpansion expansion) =
      .ok (if bound < expansion.next.denominator then .leave (.ofExpansion expansion)
        else if expansion.next.divisor = 0 then .leave (.ofExpansion expansion.next)
        else .again (.ofExpansion expansion.next)) := by
  have dividendSmall : expansion.dividend < wordLimit :=
    keeps.dividend_le.trans_lt (max_lt numeratorSmall denominatorSmall)
  have nextNumerator := keeps.next_numerator_le positive
  have nextDenominator := keeps.next_denominator_le positive
  simp only [Expansion.next] at nextNumerator nextDenominator
  have quotient : divide expansion.dividend expansion.divisor = .ok (expansion.quotient : Nat) :=
    divide_natCast dividendSmall positive
  have remainderLe : expansion.next.divisor ≤ expansion.dividend := Nat.mod_le _ _
  have productLe : expansion.quotient * expansion.divisor ≤ expansion.dividend :=
    Nat.div_mul_le_self _ _
  have dividedProduct : word (expansion.quotient * expansion.divisor : Nat) =
      .ok (expansion.quotient * expansion.divisor : Nat) :=
    word_natCast (productLe.trans_lt dividendSmall)
  simp only [turn, State.ofExpansion, quotient, ok_bind, ← Int.natCast_mul, dividedProduct,
    remainder_ofExpansion, combine_natCast (nextDenominator.trans_lt denominatorSmall),
    combine_natCast (nextNumerator.trans_lt numeratorSmall),
    word_natCast (remainderLe.trans_lt dividendSmall), Nat.cast_lt, Int.natCast_eq_zero]
  split
  · rename_i beyond
    have nextBeyond : bound < expansion.next.denominator := beyond
    rw [if_pos nextBeyond]
    rfl
  · rename_i inside
    have nextInside : ¬ bound < expansion.next.denominator := inside
    rw [if_neg nextInside]
    split <;> rfl

/-- **The loop ends where the expansion does.** -/
theorem loop_ofExpansion (keeps : expansion.Keeps numerator denominator bound)
    (positive : 0 < expansion.divisor) (numeratorSmall : numerator < wordLimit)
    (denominatorSmall : denominator < wordLimit) :
    loop bound (.ofExpansion expansion) = .ok (.ofExpansion (expansion.walk bound)) := by
  induction length : expansion.divisor using Nat.strong_induction_on generalizing expansion with
  | _ size ih =>
    subst length
    have smaller : expansion.next.divisor < expansion.divisor := Nat.mod_lt _ positive
    have walked : expansion.walk bound =
        if bound < expansion.next.denominator then expansion else expansion.next.walk bound := by
      rw [Expansion.walk, if_neg (Nat.ne_of_gt positive)]
    rw [loop, turn_ofExpansion keeps positive numeratorSmall denominatorSmall, walked]
    by_cases beyond : bound < expansion.next.denominator
    · simp only [beyond, if_true]
    · simp only [beyond, if_false]
      by_cases complete : expansion.next.divisor = 0
      · have walked : expansion.next.walk bound = expansion.next := by
          rw [Expansion.walk, if_pos complete]
        simp only [complete, if_true, walked]
      · have decreasing : (State.ofExpansion expansion.next).divisor.natAbs <
            (State.ofExpansion expansion).divisor.natAbs := by
          simpa [State.ofExpansion] using smaller
        simp only [complete, if_false, decreasing, if_true]
        exact ih _ smaller (keeps.next positive (Nat.not_lt.mp beyond))
          (Nat.pos_of_ne_zero complete) rfl

end Loop

/-! ## The whole search in words -/

/-- **The candidates are those of the expansion**, where the loop ends. -/
theorem choose_ofExpansion {numerator denominator bound : Nat} {expansion : Expansion}
    (stops : expansion.Stops numerator denominator bound) (positive : 1 ≤ bound)
    (numeratorSmall : numerator < wordLimit) (boundSmall : bound < wordLimit) (target : Rat) :
    choose (toBinary64 target) bound (.ofExpansion expansion) =
      .ok (if Fraction.distance target expansion.convergent ≤
          Fraction.distance target (expansion.semiconvergent bound) then expansion.convergent
        else expansion.semiconvergent bound) := by
  obtain ⟨numeratorBound, denominatorBound⟩ := stops.semiconvergent_bounds positive
  have denominatorPos := stops.denominator_pos positive
  have older := stops.keeps.within.2
  have room : (bound : Int) - expansion.olderDenominator =
      (bound - expansion.olderDenominator : Nat) := (Int.natCast_sub older).symm
  have roomSmall : bound - expansion.olderDenominator < wordLimit :=
    (Nat.sub_le _ _).trans_lt boundSmall
  have steps : divide (bound - expansion.olderDenominator : Nat) expansion.denominator =
      .ok (expansion.semiSteps bound : Nat) := divide_natCast roomSmall denominatorPos
  simp only [choose, State.ofExpansion, ok_bind, room, word_natCast roomSmall, steps,
    combine_natCast (numeratorBound.trans_lt numeratorSmall),
    combine_natCast (denominatorBound.trans_lt boundSmall),
    ratio_natCast _ (stops.semiconvergent_pos positive), ratio_natCast _ denominatorPos]
  split
  · rename_i nearer
    exact congrArg Except.ok (if_pos nearer).symm
  · rename_i farther
    exact congrArg Except.ok (if_neg farther).symm

/-- **The search within a bound keeps to words.** -/
theorem limit_eq {target : Rat} {bound : Nat} (unsigned : 0 ≤ target.num)
    (numeratorSmall : target.num.natAbs < wordLimit) (denominatorSmall : target.den < wordLimit)
    (positive : 1 ≤ bound) (boundSmall : bound < wordLimit) :
    limit target.num target.den bound = .ok (withinBound bound target) := by
  have absolute : (target.num.natAbs : Int) = target.num := Int.natAbs_of_nonneg unsigned
  simp only [limit, withinBound]
  by_cases inside : target.den ≤ bound
  · have insideWord : (target.den : Int) ≤ bound := Int.ofNat_le.mpr inside
    have nonzero : (target.den : Int) ≠ 0 := Int.natCast_ne_zero.mpr target.den_nz
    rw [if_pos inside, if_pos insideWord, ratio, if_neg nonzero, Rat.num_divInt_den]
  · have insideWord : ¬ (target.den : Int) ≤ bound := fun le => inside (Int.ofNat_le.mp le)
    have keeps := Expansion.keeps_start target.reduced positive
    have stops := Expansion.walk_stops keeps (Nat.not_le.mp inside)
    have walked := loop_ofExpansion keeps target.den_pos numeratorSmall denominatorSmall
    have started : State.ofExpansion (Expansion.start target.num.natAbs target.den) =
        ⟨1, 0, 0, 1, target.num, target.den⟩ := by
      simp only [State.ofExpansion, Expansion.start, absolute]
      rfl
    rw [started] at walked
    rw [if_neg inside, if_neg insideWord, walked, ok_bind]
    exact choose_ofExpansion stops positive numeratorSmall boundSmall target

/-! ## Numbers that are looked at -/

/-- A number below the limit holds a word before its point. -/
theorem natAbs_truncate_lt {value : Binary64} (finite : value.isFinite = true)
    (below : ¬ scaledLimit ≤ value.abs) : value.truncate.natAbs < wordLimit := by
  have limitFinite : scaledLimit.isFinite = true := by decide +kernel
  have limitUnits : scaledLimit.units = wordLimit * Binary64.unitsPerOne := by decide +kernel
  have absFinite : value.abs.isFinite = true := (Binary64.isFinite_abs value).trans finite
  have small : value.magnitude < wordLimit * Binary64.unitsPerOne := by
    rw [Binary64.le_iff limitFinite absFinite, limitUnits, Binary64.units_abs] at below
    exact_mod_cast Int.not_le.mp below
  have natAbs : value.truncate.natAbs = value.magnitude / Binary64.unitsPerOne := by
    simp only [Binary64.truncate, Binary64.signed]
    split
    · rw [Int.natAbs_neg, Int.natAbs_natCast]
    · exact Int.natAbs_natCast _
  rw [natAbs]
  exact Nat.div_lt_of_lt_mul (Nat.mul_comm _ _ ▸ small)

/-- A fraction in lowest terms is no larger than it was before. -/
theorem natAbs_num_mkRat_le (numerator : Int) (denominator : Nat) :
    (mkRat numerator denominator).num.natAbs ≤ numerator.natAbs := by
  rw [Rat.num_mkRat]
  split
  · exact Nat.zero_le _
  · exact Int.natAbs_ediv_le_natAbs _ _

theorem den_mkRat_le (numerator : Int) {denominator : Nat} (positive : 0 < denominator) :
    (mkRat numerator denominator).den ≤ denominator := by
  rw [Rat.den_mkRat, if_neg (Nat.ne_of_gt positive)]
  exact Nat.div_le_self _ _

/-- One of two candidates is taken where the number itself has too large a
denominator. -/
theorem withinBound_eq_or_eq {bound : Nat} {target : Rat} (outside : ¬ target.den ≤ bound) :
    let expansion := (Expansion.start target.num.natAbs target.den).walk bound
    withinBound bound target = expansion.convergent ∨
      withinBound bound target = expansion.semiconvergent bound := by
  intro expansion
  rw [withinBound, if_neg outside]
  exact ite_eq_or_eq _ _ _

/-- What is found within a bound is no larger than what was looked for. -/
theorem natAbs_num_withinBound_le {bound : Nat} (positive : 1 ≤ bound) (target : Rat) :
    (withinBound bound target).num.natAbs ≤ target.num.natAbs := by
  by_cases inside : target.den ≤ bound
  · rw [withinBound, if_pos inside]
  · have keeps := Expansion.keeps_start target.reduced positive
    have stops := Expansion.walk_stops keeps (Nat.not_le.mp inside)
    rcases withinBound_eq_or_eq inside with taken | taken
    · rw [taken]
      apply (natAbs_num_mkRat_le _ _).trans
      rw [Int.natAbs_natCast]
      exact stops.numerator_le positive
    · rw [taken]
      apply (natAbs_num_mkRat_le _ _).trans
      rw [Int.natAbs_natCast]
      exact (stops.semiconvergent_bounds positive).1

theorem mkRat_neg_num (fraction : Rat) : mkRat (-fraction.num) fraction.den = -fraction := by
  rw [← Rat.neg_mkRat, Rat.mkRat_self]

/-- **The search keeps to words on either side of zero.** -/
theorem limitSigned_eq {exact : Rat} {bound : Nat} (numeratorSmall : exact.num.natAbs < wordLimit)
    (denominatorSmall : exact.den < wordLimit) (positive : 1 ≤ bound)
    (boundSmall : bound < wordLimit) :
    limitSigned exact bound =
      .ok (if exact.num < 0 then -withinBound bound (-exact) else withinBound bound exact) := by
  have absoluteSmall : (|exact.num|).natAbs < wordLimit := by
    rwa [Int.natAbs_abs]
  simp only [limitSigned]
  rw [word_eq_ok absoluteSmall, ok_bind]
  by_cases negative : exact.num < 0
  · have negatedSmall : (-exact).num.natAbs < wordLimit := by
      rwa [Rat.num_neg_eq_neg_num, Int.natAbs_neg]
    have searched : limit (-exact).num (-exact).den bound = .ok (withinBound bound (-exact)) :=
      limit_eq (Int.neg_nonneg.mpr negative.le) negatedSmall denominatorSmall positive boundSmall
    have foundSmall : (-(withinBound bound (-exact)).num).natAbs < wordLimit := by
      rw [Int.natAbs_neg]
      exact (natAbs_num_withinBound_le positive _).trans_lt negatedSmall
    rw [Rat.num_neg_eq_neg_num, Rat.den_neg_eq_den] at searched
    rw [abs_of_neg negative, searched, ok_bind, if_pos negative, if_pos negative,
      word_eq_ok foundSmall, ok_bind, ratio_natCast _ (Rat.den_pos _), mkRat_neg_num]
  · have unsigned : 0 ≤ exact.num := Int.not_lt.mp negative
    rw [abs_of_nonneg unsigned,
      limit_eq unsigned numeratorSmall denominatorSmall positive boundSmall, ok_bind,
      if_neg negative, if_neg negative]
    rfl

theorem scale_lt : scale < wordLimit := by decide +kernel

/-- **The search keeps to words, for every number and every bound that is a
positive word.** -/
theorem closest_eq (value : Binary64) {bound : Int} (positive : 1 ≤ bound)
    (small : bound < wordLimit) :
    ∃ found, closest value bound = .ok found ∧ closest? value bound = .ok found := by
  obtain ⟨size, rfl⟩ := Int.eq_ofNat_of_zero_le (show 0 ≤ bound by omega)
  have sizePos : 1 ≤ size := Int.ofNat_le.mp positive
  have sizeSmall : size < wordLimit := Int.ofNat_lt.mp small
  have allowed : ¬ (size : Int) < 1 := Int.not_lt.mpr positive
  simp only [closest, closest?, roundedTarget?]
  simp only [allowed, if_false, Int.toNat_natCast]
  by_cases beyond : !((value * .ofInt scale).round).isFinite ∨
      scaledLimit ≤ ((value * .ofInt scale).round).abs
  · refine ⟨none, ?_, ?_⟩
    · simp only [beyond, if_true]
      rfl
    · simp only [beyond, if_true, Option.map_none]
  · obtain ⟨finite, below⟩ := not_or.mp beyond
    have finite : ((value * .ofInt scale).round).isFinite = true := by
      simpa using finite
    have truncated := natAbs_truncate_lt finite below
    have scalePos : 0 < scale := Nat.succ_pos _
    generalize ((value * .ofInt scale).round).truncate = whole at truncated
    have searched := limitSigned_eq ((natAbs_num_mkRat_le whole scale).trans_lt truncated)
      ((den_mkRat_le whole scalePos).trans_lt scale_lt) sizePos sizeSmall
    simp only [beyond, if_false, word_eq_ok truncated, ok_bind, ratio_natCast whole scalePos,
      Option.map_some, searched]
    exact ⟨_, rfl, rfl⟩

end Quadratics.Fraction.Words
