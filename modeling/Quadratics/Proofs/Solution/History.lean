import Quadratics.Proofs.Solution.Safety

/-!
# Histories of equations

Equations are written out, read, copied and taken through steps in any order.  A desk
holds each of them beside the equation that it was made from, and it keeps the answers
that were given (`Desk`).  Its history is the list of actions so far (`deskAfter`).

Reducing twice is reducing once, so all that can have become of an equation is its reduced
form, however often it was worked with (`Holding.Kept`).  A step asks for the reduced form
before anything else, and so it answers as it would have answered on a fresh copy
(`Holding.Kept.reply_eq`).  From that every action keeps the desk in order
(`Desk.Orderly.act`), and by induction every history does (`orderly_deskAfter`).
-/

namespace Quadratics

set_option autoImplicit false

/-! ## Desks -/

/-- An equation that is worked with. -/
structure Holding where
  /-- The equation as it was made. -/
  origin : Equation
  /-- What has become of it. -/
  current : Equation

/-- A step on an equation, and what it gave back. -/
structure Answer where
  /-- The equation as it was made. -/
  origin : Equation
  /-- The step. -/
  step : Step
  /-- What the step gave back. -/
  reply : Reply

/-- The equations that are held, each in its place, and the answers so far. -/
structure Desk where
  held : List Holding
  answers : List Answer

/-- What is done at a desk. -/
inductive Action where
  /-- An equation is written out by its sides. -/
  | build (left right : List Term)
  /-- An equation is read from a text, if it can be. -/
  | read (source : String)
  /-- The equation at a place is copied to a new one. -/
  | copy (place : Nat)
  /-- The equation at a place is given up for its reduced form. -/
  | exchange (place : Nat)
  /-- A step is performed on the equation at a place. -/
  | perform (place : Nat) (step : Step)

/-- A fresh equation. -/
def Holding.fresh (equation : Equation) : Holding :=
  ⟨equation, equation⟩

/-- What is left of an equation that was reduced, by itself or for a step. -/
def Holding.reduced (holding : Holding) : Holding :=
  ⟨holding.origin, holding.current.reduce⟩

namespace Desk

/-- One more equation is held. -/
def add (desk : Desk) (holding : Holding) : Desk :=
  ⟨desk.held ++ [holding], desk.answers⟩

/-- The desk after an action.  An action at a place where nothing is held changes
nothing. -/
def act (desk : Desk) (action : Action) : Desk :=
  match action with
  | .build left right => desk.add (.fresh (.ofSides left right))
  | .read source =>
      match Equation.read source with
      | .ok equation => desk.add (.fresh equation)
      | .error _ => desk
  | .copy place =>
      match desk.held[place]? with
      | some holding => desk.add holding
      | none => desk
  | .exchange place => ⟨desk.held.modify place Holding.reduced, desk.answers⟩
  | .perform place step =>
      match desk.held[place]? with
      | some holding =>
          let (reply, left) := step.perform holding.current
          ⟨desk.held.set place ⟨holding.origin, left⟩,
            desk.answers ++ [⟨holding.origin, step, reply⟩]⟩
      | none => desk

end Desk

/-- The desk after a history, from an empty one. -/
def deskAfter (history : List Action) : Desk :=
  history.foldl Desk.act ⟨[], []⟩

/-- Whoever asks for a solution allows some denominator. -/
def Action.Allowed : Action → Prop
  | .perform _ (.solve settings) => 1 ≤ settings.denominatorBound
  | _ => True

/-! ## What becomes of an equation -/

/-- A holding has nothing but the equation as it was made, or its reduced form. -/
structure Holding.Kept (holding : Holding) : Prop where
  written : holding.origin.form = .written
  current : holding.current = holding.origin ∨ holding.current = holding.origin.reduce

namespace Holding

theorem kept_fresh {equation : Equation} (written : equation.form = .written) :
    (fresh equation).Kept :=
  ⟨written, .inl rfl⟩

namespace Kept

variable {holding : Holding} (kept : holding.Kept)
include kept

/-- Whatever has become of an equation, its reduced form is that of the original. -/
theorem reduce_eq : holding.current.reduce = holding.origin.reduce := by
  rcases kept.current with same | same <;> rw [same]
  exact Equation.reduce_reduce _

theorem reduced : holding.reduced.Kept :=
  ⟨kept.written, .inr kept.reduce_eq⟩

/-- **A step answers as it would answer on a fresh copy.** -/
theorem reply_eq (step : Step) : step.reply holding.current = step.reply holding.origin := by
  have coefficients : holding.current.coefficients = holding.origin.coefficients := by
    rw [Equation.coefficients, Equation.coefficients, kept.reduce_eq]
  cases step with
  | reduce => rfl
  | coefficients => rw [Step.reply, Step.reply, coefficients]
  | solve settings =>
    rw [Step.reply, Step.reply, Equation.solve, Equation.solve, coefficients, kept.reduce_eq]

theorem wellFormed : holding.current.WellFormed := by
  have originWellFormed : holding.origin.WellFormed := fun reduced => by
    rw [kept.written] at reduced
    cases reduced
  rcases kept.current with same | same <;> rw [same]
  · exact originWellFormed
  · exact originWellFormed.reduce

end Kept

end Holding

/-- An answer is what a step gives back on the equation as it was made, and no misuse. -/
structure Answer.Faithful (answer : Answer) : Prop where
  reply_eq : answer.reply = answer.step.reply answer.origin
  proper : ∀ misuse, answer.reply ≠ .misuse misuse

/-- No step is a misuse that allows some denominator. -/
theorem Equation.WellFormed.reply_ne_misuse {equation : Equation}
    (wellFormed : equation.WellFormed) {place : Nat} {step : Step}
    (allowed : (Action.perform place step).Allowed) (misuse : Misuse) :
    step.reply equation ≠ .misuse misuse := by
  cases step with
  | reduce => exact Reply.noConfusion
  | coefficients => exact Reply.noConfusion
  | solve settings =>
    obtain ⟨report, solved, -⟩ := wellFormed.solve_succeeds allowed
    rw [Step.reply, solved]
    exact Reply.noConfusion

/-! ## What an action does to a desk -/

namespace Desk

variable {desk : Desk} {action : Action}

/-- All that is held is kept, and all answers are faithful. -/
structure Orderly (desk : Desk) : Prop where
  held : ∀ holding ∈ desk.held, holding.Kept
  answers : ∀ answer ∈ desk.answers, answer.Faithful

theorem Orderly.add (orderly : desk.Orderly) {holding : Holding} (kept : holding.Kept) :
    (desk.add holding).Orderly where
  held := List.forall_mem_append.mpr ⟨orderly.held, List.forall_mem_singleton.mpr kept⟩
  answers := orderly.answers

/-- **Every action keeps a desk in order.** -/
theorem Orderly.act (orderly : desk.Orderly) (allowed : action.Allowed) :
    (desk.act action).Orderly := by
  cases action with
  | build left right => exact orderly.add (Holding.kept_fresh rfl)
  | read source =>
    unfold Desk.act
    dsimp only
    split
    · rename_i equation isRead
      obtain ⟨left, right, rfl, -⟩ := Equation.exists_ofSides_of_read isRead
      exact orderly.add (Holding.kept_fresh rfl)
    · exact orderly
  | copy place =>
    unfold Desk.act
    dsimp only
    split
    · rename_i holding here
      exact orderly.add (orderly.held holding (List.mem_of_getElem? here))
    · exact orderly
  | exchange place =>
    refine ⟨fun holding member => ?_, orderly.answers⟩
    obtain ⟨other, here⟩ := List.mem_iff_getElem?.mp member
    change (desk.held.modify place Holding.reduced)[other]? = some holding at here
    rw [List.getElem?_modify, Option.map_eq_map, Option.map_eq_some_iff] at here
    obtain ⟨before, isBefore, rfl⟩ := here
    have kept := orderly.held before (List.mem_of_getElem? isBefore)
    split
    · exact kept.reduced
    · exact kept
  | perform place step =>
    unfold Desk.act
    dsimp only
    split
    · rename_i holding here
      have kept := orderly.held holding (List.mem_of_getElem? here)
      refine ⟨fun other member => ?_, ?_⟩
      · rcases List.mem_or_eq_of_mem_set member with before | rfl
        · exact orderly.held other before
        · exact kept.reduced
      · exact List.forall_mem_append.mpr ⟨orderly.answers, List.forall_mem_singleton.mpr
          ⟨kept.reply_eq step, kept.wellFormed.reply_ne_misuse allowed⟩⟩
    · exact orderly

/-- **No action changes an equation that is reduced.** -/
theorem getElem?_act {place : Nat} {holding : Holding} (here : desk.held[place]? = some holding)
    (reduced : holding.reduced = holding) (action : Action) :
    (desk.act action).held[place]? = some holding := by
  have within : place < desk.held.length := (List.getElem?_eq_some_iff.mp here).1
  have added : ∀ other : Holding, (desk.add other).held[place]? = some holding := fun other =>
    (List.getElem?_append_left within).trans here
  unfold Desk.act
  cases action with
  | build left right => exact added _
  | read source =>
    dsimp only
    split
    · exact added _
    · exact here
  | copy other =>
    dsimp only
    split
    · exact added _
    · exact here
  | exchange other =>
    dsimp only
    rw [List.getElem?_modify, here]
    split
    · exact congrArg some reduced
    · rfl
  | perform other step =>
    dsimp only
    split
    · rename_i performed isPerformed
      dsimp only
      by_cases same : other = place
      · subst same
        obtain rfl := Option.some.inj (isPerformed.symm.trans here)
        rw [List.getElem?_set_self within]
        exact congrArg some reduced
      · rw [List.getElem?_set_ne same]
        exact here
    · exact here

end Desk

/-! ## Histories -/

/-- Every history keeps the desk in order. -/
theorem orderly_deskAfter {history : List Action} (allowed : ∀ action ∈ history, action.Allowed) :
    (deskAfter history).Orderly := by
  induction history using List.reverseRecOn with
  | nil => exact ⟨List.forall_mem_nil _, List.forall_mem_nil _⟩
  | append_singleton history action ih =>
    obtain ⟨before, now⟩ := List.forall_mem_append.mp allowed
    rw [deskAfter, List.foldl_append]
    exact (ih before).act (now action List.mem_cons_self)

/-- An equation that is reduced stays through every later history. -/
theorem getElem?_deskAfter_append {history : List Action} {place : Nat} {holding : Holding}
    (here : (deskAfter history).held[place]? = some holding) (reduced : holding.reduced = holding)
    (later : List Action) : (deskAfter (history ++ later)).held[place]? = some holding := by
  induction later using List.reverseRecOn with
  | nil => rwa [List.append_nil]
  | append_singleton later action ih =>
    rw [← List.append_assoc, deskAfter, List.foldl_append]
    exact Desk.getElem?_act ih reduced action

/-- **Answers do not depend on the history.**  What is marked as reduced is in canonical
form and stays as it is, whatever is done later.  Every answer is the one that the step
gives on a fresh copy of the equation as it was made, whatever was done before. -/
theorem history_irrelevant {history : List Action} (allowed : ∀ action ∈ history, action.Allowed) :
    (∀ (place : Nat) (holding : Holding), (deskAfter history).held[place]? = some holding →
      holding.current.form = .reduced →
        holding.current.right = [] ∧
          holding.current.left.Pairwise (fun higher lower => lower.power < higher.power) ∧
          (∀ term ∈ holding.current.left, term.value.sameNumber 0 = false) ∧
          ∀ later, (deskAfter (history ++ later)).held[place]? = some holding) ∧
      ∀ answer ∈ (deskAfter history).answers, answer.reply = answer.step.reply answer.origin ∧
        ∀ misuse, answer.reply ≠ .misuse misuse := by
  have orderly := orderly_deskAfter allowed
  refine ⟨fun place holding here reduced => ?_, fun answer member => ?_⟩
  · have kept := orderly.held holding (List.mem_of_getElem? here)
    obtain ⟨none, canonical⟩ := kept.wellFormed reduced
    have unchanged : holding.reduced = holding := by
      obtain ⟨origin, left, right, form⟩ := holding
      cases reduced
      rfl
    exact ⟨none, canonical.descending, canonical.nonzero, getElem?_deskAfter_append here unchanged⟩
  · have faithful := orderly.answers answer member
    exact ⟨faithful.reply_eq, faithful.proper⟩

/-- The equation `2·x² = x + 3` is written out and copied.  The original is worked with and
copied again, and the last copy is reduced and solved; the first one is left alone. -/
def workedHistory : List Action :=
  [.build [⟨2, 2⟩] [⟨1, 1⟩, ⟨3, 0⟩], .copy 0, .perform 0 .coefficients,
    .perform 0 (.solve { places := 5 }), .copy 0, .exchange 2, .perform 2 (.solve {})]

/-- Two of the three equations are reduced in the end, and the three answers are those of
the equation as it was written. -/
theorem history_irrelevant_worked :
    (deskAfter workedHistory).held.map (fun holding => holding.current.form) =
        [.reduced, .written, .reduced] ∧
      (deskAfter workedHistory).answers.map Answer.step =
        [.coefficients, .solve { places := 5 }, .solve {}] ∧
      ∀ answer ∈ (deskAfter workedHistory).answers,
        answer.reply = answer.step.reply answer.origin := by
  have allowed : ∀ action ∈ workedHistory, action.Allowed := by
    simp [workedHistory, Action.Allowed, defaultDenominatorBound]
  have faithful := (history_irrelevant allowed).2
  exact ⟨rfl, rfl, fun answer member => (faithful answer member).1⟩

end Quadratics
