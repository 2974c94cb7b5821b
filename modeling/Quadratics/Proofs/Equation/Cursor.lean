import Quadratics.Equation.Reader
import Quadratics.Proofs.Equation.Grouping

/-!
# Byte positions in a side

A scanner that keeps its place as a number of bytes can fail in ways that one which
hands on the rest of the text cannot: a slice may begin or end in the middle of a
character, and a loop may stand still.  Here such a scanner can halt at a flaw of
the text, or at a breach of its own promises.

The place of an end of the side is the number of bytes in front of it.  Slicing at
the places of two ends gives the text between them (`slice_place`), so no slice is
off a boundary as long as every cursor is the place of some end.
-/

namespace Quadratics.Equation

set_option autoImplicit false

/-! ## Lengths in bytes -/

theorem byteLength_cons (character : Char) (text : List Char) :
    byteLength (character :: text) = character.utf8Size + byteLength text := rfl

theorem byteLength_append (front back : List Char) :
    byteLength (front ++ back) = byteLength front + byteLength back := by
  induction front with
  | nil => exact (Nat.zero_add _).symm
  | cons character front ih =>
    rw [List.cons_append, byteLength_cons, byteLength_cons, ih, Nat.add_assoc]

namespace Cursor

/-- The promises that a scanner of bytes makes. -/
inductive Breach where
  /-- A slice begins and ends at a character. -/
  | offBoundary
  /-- A loop moves on. -/
  | stuck
  /-- A scanned numeral can be read. -/
  | unreadableNumeral
  /-- A token with an exponent has one. -/
  | missingExponent
  /-- A sign that was counted is found. -/
  | missingEquals
  /-- Like terms are grouped and added. -/
  | grouping (breach : Grouping.Breach)
  deriving DecidableEq

/-- Why a scanner stops. -/
inductive Halt where
  /-- A promise is broken. -/
  | breach (breach : Breach)
  /-- The side is refused. -/
  | refused (reason : Reason)
  deriving DecidableEq

/-! ## Slices -/

/-- The text from a byte on. -/
def textFrom (cursor : Nat) (text : List Char) : Except Halt (List Char) :=
  match cursor, text with
  | 0, text => .ok text
  | _ + 1, [] => .error (.breach .offBoundary)
  | cursor + 1, character :: text =>
      if character.utf8Size ≤ cursor + 1 then textFrom (cursor + 1 - character.utf8Size) text
      else .error (.breach .offBoundary)

/-- The text before a byte. -/
def textBefore (cursor : Nat) (text : List Char) : Except Halt (List Char) :=
  match cursor, text with
  | 0, _ => .ok []
  | _ + 1, [] => .error (.breach .offBoundary)
  | cursor + 1, character :: text =>
      if character.utf8Size ≤ cursor + 1 then
        (textBefore (cursor + 1 - character.utf8Size) text).map (character :: ·)
      else .error (.breach .offBoundary)

/-- The text from one byte to another. -/
def slice (side : List Char) (start stop : Nat) : Except Halt (List Char) :=
  if start ≤ stop then (textFrom start side).bind (textBefore (stop - start))
  else .error (.breach .offBoundary)

/-- Going past a character and some more bytes goes on in the text behind it. -/
theorem exists_bytes (character : Char) (count : Nat) :
    ∃ bytes, character.utf8Size + count = bytes + 1 ∧ character.utf8Size ≤ bytes + 1 ∧
      bytes + 1 - character.utf8Size = count := by
  have positive := character.utf8Size_pos
  exact ⟨character.utf8Size - 1 + count, by omega, by omega, by omega⟩

theorem textFrom_append (front back : List Char) :
    textFrom (byteLength front) (front ++ back) = .ok back := by
  induction front with
  | nil => cases back <;> rfl
  | cons character front ih =>
    obtain ⟨bytes, sum, fits, behind⟩ := exists_bytes character (byteLength front)
    rw [byteLength_cons, List.cons_append, sum, textFrom, if_pos fits, behind]
    exact ih

theorem textBefore_append (front back : List Char) :
    textBefore (byteLength front) (front ++ back) = .ok front := by
  induction front with
  | nil => cases back <;> rfl
  | cons character front ih =>
    obtain ⟨bytes, sum, fits, behind⟩ := exists_bytes character (byteLength front)
    rw [byteLength_cons, List.cons_append, sum, textBefore, if_pos fits, behind, ih]
    rfl

/-! ## Places -/

/-- The number of bytes in front of an end of a side. -/
def place (side text : List Char) : Nat :=
  byteLength side - byteLength text

theorem place_append (front text : List Char) : place (front ++ text) text = byteLength front := by
  rw [place, byteLength_append, Nat.add_sub_cancel]

theorem place_self (side : List Char) : place side side = 0 :=
  Nat.sub_self _

section Suffix

variable {side text : List Char}

theorem suffix_of_append {front back : List Char} (suffix : front ++ back <:+ side) :
    back <:+ side :=
  (List.suffix_append front back).trans suffix

theorem suffix_of_cons {character : Char} (suffix : character :: text <:+ side) : text <:+ side :=
  (List.suffix_cons character text).trans suffix

/-- Going past some text moves the place on by its length. -/
theorem place_of_append {front back : List Char} (suffix : front ++ back <:+ side) :
    place side back = place side (front ++ back) + byteLength front := by
  obtain ⟨before, rfl⟩ := suffix
  rw [place_append, ← List.append_assoc, place_append, byteLength_append]

theorem place_le (side text : List Char) : place side text ≤ byteLength side :=
  Nat.sub_le _ _

theorem textFrom_place (suffix : text <:+ side) : textFrom (place side text) side = .ok text := by
  obtain ⟨before, rfl⟩ := suffix
  rw [place_append, textFrom_append]

/-- **A slice between the places of two ends is the text between them.** -/
theorem slice_place {front back : List Char} (suffix : front ++ back <:+ side) :
    slice side (place side (front ++ back)) (place side back) = .ok front := by
  rw [slice, place_of_append suffix, if_pos (Nat.le_add_right _ _), Nat.add_sub_cancel_left,
    textFrom_place suffix]
  exact textBefore_append front back

/-! ## Looking ahead and moving on -/

/-- The character at a cursor. -/
def peek (side : List Char) (cursor : Nat) : Except Halt (Option Char) :=
  (textFrom cursor side).map fun text => text[0]?

/-- The character after the one at a cursor. -/
def peekSecond (side : List Char) (cursor : Nat) : Except Halt (Option Char) :=
  (textFrom cursor side).map fun text => text[1]?

/-- The cursor behind the character it stands at. -/
def advance (side : List Char) (cursor : Nat) : Except Halt Nat := do
  match ← peek side cursor with
  | some character => return cursor + character.utf8Size
  | none => return cursor

/-- The cursor behind the characters to be kept. -/
def skipWhile (keep : Char → Bool) (side : List Char) (cursor : Nat) : Except Halt Nat :=
  match peek side cursor with
  | .error halt => .error halt
  | .ok none => .ok cursor
  | .ok (some character) =>
      if !keep character then .ok cursor
      else if cursor + character.utf8Size ≤ byteLength side then
        skipWhile keep side (cursor + character.utf8Size)
      else .error (.breach .stuck)
termination_by byteLength side - cursor
decreasing_by
  have := character.utf8Size_pos
  omega

/-- The characters to be kept, if there are any, and the cursor behind them. -/
def takeWhile (keep : Char → Bool) (side : List Char) (cursor : Nat) :
    Except Halt (Option (List Char) × Nat) := do
  let stop ← skipWhile keep side cursor
  if cursor = stop then return (none, stop)
  else return (some (← slice side cursor stop), stop)

theorem peek_place (suffix : text <:+ side) : peek side (place side text) = .ok text[0]? := by
  rw [peek, textFrom_place suffix]
  rfl

theorem peekSecond_place (suffix : text <:+ side) :
    peekSecond side (place side text) = .ok text[1]? := by
  rw [peekSecond, textFrom_place suffix]
  rfl

theorem place_of_cons {character : Char} (suffix : character :: text <:+ side) :
    place side text = place side (character :: text) + character.utf8Size :=
  @place_of_append side [character] text suffix

theorem advance_place {character : Char} (suffix : character :: text <:+ side) :
    advance side (place side (character :: text)) = .ok (place side text) := by
  rw [advance, peek_place suffix, place_of_cons suffix]
  rfl

/-- **A loop over characters ends where the text stops having them.** -/
theorem skipWhile_place (keep : Char → Bool) (suffix : text <:+ side) :
    skipWhile keep side (place side text) = .ok (place side (text.dropWhile keep)) := by
  induction text with
  | nil =>
    rw [skipWhile, peek_place suffix]
    rfl
  | cons character text ih =>
    rw [skipWhile, peek_place suffix]
    simp only [List.getElem?_cons_zero]
    by_cases kept : keep character = true
    · have inside := place_le side text
      rw [place_of_cons suffix] at inside
      rw [List.dropWhile_cons_of_pos kept, ← ih (suffix_of_cons suffix), place_of_cons suffix]
      simp only [kept, Bool.not_true, Bool.false_eq_true, if_false, inside, if_true]
    · rw [List.dropWhile_cons_of_neg kept]
      simp only [kept, Bool.not_false, if_true]

theorem byteLength_pos {character : Char} {front : List Char} :
    0 < byteLength (character :: front) := by
  have positive := character.utf8Size_pos
  rw [byteLength_cons]
  omega

/-- A shorter end stands at a later place. -/
theorem place_lt {rest : List Char} (suffix : text <:+ side) (inner : rest <:+ text)
    (shorter : rest.length < text.length) : place side text < place side rest := by
  obtain ⟨front, rfl⟩ := inner
  cases front with
  | nil => exact absurd shorter (Nat.lt_irrefl _)
  | cons character front =>
    rw [place_of_append suffix]
    exact Nat.lt_add_of_pos_right byteLength_pos

theorem takeWhile_place (keep : Char → Bool) (suffix : text <:+ side) :
    takeWhile keep side (place side text) =
      .ok (if text.takeWhile keep = [] then none else some (text.takeWhile keep),
        place side (text.dropWhile keep)) := by
  have apart := @List.takeWhile_append_dropWhile _ keep text
  rw [takeWhile, skipWhile_place keep suffix]
  show (if _ then _ else _) = _
  generalize text.takeWhile keep = front at apart ⊢
  generalize text.dropWhile keep = back at apart ⊢
  subst apart
  cases front with
  | nil =>
    rw [List.nil_append, if_pos rfl, if_pos rfl]
    rfl
  | cons character front =>
    have moved := place_of_append suffix
    have positive := @byteLength_pos character front
    rw [if_neg (by omega), if_neg (List.cons_ne_nil _ _), slice_place suffix]
    rfl

end Suffix

end Cursor

end Quadratics.Equation
