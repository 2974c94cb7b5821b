import Quadratics.Equation.Trace
import Quadratics.Proofs.Equation.Cursor
import Quadratics.Proofs.Equation.Scanning

/-!
# The spans of tokens

Each token takes up a slice of its side, and the trace of a reading shows that slice.  What a
scanner takes off the front of a text does not depend on what follows (`Local`), so the slice
of a token, scanned by itself, is that token again (`Token.SelfContained`).

The slices come one after the other, with nothing but blanks around them (`Covered`).  In
bytes, the spans of the tokens of a side that was read are in order and disjoint, and every
byte outside of them belongs to a blank (`readSide_spans`).
-/

namespace Quadratics.Equation

set_option autoImplicit false

open Text (isBlank skipBlanks)

/-! ## What is taken off a text -/

/-- What a scanner takes off a text is found in the same way if nothing follows. -/
def Local {Found : Type} (scanner : List Char → Except Fault (Found × List Char)) : Prop :=
  ∀ {text rest : List Char} {found : Found}, scanner text = .ok (found, rest) →
    ∃ taken, text = taken ++ rest ∧ scanner taken = .ok (found, [])

theorem endsNumber_nil : EndsNumber [] :=
  fun _ head => by cases head

theorem skipBlanks_of_blanks {gap : List Char} (isGap : Blanks gap) : skipBlanks gap = [] :=
  skipBlanks_eq_nil_iff.mpr isGap

/-- A text that begins with no blank does so without its end, too. -/
theorem skipBlanks_front {taken rest : List Char}
    (visible : skipBlanks (taken ++ rest) = taken ++ rest) : skipBlanks taken = taken := by
  cases taken with
  | nil => rfl
  | cons first others => exact skipBlanks_cons (visible_of_skipBlanks visible) others

theorem local_scanPower : Local scanPower := by
  intro text rest power scanned
  obtain ⟨digits, text_eq, isExponent, small, rfl⟩ := digits_of_scanPower scanned
  refine ⟨digits, text_eq, ?_⟩
  have alone := scanPower_append isExponent small endsNumber_nil
  rwa [List.append_nil] at alone

theorem local_scanExponent : Local scanExponent := by
  intro text rest power scanned
  obtain ⟨before, blanksBefore, text_eq⟩ := exists_gap text
  unfold scanExponent at scanned
  split at scanned
  · rename_i after found
    obtain ⟨between, blanksAfter, after_eq⟩ := exists_gap after
    cases powerScanned : scanPower (skipBlanks after) with
    | error fault => rw [powerScanned] at scanned; cases scanned
    | ok result =>
      rw [powerScanned] at scanned
      cases scanned
      obtain ⟨digits, skipped, alone⟩ := local_scanPower powerScanned
      have visible : skipBlanks digits = digits := by
        have whole := skipBlanks_skipBlanks after
        rw [skipped] at whole
        exact skipBlanks_front whole
      refine ⟨before ++ '^' :: (between ++ digits), ?_, ?_⟩
      · rw [text_eq, found, after_eq, skipped]
        simp
      · have caret : isBlank '^' = false := by decide
        simp only [scanExponent, skipBlanks_append blanksBefore, skipBlanks_cons caret,
          skipBlanks_append blanksAfter, visible, alone]
        rfl
  · cases scanned
    refine ⟨before, text_eq, ?_⟩
    simp only [scanExponent, skipBlanks_of_blanks blanksBefore]

/-- What is taken behind a number leaves the number as it is. -/
theorem local_scanMultiple {numeral : Numeral} {text rest : List Char} {body : Body}
    (scanned : scanMultiple numeral text = .ok (body, rest)) :
    ∃ taken, text = taken ++ rest ∧ scanMultiple numeral taken = .ok (body, []) ∧
      EndsNumber taken := by
  obtain ⟨before, blanksBefore, text_eq⟩ := exists_gap text
  unfold scanMultiple at scanned
  split at scanned
  · rename_i after found
    obtain ⟨between, blanksAfter, after_eq⟩ := exists_gap after
    cases variableScanned : scanVariable (skipBlanks after) with
    | error fault => rw [variableScanned] at scanned; cases scanned
    | ok behind =>
      obtain ⟨unknown, unknown_eq, isUnknown⟩ := exists_of_scanVariable variableScanned
      cases exponentScanned : scanExponent behind with
      | error fault =>
        simp only [variableScanned, exponentScanned] at scanned
        cases scanned
      | ok result =>
        simp only [variableScanned, exponentScanned] at scanned
        cases scanned
        obtain ⟨power, behind_eq, alone⟩ := local_scanExponent exponentScanned
        have star : isBlank '*' = false := by decide
        have visible : isBlank unknown = false := by
          rcases isVariable_cases isUnknown with rfl | rfl <;> decide
        refine ⟨before ++ '*' :: (between ++ unknown :: power), ?_, ?_, ?_⟩
        · rw [text_eq, found, after_eq, unknown_eq, behind_eq]
          simp
        · simp only [scanMultiple, skipBlanks_append blanksBefore, skipBlanks_cons star,
            skipBlanks_append blanksAfter, skipBlanks_cons visible, scanVariable, isUnknown,
            if_true, alone]
          rfl
        · apply endsNumber_of_skipBlanks
          rw [skipBlanks_append blanksBefore, skipBlanks_cons star]
          intro character head
          cases head
          decide
  · cases scanned
    refine ⟨before, text_eq, ?_, ?_⟩
    · simp only [scanMultiple, skipBlanks_of_blanks blanksBefore]
    · apply endsNumber_of_skipBlanks
      rw [skipBlanks_of_blanks blanksBefore]
      exact endsNumber_nil

theorem local_scanBody : Local scanBody := by
  intro text rest body scanned
  unfold scanBody at scanned
  split at scanned
  · cases scanned
  · rename_i first behind
    split at scanned
    · rename_i digit
      have starts : startsWithDigit (first :: behind) = true := digit
      cases numeralScanned : scanNumeral (first :: behind) with
      | error fault => rw [numeralScanned] at scanned; cases scanned
      | ok result =>
        rw [numeralScanned] at scanned
        obtain ⟨number, text_eq, isNumber, finite⟩ :=
          spellsNumber_of_scanNumeral starts numeralScanned
        obtain ⟨taken, behind_eq, alone, ends⟩ := local_scanMultiple scanned
        obtain ⟨digit', others, rfl, isDigit⟩ := isNumber.exists_digit
        have numeralAlone := scanNumeral_append isNumber finite ends
        refine ⟨digit' :: others ++ taken, ?_, ?_⟩
        · rw [text_eq, behind_eq, List.append_assoc]
        · rw [List.cons_append] at numeralAlone ⊢
          simp only [scanBody, isDigit, if_true, numeralAlone, alone]
    · rename_i noDigit
      split at scanned
      · rename_i isUnknown
        cases exponentScanned : scanExponent behind with
        | error fault => rw [exponentScanned] at scanned; cases scanned
        | ok result =>
          rw [exponentScanned] at scanned
          cases scanned
          obtain ⟨taken, text_eq, alone⟩ := local_scanExponent exponentScanned
          refine ⟨first :: taken, congrArg _ text_eq, ?_⟩
          simp only [scanBody, noDigit, isUnknown, if_true, alone]
          rfl
      · cases scanned

/-! ## Tokens by themselves -/

/-- A token is found again in its own slice, which begins with no blank. -/
structure Token.SelfContained (token : Token) : Prop where
  /-- The slice begins with a character that is no blank. -/
  visible : ∃ first behind, token.text = first :: behind ∧ isBlank first = false
  /-- The slice, scanned by itself, is this token. -/
  alone : scan true token.text = ⟨[token], none⟩

/-- The sign of a term is found again if the term is cut off behind its body. -/
theorem scanSign_front {isFirst negative : Bool} {text unsigned taken rest : List Char}
    (scanned : scanSign isFirst text = .ok (negative, unsigned)) (cut : unsigned = taken ++ rest)
    (nonempty : taken ≠ []) :
    ∃ front, text = front ++ rest ∧ scanSign true front = .ok (negative, taken) := by
  have signed : ∀ after : List Char, skipBlanks after = taken ++ rest →
      ∃ gap, after = gap ++ (taken ++ rest) ∧ skipBlanks (gap ++ taken) = taken := by
    intro after skipped
    obtain ⟨gap, isGap, after_eq⟩ := exists_gap after
    have whole := skipBlanks_skipBlanks after
    rw [skipped] at whole
    refine ⟨gap, skipped ▸ after_eq, ?_⟩
    rw [skipBlanks_append isGap]
    exact skipBlanks_front whole
  unfold scanSign at scanned
  split at scanned
  · rename_i after
    cases scanned
    obtain ⟨gap, after_eq, visible⟩ := signed after cut
    refine ⟨'+' :: (gap ++ taken), ?_, ?_⟩
    · rw [after_eq]
      simp
    · rw [scanSign_cons, if_pos rfl, visible]
  · rename_i after
    cases scanned
    obtain ⟨gap, after_eq, visible⟩ := signed after cut
    refine ⟨'-' :: (gap ++ taken), ?_, ?_⟩
    · rw [after_eq]
      simp
    · rw [scanSign_cons, if_neg (by decide), if_pos rfl, visible]
  · rename_i notPlus notMinus
    split at scanned
    · cases scanned
      obtain ⟨first, others, rfl⟩ := List.exists_cons_of_ne_nil nonempty
      refine ⟨first :: others, cut, ?_⟩
      rw [scanSign_cons, if_neg, if_neg, if_pos rfl]
      · rintro rfl
        exact notMinus _ cut
      · rintro rfl
        exact notPlus _ cut
    · cases scanned

/-- **A term is its slice, and is scanned again from it.** -/
theorem scanTerm_alone {isFirst : Bool} {text rest : List Char} {token : Token}
    (scanned : scanTerm isFirst text = .ok (token, rest)) :
    text = token.text ++ rest ∧ scanTerm true token.text = .ok (token, []) := by
  cases signScanned : scanSign isFirst text with
  | error fault => rw [scanTerm, signScanned] at scanned; cases scanned
  | ok signResult =>
    obtain ⟨negative, unsigned⟩ := signResult
    cases bodyScanned : scanBody unsigned with
    | error fault =>
      simp only [scanTerm, signScanned, bodyScanned] at scanned
      cases scanned
    | ok bodyResult =>
      obtain ⟨body, left⟩ := bodyResult
      simp only [scanTerm, signScanned, bodyScanned] at scanned
      cases scanned
      obtain ⟨taken, unsigned_eq, bodyAlone⟩ := local_scanBody bodyScanned
      have nonempty : taken ≠ [] := by
        rintro rfl
        cases bodyAlone
      obtain ⟨front, rfl, signAlone⟩ := scanSign_front signScanned unsigned_eq nonempty
      have slice : (front ++ left).take ((front ++ left).length - left.length) = front := by
        rw [List.length_append, Nat.add_sub_cancel, List.take_left]
      rw [slice]
      refine ⟨rfl, ?_⟩
      rw [scanTerm, signAlone]
      dsimp only
      rw [bodyAlone]
      simp [Except.map]

theorem selfContained_of_scanTerm {isFirst : Bool} {text rest : List Char} {token : Token}
    (visible : skipBlanks text = text) (scanned : scanTerm isFirst text = .ok (token, rest)) :
    token.SelfContained := by
  obtain ⟨text_eq, alone⟩ := scanTerm_alone scanned
  have starts : skipBlanks token.text = token.text := skipBlanks_front (text_eq ▸ visible)
  have nonempty : token.text ≠ [] := by
    intro empty
    rw [empty] at alone
    cases alone
  have begins : skipBlanks token.text ≠ [] := starts.symm ▸ nonempty
  constructor
  · obtain ⟨first, behind, same⟩ := List.exists_cons_of_ne_nil nonempty
    rw [same] at starts
    exact ⟨first, behind, same, visible_of_skipBlanks starts⟩
  · rw [← starts] at alone
    rw [scan_of_scanTerm begins alone, scan_of_blanks false rfl]

/-! ## Texts covered by tokens -/

/-- A text is a row of slices of tokens with blanks around them. -/
inductive Covered : List Char → List Token → Prop where
  | done {gap : List Char} (isGap : Blanks gap) : Covered gap []
  | more {gap rest : List Char} {token : Token} {tokens : List Token} (isGap : Blanks gap)
      (selfContained : token.SelfContained) (later : Covered rest tokens) :
      Covered (gap ++ (token.text ++ rest)) (token :: tokens)

/-- **A text that is scanned without a fault is covered by its tokens.** -/
theorem covered_of_scan {isFirst : Bool} (text : List Char)
    (noFault : (scan isFirst text).fault = none) : Covered text (scan isFirst text).tokens := by
  -- Every term takes characters off the text, so the induction is on its length.
  induction length : text.length using Nat.strong_induction_on generalizing text isFirst with
  | _ size ih =>
    subst length
    by_cases none : skipBlanks text = []
    · rw [scan_of_blanks isFirst none]
      exact .done (skipBlanks_eq_nil_iff.mp none)
    · cases scanned : scanTerm isFirst (skipBlanks text) with
      | error fault =>
        rw [scan_of_fault none scanned] at noFault
        cases noFault
      | ok result =>
        obtain ⟨token, rest⟩ := result
        rw [scan_of_scanTerm none scanned] at noFault ⊢
        have shorter : rest.length < text.length :=
          (length_of_scanTerm scanned).trans_le (Text.length_skipBlanks_le text)
        have selfContained := selfContained_of_scanTerm (skipBlanks_skipBlanks text) scanned
        obtain ⟨gap, isGap, text_eq⟩ := exists_gap text
        rw [(scanTerm_alone scanned).1] at text_eq
        have covered := Covered.more isGap selfContained (ih _ shorter rest noFault rfl)
        rwa [← text_eq] at covered

theorem Covered.selfContained {text : List Char} {tokens : List Token}
    (covered : Covered text tokens) : ∀ token ∈ tokens, token.SelfContained := by
  induction covered with
  | done => exact fun _ member => absurd member List.not_mem_nil
  | more _ selfContained _ ih => exact List.forall_mem_cons.mpr ⟨selfContained, ih⟩

/-! ## Spans in bytes -/

/-- A span, from its first byte to the one behind its last. -/
abbrev Span : Type :=
  Nat × Nat

/-- Is a byte in a span? -/
def Span.Holds (span : Span) (byte : Nat) : Prop :=
  span.1 ≤ byte ∧ byte < span.2

/-- A character of a side takes up a byte. -/
def IsAt (side : List Char) (character : Char) (byte : Nat) : Prop :=
  ∃ before after, side = before ++ character :: after ∧ byteLength before ≤ byte ∧
    byte < byteLength before + character.utf8Size

/-- The spans of some tokens on a side, from a byte on. -/
structure Spanned (side : List Char) (start : Nat) (spans : List Span) (tokens : List Token) :
    Prop where
  /-- There is one span for each token, and the token is the slice of it. -/
  sliced : List.Forall₂ (fun span token => Cursor.slice side span.1 span.2 = .ok token.text)
    spans tokens
  /-- The spans are in order, and disjoint. -/
  ordered : spans.Pairwise fun first second => first.2 ≤ second.1
  /-- No span is empty, and none leaves the side. -/
  inside : ∀ span ∈ spans, start ≤ span.1 ∧ span.1 < span.2 ∧ span.2 ≤ byteLength side
  /-- What is in no span is a blank. -/
  blank : ∀ {character : Char} {byte : Nat}, IsAt side character byte → start ≤ byte →
    (∀ span ∈ spans, ¬ span.Holds byte) → isBlank character = true

/-- A byte is one of a first character, or one behind it. -/
theorem isAt_cons {first character : Char} {text : List Char} {byte : Nat} :
    IsAt (first :: text) character byte ↔
      (byte < first.utf8Size ∧ character = first) ∨
        (first.utf8Size ≤ byte ∧ IsAt text character (byte - first.utf8Size)) := by
  constructor
  · rintro ⟨before, after, split, begins, ends⟩
    cases before with
    | nil =>
      cases split
      rw [byteLength, List.foldr_nil, Nat.zero_add] at ends
      exact .inl ⟨ends, rfl⟩
    | cons head before =>
      cases split
      rw [byteLength_cons] at begins ends
      exact .inr ⟨by omega, before, after, rfl, by omega, by omega⟩
  · rintro (⟨ends, rfl⟩ | ⟨large, before, after, rfl, begins, ends⟩)
    · exact ⟨[], text, rfl, Nat.zero_le _, by rwa [byteLength, List.foldr_nil, Nat.zero_add]⟩
    · refine ⟨first :: before, after, rfl, ?_, ?_⟩ <;> rw [byteLength_cons] <;> omega

theorem mem_of_isAt_front {part rest : List Char} {character : Char} {byte : Nat}
    (isAt : IsAt (part ++ rest) character byte) (within : byte < byteLength part) :
    character ∈ part := by
  induction part generalizing byte with
  | nil => exact absurd within (Nat.not_lt_zero _)
  | cons first part ih =>
    rw [List.cons_append, isAt_cons] at isAt
    rw [byteLength_cons] at within
    rcases isAt with ⟨-, rfl⟩ | ⟨large, isAt⟩
    · exact List.mem_cons_self
    · exact List.mem_cons_of_mem _ (ih isAt (by omega))

/-- The character at a byte of some part of a side belongs to that part. -/
theorem mem_of_isAt {front part rest : List Char} {character : Char} {byte : Nat}
    (isAt : IsAt (front ++ (part ++ rest)) character byte) (behind : byteLength front ≤ byte)
    (within : byte < byteLength (front ++ part)) : character ∈ part := by
  induction front generalizing byte with
  | nil => exact mem_of_isAt_front isAt within
  | cons first front ih =>
    rw [List.cons_append, isAt_cons] at isAt
    rw [List.cons_append, byteLength_cons] at within
    rw [byteLength_cons] at behind
    rcases isAt with ⟨small, -⟩ | ⟨large, isAt⟩
    · omega
    · exact ih isAt (by omega) (by omega)

theorem IsAt.lt {side : List Char} {character : Char} {byte : Nat}
    (isAt : IsAt side character byte) : byte < byteLength side := by
  obtain ⟨before, after, rfl, -, ends⟩ := isAt
  rw [byteLength_append, byteLength_cons]
  omega

theorem byteLength_pos_of_visible {token : Token} (selfContained : token.SelfContained) :
    0 < byteLength token.text := by
  obtain ⟨first, behind, same, -⟩ := selfContained.visible
  rw [same]
  exact Cursor.byteLength_pos

/-- **One token more has one span more.** -/
theorem Spanned.cons {front gap rest : List Char} {token : Token} {spans : List Span}
    {tokens : List Token} (isGap : Blanks gap) (selfContained : token.SelfContained)
    (spanned : Spanned (front ++ gap ++ token.text ++ rest)
      (byteLength (front ++ gap ++ token.text)) spans tokens) :
    Spanned (front ++ gap ++ token.text ++ rest) (byteLength front)
      ((byteLength (front ++ gap), byteLength (front ++ gap ++ token.text)) :: spans)
      (token :: tokens) := by
  have positive := byteLength_pos_of_visible selfContained
  have gapLength := byteLength_append front gap
  have tokenLength := byteLength_append (front ++ gap) token.text
  have restLength := byteLength_append (front ++ gap ++ token.text) rest
  constructor
  · refine .cons ?_ spanned.sliced
    have slice := @Cursor.slice_place (front ++ gap ++ token.text ++ rest) token.text rest
      ⟨front ++ gap, by simp⟩
    rw [Cursor.place_append] at slice
    rwa [List.append_assoc _ token.text, Cursor.place_append, ← List.append_assoc] at slice
  · exact List.pairwise_cons.mpr
      ⟨fun span member => (spanned.inside span member).1, spanned.ordered⟩
  · refine List.forall_mem_cons.mpr ⟨⟨?_, ?_, ?_⟩, ?_⟩
    · dsimp only
      omega
    · dsimp only
      omega
    · dsimp only
      omega
    · intro span member
      obtain ⟨begins, nonempty, ends⟩ := spanned.inside span member
      exact ⟨by omega, nonempty, ends⟩
  · intro character byte isAt behind outside
    rw [List.forall_mem_cons] at outside
    by_cases inGap : byte < byteLength (front ++ gap)
    · rw [List.append_assoc, List.append_assoc] at isAt
      exact isGap character (mem_of_isAt isAt behind inGap)
    · refine spanned.blank isAt ?_ outside.2
      by_contra inToken
      exact outside.1 ⟨Nat.not_lt.mp inGap, Nat.not_le.mp inToken⟩

/-- The spans of a covered text that stands at the end of a side. -/
theorem Covered.exists_spans {text : List Char} {tokens : List Token}
    (covered : Covered text tokens) (front : List Char) :
    ∃ spans, Spanned (front ++ text) (byteLength front) spans tokens := by
  induction covered generalizing front with
  | @done gap isGap =>
    refine ⟨[], .nil, .nil, fun _ member => absurd member List.not_mem_nil, ?_⟩
    intro character byte isAt behind _
    have within := isAt.lt
    rw [← List.append_nil gap] at isAt
    exact isGap character (mem_of_isAt isAt behind within)
  | @more gap rest token tokens isGap selfContained _ ih =>
    obtain ⟨spans, spanned⟩ := ih (front ++ gap ++ token.text)
    have more := spanned.cons isGap selfContained
    simp only [List.append_assoc] at more
    exact ⟨_, more⟩

/-! ## Sides that were read -/

/-- **Tokens cover the side that they are read from.**  Their spans are in order, disjoint and
not empty, and what is outside of them is blank.  Each token is the slice that its span gives,
and that slice by itself is scanned as the same token. -/
theorem readSide_spans {side : List Char} {terms : List Term}
    (accepted : readSide side = .ok terms) :
    ∃ tokens spans, sideEvents side = tokens.map .scanned ∧ terms = tokens.map Token.term ∧
      Spanned side 0 spans tokens ∧ ∀ token ∈ tokens, token.SelfContained := by
  unfold readSide at accepted
  split at accepted
  · cases accepted
  · dsimp only at accepted
    split at accepted
    · cases accepted
    · rename_i noFault
      cases accepted
      have covered := covered_of_scan side noFault
      obtain ⟨spans, spanned⟩ := covered.exists_spans []
      exact ⟨_, spans, rfl, rfl, spanned, covered.selfContained⟩

/-- The side ` 2 * x - 1` has two tokens, and two spans. -/
theorem readSide_spans_two :
    readSide " 2 * x - 1".toList = .ok [⟨2, 1⟩, ⟨-1, 0⟩] ∧
      ∃ tokens spans, sideEvents " 2 * x - 1".toList = tokens.map .scanned ∧
        Spanned " 2 * x - 1".toList 0 spans tokens ∧ spans.length = 2 := by
  have accepted : readSide " 2 * x - 1".toList = .ok [⟨2, 1⟩, ⟨-1, 0⟩] := by
    decide +kernel
  obtain ⟨tokens, spans, events, terms, spanned, -⟩ := readSide_spans accepted
  refine ⟨accepted, tokens, spans, events, spanned, ?_⟩
  have count : (tokens.map Token.term).length = 2 := by rw [← terms]; rfl
  rw [spanned.sliced.length_eq, ← count, List.length_map]

end Quadratics.Equation
