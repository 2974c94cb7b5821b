import Mathlib.Logic.Relation
import Quadratics.Proofs.Equation.Reading

/-!
# Blanks and case do not matter

A side is a row of lexemes: signs, numbers, multiplication and power signs, unknowns and
exponents.  Blanks may stand anywhere around them, and the unknown may have either case
(`Laid`).  The sentences of the grammar are the texts in which the lexemes of some phrases are
laid out so (`spellsSide_iff`).

An edit puts in a blank, takes one out or changes the case of an unknown.  No lexeme has a
blank in it, and within one there are only figures next to each other, where no blank may be put
in.  So an edit leaves the lexemes as they are (`Edit.laid`), and any number of edits leaves a
side or an equation that was read with the same reading (`read_edited`).
-/

namespace Quadratics.Equation

set_option autoImplicit false

open Text (isBlank)

/-! ## Edits -/

/-- The characters in which numbers are written. -/
def isFigure (character : Char) : Bool :=
  character.isDigit || character == '.'

/-- One change of a text that leaves its lexemes as they are. -/
inductive Edit : List Char → List Char → Prop where
  /-- A blank is taken out. -/
  | erase (front back : List Char) {blank : Char} (blanks : isBlank blank = true) :
      Edit (front ++ blank :: back) (front ++ back)
  /-- A blank is put in, but not between two figures. -/
  | insert (front back : List Char) {blank : Char} (blanks : isBlank blank = true)
      (apart : ∀ last ∈ front.getLast?, ∀ next ∈ back.head?,
        ¬ (isFigure last = true ∧ isFigure next = true)) :
      Edit (front ++ back) (front ++ blank :: back)
  /-- An unknown is written in either case. -/
  | recase (front back : List Char) {unknown other : Char} (isUnknown : isVariable unknown = true)
      (isOther : isVariable other = true) :
      Edit (front ++ unknown :: back) (front ++ other :: back)

/-! ## Lexemes -/

/-- What a side is a row of. -/
inductive Lexeme where
  | sign (negative : Bool)
  | number (numeral : Numeral)
  | times
  | unknown
  | raised
  | exponent (digits : List Char)

/-- How a lexeme is written. -/
def Lexeme.Writes : Lexeme → List Char → Prop
  | .sign negative, word => word = [if negative then '-' else '+']
  | .number numeral, word => SpellsNumber word numeral
  | .times, word => word = ['*']
  | .unknown, word => ∃ character, isVariable character = true ∧ word = [character]
  | .raised, word => word = ['^']
  | .exponent digits, word => Digits digits ∧ word = digits

theorem Digits.figures {digits : List Char} (isDigits : Digits digits) :
    ∀ character ∈ digits, isFigure character = true := by
  intro character member
  rw [isFigure, isDigits.2 character member, Bool.true_or]

theorem SpellsNumber.figures {word : List Char} {numeral : Numeral}
    (isNumber : SpellsNumber word numeral) : ∀ character ∈ word, isFigure character = true := by
  cases isNumber with
  | whole isWhole => exact isWhole.figures
  | pointed isWhole isFraction =>
    intro character member
    rcases List.mem_append.mp member with whole | pointed
    · exact isWhole.figures character whole
    · rcases List.mem_cons.mp pointed with rfl | fraction
      · decide
      · exact isFraction.figures character fraction

theorem isBlank_of_isFigure {character : Char} (figure : isFigure character = true) :
    isBlank character = false := by
  rcases Bool.or_eq_true_iff.mp figure with digit | point
  · exact isBlank_of_isDigit digit
  · rw [beq_iff_eq.mp point]
    decide

theorem isBlank_of_isVariable {character : Char} (isUnknown : isVariable character = true) :
    isBlank character = false := by
  rcases isVariable_cases isUnknown with rfl | rfl <;> decide

theorem isVariable_of_isFigure {character : Char} (figure : isFigure character = true) :
    isVariable character = false := by
  by_contra isUnknown
  rcases isVariable_cases (Bool.not_eq_false _ ▸ isUnknown) with rfl | rfl <;> cases figure

namespace Lexeme.Writes

variable {lexeme : Lexeme} {word : List Char} {character : Char}

theorem ne_nil (writes : lexeme.Writes word) : word ≠ [] := by
  cases lexeme with
  | number numeral =>
    obtain ⟨first, behind, rfl, -⟩ := SpellsNumber.exists_digit writes
    exact List.cons_ne_nil _ _
  | exponent digits =>
    obtain ⟨isExponent, rfl⟩ := writes
    exact isExponent.1
  | unknown =>
    obtain ⟨character, -, rfl⟩ := writes
    exact List.cons_ne_nil _ _
  | sign negative | times | raised =>
    obtain rfl := writes
    exact List.cons_ne_nil _ _

/-- A lexeme is a single character or is written in figures. -/
theorem solid (writes : lexeme.Writes word) :
    (∃ character, word = [character] ∧ isBlank character = false) ∨
      ∀ character ∈ word, isFigure character = true := by
  cases lexeme with
  | number numeral => exact .inr (SpellsNumber.figures writes)
  | exponent digits =>
    obtain ⟨isExponent, rfl⟩ := writes
    exact .inr isExponent.figures
  | unknown =>
    obtain ⟨character, isUnknown, rfl⟩ := writes
    exact .inl ⟨character, rfl, isBlank_of_isVariable isUnknown⟩
  | sign negative =>
    obtain rfl := writes
    exact .inl ⟨_, rfl, by cases negative <;> decide⟩
  | times | raised =>
    obtain rfl := writes
    exact .inl ⟨_, rfl, by decide⟩

/-- No lexeme has a blank in it. -/
theorem visible (writes : lexeme.Writes word) (member : character ∈ word) :
    isBlank character = false := by
  rcases writes.solid with ⟨only, rfl, visible⟩ | figures
  · rwa [List.mem_singleton.mp member]
  · exact isBlank_of_isFigure (figures character member)

/-- The unknown is a lexeme by itself. -/
theorem eq_unknown (writes : lexeme.Writes word) (member : character ∈ word)
    (isUnknown : isVariable character = true) : lexeme = .unknown ∧ word = [character] := by
  have notFigures : ¬ ∀ character ∈ word, isFigure character = true := by
    intro figures
    rw [isVariable_of_isFigure (figures character member)] at isUnknown
    cases isUnknown
  cases lexeme with
  | unknown =>
    obtain ⟨only, -, rfl⟩ := writes
    rw [List.mem_singleton.mp member]
    exact ⟨rfl, rfl⟩
  | number numeral => exact absurd (SpellsNumber.figures writes) notFigures
  | exponent digits =>
    obtain ⟨isExponent, rfl⟩ := writes
    exact absurd isExponent.figures notFigures
  | sign negative =>
    obtain rfl := writes
    rw [List.mem_singleton.mp member] at isUnknown
    cases negative <;> cases isUnknown
  | times | raised =>
    obtain rfl := writes
    rw [List.mem_singleton.mp member] at isUnknown
    cases isUnknown

/-- A lexeme cannot be parted but between two figures. -/
theorem figures_of_split {front back : List Char} (writes : lexeme.Writes (front ++ back))
    {last next : Char} (isLast : last ∈ front.getLast?) (isNext : next ∈ back.head?) :
    isFigure last = true ∧ isFigure next = true := by
  have inFront := List.mem_of_mem_getLast? isLast
  have inBack := List.mem_of_mem_head? isNext
  rcases writes.solid with ⟨only, single, -⟩ | figures
  · have lengths := congrArg List.length single
    have frontLength := List.length_pos_of_mem inFront
    have backLength := List.length_pos_of_mem inBack
    rw [List.length_append, List.length_singleton] at lengths
    omega
  · exact ⟨figures last (List.mem_append_left _ inFront),
      figures next (List.mem_append_right _ inBack)⟩

end Lexeme.Writes

/-! ## Layouts -/

/-- A text in which some lexemes are laid out, with blanks anywhere between them. -/
inductive Laid : List Char → List Lexeme → Prop where
  | nil : Laid [] []
  | blank {blank : Char} {text : List Char} {lexemes : List Lexeme} (isBlank : isBlank blank = true)
      (laid : Laid text lexemes) : Laid (blank :: text) lexemes
  | word {word text : List Char} {lexeme : Lexeme} {lexemes : List Lexeme}
      (writes : lexeme.Writes word) (laid : Laid text lexemes) :
      Laid (word ++ text) (lexeme :: lexemes)

namespace Laid

variable {text other front back : List Char} {lexemes others : List Lexeme}

theorem append (laid : Laid text lexemes) (laid' : Laid other others) :
    Laid (text ++ other) (lexemes ++ others) := by
  induction laid with
  | nil => exact laid'
  | blank isBlank _ ih => exact .blank isBlank ih
  | word writes _ ih =>
    rw [List.append_assoc]
    exact .word writes ih

theorem of_blanks (isBlanks : Blanks text) : Laid text [] := by
  induction text with
  | nil => exact .nil
  | cons first rest ih =>
    obtain ⟨here, behind⟩ := List.forall_mem_cons.mp isBlanks
    exact .blank here (ih behind)

theorem singleton {lexeme : Lexeme} {word : List Char} (writes : lexeme.Writes word) :
    Laid word [lexeme] := by
  rw [← List.append_nil word]
  exact .word writes .nil

/-- **Every place of a laid out text lies between lexemes or within one.** -/
theorem cut (laid : Laid (front ++ back) lexemes) :
    (∃ earlier later, lexemes = earlier ++ later ∧ Laid front earlier ∧ Laid back later) ∨
      ∃ lexeme head tail, Lexeme.Writes lexeme (head ++ tail) ∧ head ≠ [] ∧ tail ≠ [] ∧
        head <:+ front ∧ tail <+: back := by
  generalize same : front ++ back = text at laid
  induction laid generalizing front with
  | nil =>
    obtain ⟨rfl, rfl⟩ := List.append_eq_nil_iff.mp same
    exact .inl ⟨[], [], rfl, .nil, .nil⟩
  | @blank first text lexemes isBlank laid ih =>
    cases front with
    | nil =>
      cases same
      exact .inl ⟨[], lexemes, rfl, .nil, .blank isBlank laid⟩
    | cons first front =>
      cases same
      rcases ih rfl with ⟨earlier, later, split, isFront, isBack⟩ | inside
      · exact .inl ⟨earlier, later, split, .blank isBlank isFront, isBack⟩
      · obtain ⟨lexeme, head, tail, writes, hasHead, hasTail, atEnd, atStart⟩ := inside
        exact .inr ⟨lexeme, head, tail, writes, hasHead, hasTail,
          atEnd.trans (List.suffix_cons first front), atStart⟩
  | @word word text lexeme lexemes writes laid ih =>
    rcases List.append_eq_append_iff.mp same with ⟨tail, rfl, rfl⟩ | ⟨rest, rfl, isText⟩
    · rcases eq_or_ne front [] with rfl | hasHead
      · exact .inl ⟨[], lexeme :: lexemes, rfl, .nil, .word writes laid⟩
      · rcases eq_or_ne tail [] with rfl | hasTail
        · rw [List.append_nil] at writes
          exact .inl ⟨[lexeme], lexemes, rfl, .singleton writes, laid⟩
        · exact .inr ⟨lexeme, front, tail, writes, hasHead, hasTail, List.suffix_rfl,
            List.prefix_append tail text⟩
    · rcases ih isText.symm with ⟨earlier, later, rfl, isFront, isBack⟩ | inside
      · exact .inl ⟨lexeme :: earlier, later, rfl, .word writes isFront, isBack⟩
      · obtain ⟨lexeme', head, tail, writes', hasHead, hasTail, atEnd, atStart⟩ := inside
        exact .inr ⟨lexeme', head, tail, writes', hasHead, hasTail,
          atEnd.trans (List.suffix_append word rest), atStart⟩

/-- A text begins with a blank or with a lexeme. -/
theorem first {character : Char} (laid : Laid (character :: text) lexemes) :
    (isBlank character = true ∧ Laid text lexemes) ∨
      ∃ lexeme behind rest later, Lexeme.Writes lexeme (character :: behind) ∧
        text = behind ++ rest ∧ lexemes = lexeme :: later ∧ Laid rest later := by
  generalize same : character :: text = whole at laid
  cases laid with
  | nil => cases same
  | blank isBlank laid =>
    cases same
    exact .inl ⟨isBlank, laid⟩
  | @word word rest lexeme later writes laid =>
    cases word with
    | nil => exact absurd rfl writes.ne_nil
    | cons first behind =>
      cases same
      exact .inr ⟨lexeme, behind, rest, later, writes, rfl, rfl, laid⟩

/-- **A blank may be taken out.** -/
theorem erase {blank : Char} (blanks : isBlank blank = true)
    (laid : Laid (front ++ blank :: back) lexemes) : Laid (front ++ back) lexemes := by
  have outside : ∀ {lexeme : Lexeme} {word : List Char}, lexeme.Writes word → blank ∉ word := by
    intro lexeme word writes member
    rw [writes.visible member] at blanks
    cases blanks
  rcases laid.cut with ⟨earlier, later, rfl, isFront, isBack⟩ | inside
  · rcases isBack.first with ⟨-, behind⟩ | ⟨lexeme, behind, _, _, writes, -⟩
    · exact isFront.append behind
    · exact absurd List.mem_cons_self (outside writes)
  · obtain ⟨lexeme, head, tail, writes, -, hasTail, -, atStart⟩ := inside
    obtain ⟨tail, rfl⟩ := List.prefix_cons_iff.mp atStart |>.resolve_left hasTail |>.imp
      fun _ both => both.1
    exact absurd (List.mem_append_right _ List.mem_cons_self) (outside writes)

/-- **A blank may be put in, but not between two figures.** -/
theorem insert {blank : Char} (blanks : isBlank blank = true)
    (apart : ∀ last ∈ front.getLast?, ∀ next ∈ back.head?,
      ¬ (isFigure last = true ∧ isFigure next = true))
    (laid : Laid (front ++ back) lexemes) : Laid (front ++ blank :: back) lexemes := by
  rcases laid.cut with ⟨earlier, later, rfl, isFront, isBack⟩ | inside
  · exact isFront.append (.blank blanks isBack)
  · obtain ⟨lexeme, head, tail, writes, hasHead, hasTail, ⟨before, rfl⟩, ⟨behind, rfl⟩⟩ := inside
    have isLast : head.getLast hasHead ∈ (before ++ head).getLast? :=
      List.mem_getLast?_append_of_mem_getLast? (List.getLast?_eq_some_getLast hasHead)
    have isNext : tail.head hasTail ∈ (tail ++ behind).head? :=
      List.mem_head?_append_of_mem_head? (List.head?_eq_some_head hasTail)
    exact absurd (writes.figures_of_split (List.getLast?_eq_some_getLast hasHead)
      (List.head?_eq_some_head hasTail)) (apart _ isLast _ isNext)

/-- **The case of an unknown may be changed.** -/
theorem recase {unknown other : Char} (isUnknown : isVariable unknown = true)
    (isOther : isVariable other = true) (laid : Laid (front ++ unknown :: back) lexemes) :
    Laid (front ++ other :: back) lexemes := by
  rcases laid.cut with ⟨earlier, later, rfl, isFront, isBack⟩ | inside
  · rcases isBack.first with ⟨blank, -⟩ | ⟨lexeme, behind, rest, later, writes, rfl, rfl, isRest⟩
    · rw [isBlank_of_isVariable isUnknown] at blank
      cases blank
    · obtain ⟨rfl, alone⟩ := writes.eq_unknown List.mem_cons_self isUnknown
      cases alone
      have written : Lexeme.unknown.Writes [other] := ⟨other, isOther, rfl⟩
      exact isFront.append (.word written isRest)
  · obtain ⟨lexeme, head, tail, writes, hasHead, hasTail, -, atStart⟩ := inside
    obtain ⟨tail, rfl⟩ := List.prefix_cons_iff.mp atStart |>.resolve_left hasTail |>.imp
      fun _ both => both.1
    obtain ⟨-, alone⟩ := writes.eq_unknown (List.mem_append_right _ List.mem_cons_self) isUnknown
    have lengths := congrArg List.length alone
    have headLength := List.length_pos_iff.mpr hasHead
    rw [List.length_append, List.length_cons, List.length_singleton] at lengths
    omega

end Laid

/-- **An edit leaves the lexemes of a text as they are.** -/
theorem Edit.laid {text other : List Char} {lexemes : List Lexeme} (edit : Edit text other)
    (laid : Laid text lexemes) : Laid other lexemes := by
  cases edit with
  | erase front back blanks => exact laid.erase blanks
  | insert front back blanks apart => exact laid.insert blanks apart
  | recase front back isUnknown isOther => exact laid.recase isUnknown isOther

/-! ## Sentences as layouts -/

/-- The lexemes of an unknown with an exponent or without. -/
def powerLexemes : Option (List Char) → List Lexeme
  | none => [.unknown]
  | some digits => [.unknown, .raised, .exponent digits]

/-- The lexemes of a term without its sign. -/
def Spelling.lexemes : Spelling → List Lexeme
  | .number numeral => [.number numeral]
  | .multiple numeral exponent => .number numeral :: .times :: powerLexemes exponent
  | .power exponent => powerLexemes exponent

/-- The lexemes of signed terms. -/
def signedLexemes (phrases : List Phrase) : List Lexeme :=
  phrases.flatMap fun phrase => .sign phrase.negative :: phrase.spelling.lexemes

/-- The lexemes of a side: the first term may do without a plus sign. -/
inductive RowOf : List Phrase → List Lexeme → Prop where
  | signed (first : Phrase) (later : List Phrase) :
      RowOf (first :: later) (signedLexemes (first :: later))
  | unsigned (spelling : Spelling) (later : List Phrase) :
      RowOf (⟨false, spelling⟩ :: later) (spelling.lexemes ++ signedLexemes later)

theorem signedLexemes_cons (phrase : Phrase) (phrases : List Phrase) :
    signedLexemes (phrase :: phrases) =
      [.sign phrase.negative] ++ (phrase.spelling.lexemes ++ signedLexemes phrases) :=
  List.flatMap_cons

section Spelled

variable {text : List Char} {lexemes : List Lexeme}

theorem SpellsPower.laid {exponent : Option (List Char)} (isPower : SpellsPower text exponent) :
    Laid text (powerLexemes exponent) := by
  have single : ∀ {character : Char}, isVariable character = true → Laid [character] [.unknown] :=
    fun isUnknown => .singleton ⟨_, isUnknown, rfl⟩
  cases isPower with
  | bare isUnknown => exact single isUnknown
  | raised isUnknown blanksBefore blanksAfter isExponent =>
    have raised : Laid ['^'] [.raised] := .singleton rfl
    have digits : Laid _ [.exponent _] := .singleton ⟨isExponent, rfl⟩
    exact (single isUnknown).append ((Laid.of_blanks blanksBefore).append
      (raised.append ((Laid.of_blanks blanksAfter).append digits)))

theorem SpellsBody.laid {spelling : Spelling} (isBody : SpellsBody text spelling) :
    Laid text spelling.lexemes := by
  have single : ∀ {word : List Char} {numeral : Numeral}, SpellsNumber word numeral →
      Laid word [.number numeral] :=
    fun isNumber => .singleton isNumber
  cases isBody with
  | number isNumber => exact single isNumber
  | multiple isNumber blanksBefore blanksAfter isPower =>
    have times : Laid ['*'] [.times] := .singleton rfl
    exact (single isNumber).append ((Laid.of_blanks blanksBefore).append
      (times.append ((Laid.of_blanks blanksAfter).append isPower.laid)))
  | power isPower => exact isPower.laid

theorem SpellsSign.laid {negative : Bool} (isSign : SpellsSign text negative) :
    Laid text [.sign negative] := by
  cases isSign with
  | plus blanksAfter =>
    have plus : Laid ['+'] [.sign false] := .singleton rfl
    exact plus.append (.of_blanks blanksAfter)
  | minus blanksAfter =>
    have minus : Laid ['-'] [.sign true] := .singleton rfl
    exact minus.append (.of_blanks blanksAfter)

theorem SpellsLater.laid {phrases : List Phrase} (isLater : SpellsLater text phrases) :
    Laid text (signedLexemes phrases) := by
  induction isLater with
  | done isBlank => exact .of_blanks isBlank
  | more blanksBefore isSign isBody _ ih =>
    rw [signedLexemes_cons]
    exact (Laid.of_blanks blanksBefore).append (isSign.laid.append (isBody.laid.append ih))

theorem SpellsSide.laid {phrases : List Phrase} (isSide : SpellsSide text phrases) :
    ∃ lexemes, RowOf phrases lexemes ∧ Laid text lexemes := by
  cases isSide with
  | signed blanksBefore isSign isBody isLater =>
    refine ⟨_, .signed _ _, ?_⟩
    rw [signedLexemes_cons]
    exact (Laid.of_blanks blanksBefore).append
      (isSign.laid.append (isBody.laid.append isLater.laid))
  | unsigned blanksBefore isBody isLater =>
    exact ⟨_, .unsigned _ _, (Laid.of_blanks blanksBefore).append
      (isBody.laid.append isLater.laid)⟩

/-! ## Layouts as sentences -/

/-- Where no lexemes are laid out, there are blanks. -/
theorem Laid.blanks (laid : Laid text []) : Blanks text := by
  generalize none : ([] : List Lexeme) = lexemes at laid
  induction laid with
  | nil => exact .nil
  | blank isBlank _ ih => exact List.forall_mem_cons.mpr ⟨isBlank, ih none⟩
  | word => cases none

/-- A lexeme stands behind blanks. -/
theorem Laid.exists_word {lexeme : Lexeme} (laid : Laid text (lexeme :: lexemes)) :
    ∃ gap word rest, text = gap ++ (word ++ rest) ∧ Blanks gap ∧ lexeme.Writes word ∧
      Laid rest lexemes := by
  generalize some : lexeme :: lexemes = row at laid
  induction laid with
  | nil => cases some
  | @blank first _ _ isBlank _ ih =>
    obtain ⟨gap, word, rest, rfl, isGap, writes, isRest⟩ := ih some
    exact ⟨first :: gap, word, rest, rfl, List.forall_mem_cons.mpr ⟨isBlank, isGap⟩, writes, isRest⟩
  | @word word rest _ _ writes laid =>
    cases some
    exact ⟨[], word, rest, rfl, .nil, writes, laid⟩

theorem Laid.exists_power {exponent : Option (List Char)}
    (laid : Laid text (powerLexemes exponent ++ lexemes)) :
    ∃ gap power rest, text = gap ++ (power ++ rest) ∧ Blanks gap ∧ SpellsPower power exponent ∧
      Laid rest lexemes := by
  cases exponent with
  | none =>
    obtain ⟨gap, _, rest, rfl, isGap, ⟨unknown, isUnknown, rfl⟩, isRest⟩ := laid.exists_word
    exact ⟨gap, [unknown], rest, rfl, isGap, .bare isUnknown, isRest⟩
  | some digits =>
    obtain ⟨gap, _, _, rfl, isGap, ⟨unknown, isUnknown, rfl⟩, behindUnknown⟩ := laid.exists_word
    obtain ⟨before, _, _, rfl, blanksBefore, rfl, behindSign⟩ := behindUnknown.exists_word
    obtain ⟨after, _, rest, rfl, blanksAfter, ⟨isExponent, rfl⟩, isRest⟩ := behindSign.exists_word
    refine ⟨gap, _, rest, ?_, isGap, .raised isUnknown blanksBefore blanksAfter isExponent, isRest⟩
    simp only [List.append_assoc, List.cons_append, List.nil_append]

theorem Laid.exists_body {spelling : Spelling} (laid : Laid text (spelling.lexemes ++ lexemes)) :
    ∃ gap body rest, text = gap ++ (body ++ rest) ∧ Blanks gap ∧ SpellsBody body spelling ∧
      Laid rest lexemes := by
  cases spelling with
  | number numeral =>
    obtain ⟨gap, word, rest, rfl, isGap, isNumber, isRest⟩ := laid.exists_word
    exact ⟨gap, word, rest, rfl, isGap, .number isNumber, isRest⟩
  | multiple numeral exponent =>
    obtain ⟨gap, word, _, rfl, isGap, isNumber, behindNumber⟩ := laid.exists_word
    obtain ⟨before, _, _, rfl, blanksBefore, rfl, behindSign⟩ := behindNumber.exists_word
    obtain ⟨after, power, rest, rfl, blanksAfter, isPower, isRest⟩ := behindSign.exists_power
    refine ⟨gap, _, rest, ?_, isGap, .multiple isNumber blanksBefore blanksAfter isPower, isRest⟩
    simp only [List.append_assoc, List.cons_append, List.nil_append]
  | power exponent =>
    obtain ⟨gap, power, rest, rfl, isGap, isPower, isRest⟩ := laid.exists_power
    exact ⟨gap, power, rest, rfl, isGap, .power isPower, isRest⟩

/-- A sign, the blanks behind it and a term. -/
theorem Laid.exists_signed {negative : Bool} {spelling : Spelling}
    (laid : Laid text ([.sign negative] ++ (spelling.lexemes ++ lexemes))) :
    ∃ gap sign body rest, text = gap ++ (sign ++ (body ++ rest)) ∧ Blanks gap ∧
      SpellsSign sign negative ∧ SpellsBody body spelling ∧ Laid rest lexemes := by
  obtain ⟨gap, _, _, rfl, isGap, rfl, behind⟩ := laid.exists_word
  obtain ⟨after, body, rest, rfl, blanksAfter, isBody, isRest⟩ := behind.exists_body
  refine ⟨gap, (if negative then '-' else '+') :: after, body, rest, by simp, isGap, ?_, isBody,
    isRest⟩
  cases negative with
  | false => exact .plus blanksAfter
  | true => exact .minus blanksAfter

theorem Laid.spellsLater {phrases : List Phrase} (laid : Laid text (signedLexemes phrases)) :
    SpellsLater text phrases := by
  induction phrases generalizing text with
  | nil => exact .done laid.blanks
  | cons phrase phrases ih =>
    rw [signedLexemes_cons] at laid
    obtain ⟨gap, sign, body, rest, rfl, isGap, isSign, isBody, isRest⟩ := laid.exists_signed
    exact .more isGap isSign isBody (ih isRest)

/-- **The sentences of the grammar are the layouts of their lexemes.** -/
theorem spellsSide_iff {phrases : List Phrase} :
    SpellsSide text phrases ↔ ∃ lexemes, RowOf phrases lexemes ∧ Laid text lexemes := by
  constructor
  · exact SpellsSide.laid
  · rintro ⟨_, ⟨first, later⟩ | ⟨spelling, later⟩, laid⟩
    · rw [signedLexemes_cons] at laid
      obtain ⟨gap, sign, body, rest, rfl, isGap, isSign, isBody, isRest⟩ := laid.exists_signed
      exact .signed isGap isSign isBody isRest.spellsLater
    · obtain ⟨gap, body, rest, rfl, isGap, isBody, isRest⟩ := laid.exists_body
      exact .unsigned isGap isBody isRest.spellsLater

end Spelled

/-! ## Edited sides and equations -/

/-- A text and what becomes of it by any number of edits. -/
abbrev Edited : List Char → List Char → Prop :=
  Relation.ReflTransGen Edit

theorem Edit.spellsSide {text other : List Char} {phrases : List Phrase} (edit : Edit text other)
    (isSide : SpellsSide text phrases) : SpellsSide other phrases := by
  obtain ⟨lexemes, isRow, laid⟩ := spellsSide_iff.mp isSide
  exact spellsSide_iff.mpr ⟨lexemes, isRow, edit.laid laid⟩

/-- **Edits leave the phrases of a side as they are.** -/
theorem SpellsSide.edited {text other : List Char} {phrases : List Phrase}
    (isSide : SpellsSide text phrases) (edited : Edited text other) :
    SpellsSide other phrases := by
  induction edited with
  | refl => exact isSide
  | tail _ edit ih => exact edit.spellsSide ih

theorem readSide_of_edited {side other : List Char} {terms : List Term}
    (edited : Edited side other) (accepted : readSide side = .ok terms) :
    readSide other = .ok terms := by
  obtain ⟨phrases, isSide, fits, same⟩ := readSide_eq_ok_iff.mp accepted
  exact readSide_eq_ok_iff.mpr ⟨phrases, isSide.edited edited, fits, same⟩

/-- A side that is read has no equals sign. -/
theorem no_equals_of_readSide {side : List Char} {terms : List Term}
    (accepted : readSide side = .ok terms) : '=' ∉ side := by
  obtain ⟨phrases, isSide, -⟩ := readSide_eq_ok_iff.mp accepted
  exact isSide.no_equals

/-- **Blanks and case do not matter.**  A side that is read is read as the same terms after any
number of edits, and an equation that is read is read as the same equation after any number of
edits of both its sides. -/
theorem read_edited :
    (∀ side other terms, Edited side other → readSide side = .ok terms →
      readSide other = .ok terms) ∧
    ∀ (source other : String) (left right left' right' : List Char) (equation : Equation),
      source.toList = left ++ '=' :: right → other.toList = left' ++ '=' :: right' →
      Edited left left' → Edited right right' → read source = .ok equation →
      read other = .ok equation := by
  refine ⟨fun _ _ _ => readSide_of_edited, ?_⟩
  intro source other left right left' right' equation isSource isOther editedLeft editedRight isRead
  rw [read, isSource] at isRead
  rw [read, isOther]
  obtain ⟨_, _, leftTerms, rightTerms, same, noLeft, noRight, leftRead, rightRead, rfl, workable⟩ :=
    readCharacters_eq_ok_iff.mp isRead
  obtain ⟨rfl, -, rfl⟩ := (List.append_cons_inj_of_notMem noLeft noRight).mp same.symm
  have leftRead' := readSide_of_edited editedLeft leftRead
  have rightRead' := readSide_of_edited editedRight rightRead
  exact readCharacters_eq_ok_iff.mpr ⟨left', right', leftTerms, rightTerms, rfl,
    no_equals_of_readSide leftRead', no_equals_of_readSide rightRead', leftRead', rightRead', rfl,
    workable⟩

/-- The equation `x=1` may be written as ` X = 1`. -/
theorem read_edited_spaced : read "x=1" = .ok (ofSides [⟨1, 1⟩] [⟨1, 0⟩]) ∧
    Edited ['x'] [' ', 'X', ' '] ∧ Edited ['1'] [' ', '1'] ∧
    read " X = 1" = .ok (ofSides [⟨1, 1⟩] [⟨1, 0⟩]) := by
  have accepted : read "x=1" = .ok (ofSides [⟨1, 1⟩] [⟨1, 0⟩]) := by decide +kernel
  have space : isBlank ' ' = true := by decide
  have left : Edited ['x'] [' ', 'X', ' '] := by
    have front : Edit ['x'] [' ', 'x'] := .insert [] ['x'] space (by simp)
    have back : Edit [' ', 'x'] [' ', 'x', ' '] := .insert [' ', 'x'] [] space (by simp)
    have large : Edit [' ', 'x', ' '] [' ', 'X', ' '] := .recase [' '] [' '] rfl rfl
    exact .tail (.tail (.single front) back) large
  have right : Edited ['1'] [' ', '1'] :=
    .single (.insert [] ['1'] space (by simp))
  refine ⟨accepted, left, right, ?_⟩
  exact read_edited.2 "x=1" " X = 1" _ _ _ _ _ rfl rfl left right accepted

end Quadratics.Equation
