import Quadratics.Fraction
import Quadratics.Proofs.Decimal.Shortest

/-!
# Words for what is not finite

An infinity is written as `inf` and what is no number as `NaN`, and no finite number is
written with a letter, so the text of a number tells whether it is finite
(`showsOverflow_text_iff`).

A longer text holds one of the words just where one of its parts does, as long as the parts
are put together with delimiters: texts without the words that begin and end in a character
that no word has (`showsOverflow_append_delimited`).  Lines put below each other are such a
text (`showsOverflow_lines_iff`).
-/

namespace Quadratics

set_option autoImplicit false

/-! ## Words within characters -/

/-- A character that a word does not have divides the places where the word can be. -/
theorem infix_append_cons_iff {word left right : List Char} {divider : Char}
    (absent : divider ∉ word) :
    word <:+: left ++ divider :: right ↔ word <:+: left ∨ word <:+: right := by
  constructor
  · rintro ⟨before, after, same⟩
    rw [List.append_assoc] at same
    rcases List.append_eq_append_iff.mp same with ⟨rest, isLeft, isRest⟩ | ⟨rest, isBefore, isRest⟩
    · -- The word begins on the left, and it may not reach the divider.
      rcases List.append_eq_append_iff.mp isRest with ⟨more, isMore, -⟩ | ⟨more, isWord, isMore⟩
      · exact .inl ⟨before, more, by rw [isLeft, isMore, List.append_assoc]⟩
      · cases more with
        | nil =>
          rw [List.append_nil] at isWord
          exact .inl ⟨before, [], by rw [isLeft, isWord, List.append_nil]⟩
        | cons first more =>
          cases isMore
          exact absurd (isWord ▸ List.mem_append_right _ List.mem_cons_self) absent
    · cases rest with
      | nil =>
        cases word with
        | nil => exact .inl (List.nil_infix)
        | cons first word =>
          cases isRest
          exact absurd List.mem_cons_self absent
      | cons first rest =>
        cases isRest
        exact .inr ⟨rest, after, List.append_assoc rest word after⟩
  · rintro (⟨before, after, rfl⟩ | ⟨before, after, rfl⟩)
    · exact ⟨before, after ++ divider :: right, by simp only [List.append_assoc]⟩
    · exact ⟨left ++ divider :: before, after, by simp only [List.append_assoc, List.cons_append]⟩

/-- The words for an infinity and for what is no number. -/
def overflowWords : List (List Char) :=
  [['i', 'n', 'f'], ['N', 'a', 'N']]

/-- A text holds one of the words. -/
def ShowsOverflow (text : List Char) : Prop :=
  ∃ word ∈ overflowWords, word <:+: text

instance (text : List Char) : Decidable (ShowsOverflow text) :=
  inferInstanceAs (Decidable (∃ word ∈ overflowWords, word <:+: text))

/-- No word has this character. -/
def IsDivider (character : Char) : Prop :=
  ∀ word ∈ overflowWords, character ∉ word

instance (character : Char) : Decidable (IsDivider character) :=
  inferInstanceAs (Decidable (∀ word ∈ overflowWords, character ∉ word))

variable {left right text : List Char}

theorem showsOverflow_append_cons {divider : Char} (isDivider : IsDivider divider) :
    ShowsOverflow (left ++ divider :: right) ↔ ShowsOverflow left ∨ ShowsOverflow right := by
  constructor
  · rintro ⟨word, isWord, within⟩
    rcases (infix_append_cons_iff (isDivider word isWord)).mp within with within | within
    · exact .inl ⟨word, isWord, within⟩
    · exact .inr ⟨word, isWord, within⟩
  · rintro (⟨word, isWord, within⟩ | ⟨word, isWord, within⟩)
    · exact ⟨word, isWord, (infix_append_cons_iff (isDivider word isWord)).mpr (.inl within)⟩
    · exact ⟨word, isWord, (infix_append_cons_iff (isDivider word isWord)).mpr (.inr within)⟩

theorem not_showsOverflow_nil : ¬ ShowsOverflow [] := by
  decide

/-- A text of dividers alone holds no word. -/
theorem not_showsOverflow_of_dividers (dividers : ∀ character ∈ text, IsDivider character) :
    ¬ ShowsOverflow text := by
  induction text with
  | nil => exact not_showsOverflow_nil
  | cons first rest ih =>
    have split := @showsOverflow_append_cons [] rest first (dividers first List.mem_cons_self)
    rw [List.nil_append] at split
    rw [split, not_or]
    exact ⟨not_showsOverflow_nil, ih fun character member =>
      dividers character (List.mem_cons_of_mem _ member)⟩

/-- A text that begins in a divider starts no word of what is in front of it. -/
theorem showsOverflow_append_of_head {divider : Char} (isDivider : IsDivider divider)
    (head : right.head? = some divider) :
    ShowsOverflow (left ++ right) ↔ ShowsOverflow left ∨ ShowsOverflow right := by
  cases right with
  | nil => cases head
  | cons first rest =>
    cases head
    have alone := @showsOverflow_append_cons [] rest divider isDivider
    rw [List.nil_append, or_iff_right not_showsOverflow_nil] at alone
    rw [showsOverflow_append_cons isDivider, alone]

theorem showsOverflow_append_of_last {divider : Char} (isDivider : IsDivider divider)
    (last : left.getLast? = some divider) :
    ShowsOverflow (left ++ right) ↔ ShowsOverflow left ∨ ShowsOverflow right := by
  obtain ⟨front, rfl⟩ := List.getLast?_eq_some_iff.mp last
  have alone := @showsOverflow_append_cons front [] divider isDivider
  rw [or_iff_left not_showsOverflow_nil] at alone
  rw [List.append_assoc, List.singleton_append, showsOverflow_append_cons isDivider, alone]

/-- No word ends in an `i`. -/
theorem showsOverflow_append_i : ShowsOverflow (text ++ ['i']) ↔ ShowsOverflow text := by
  have noLast : ∀ word ∈ overflowWords, word ≠ [] ∧ word.getLast? ≠ some 'i' := by decide
  constructor
  · rintro ⟨word, isWord, within⟩
    obtain ⟨nonempty, last⟩ := noLast word isWord
    rcases List.infix_concat_iff.mp within with atEnd | within
    · rcases List.suffix_concat_iff.mp atEnd with empty | ⟨front, rfl, -⟩
      · exact absurd empty nonempty
      · exact absurd List.getLast?_concat last
    · exact ⟨word, isWord, within⟩
  · rintro ⟨word, isWord, within⟩
    exact ⟨word, isWord, within.trans (List.prefix_append _ _).isInfix⟩

/-! ## Delimiters -/

/-- Characters that parts of a text can be put together with. -/
def IsDelimiter (delimiter : List Char) : Prop :=
  ¬ ShowsOverflow delimiter ∧ delimiter.head?.any (IsDivider ·) = true ∧
    delimiter.getLast?.any (IsDivider ·) = true

instance (delimiter : List Char) : Decidable (IsDelimiter delimiter) :=
  inferInstanceAs (Decidable (_ ∧ _ ∧ _))

theorem IsDelimiter.exists_head {delimiter : List Char} (isDelimiter : IsDelimiter delimiter) :
    ∃ divider, delimiter.head? = some divider ∧ IsDivider divider := by
  simpa only [Option.any_eq_true, decide_eq_true_eq] using isDelimiter.2.1

theorem IsDelimiter.exists_last {delimiter : List Char} (isDelimiter : IsDelimiter delimiter) :
    ∃ divider, delimiter.getLast? = some divider ∧ IsDivider divider := by
  simpa only [Option.any_eq_true, decide_eq_true_eq] using isDelimiter.2.2

section Delimited

variable {delimiter : List Char} {front rest : String}

/-- **A delimiter keeps the parts around it apart.** -/
theorem showsOverflow_append_delimited (isDelimiter : IsDelimiter delimiter) :
    ShowsOverflow (front ++ (String.ofList delimiter ++ rest)).toList ↔
      ShowsOverflow front.toList ∨ ShowsOverflow rest.toList := by
  obtain ⟨first, head, isFirst⟩ := isDelimiter.exists_head
  obtain ⟨last, isLast, lastDivides⟩ := isDelimiter.exists_last
  rw [String.toList_append, String.toList_append, String.toList_ofList]
  have starts : (delimiter ++ rest.toList).head? = some first := by
    rw [List.head?_append, head, Option.some_or]
  rw [showsOverflow_append_of_head isFirst starts,
    showsOverflow_append_of_last lastDivides isLast, or_iff_right isDelimiter.1]

theorem showsOverflow_delimiter_append (isDelimiter : IsDelimiter delimiter) :
    ShowsOverflow (String.ofList delimiter ++ rest).toList ↔ ShowsOverflow rest.toList := by
  obtain ⟨last, isLast, lastDivides⟩ := isDelimiter.exists_last
  rw [String.toList_append, String.toList_ofList,
    showsOverflow_append_of_last lastDivides isLast, or_iff_right isDelimiter.1]

theorem showsOverflow_append_delimiter (isDelimiter : IsDelimiter delimiter) :
    ShowsOverflow (front ++ String.ofList delimiter).toList ↔ ShowsOverflow front.toList := by
  obtain ⟨first, head, isFirst⟩ := isDelimiter.exists_head
  rw [String.toList_append, String.toList_ofList,
    showsOverflow_append_of_head isFirst head, or_iff_left isDelimiter.1]

end Delimited

theorem not_showsOverflow_ofList (plain : ¬ ShowsOverflow text) :
    ¬ ShowsOverflow (String.ofList text).toList := by
  rwa [String.toList_ofList]

/-- **Lines hold a word just where one of them does.** -/
theorem showsOverflow_lines_iff {lines : List String} :
    ShowsOverflow (String.intercalate "\n" lines).toList ↔
      ∃ line ∈ lines, ShowsOverflow line.toList := by
  induction lines with
  | nil =>
    refine iff_of_false ?_ fun ⟨_, member, _⟩ => absurd member List.not_mem_nil
    rw [String.intercalate_nil]
    decide
  | cons line lines ih =>
    cases lines with
    | nil =>
      rw [String.intercalate_singleton]
      simp only [List.mem_singleton, exists_eq_left]
    | cons next lines =>
      rw [String.intercalate_cons_cons, String.append_assoc, List.exists_mem_cons_iff]
      exact (showsOverflow_append_delimited (by decide)).trans (or_congr_right ih)

/-! ## Numbers -/

theorem isDivider_of_isDigit {character : Char} (digit : character.isDigit = true) :
    IsDivider character := by
  have letters : ∀ word ∈ overflowWords, word.all (!·.isDigit) = true := by decide
  intro word isWord member
  have letter := List.all_eq_true.mp (letters word isWord) character member
  rw [digit] at letter
  cases letter

/-- A decimal is written with digits, a point and a minus sign. -/
theorem Decimal.mem_characters {decimal : Decimal} {character : Char}
    (member : character ∈ decimal.characters) :
    character.isDigit = true ∨ character = '.' ∨ character = '-' := by
  have positional : ∀ character ∈ Decimal.positional decimal.coefficient decimal.place,
      character.isDigit = true ∨ character = '.' ∨ character = '-' := by
    intro character member
    unfold Decimal.positional at member
    split at member
    · rcases List.mem_append.mp member with digit | zero
      · exact .inl (Decimal.isDigit_of_mem_digits digit)
      · rw [List.eq_of_mem_replicate zero]
        decide
    · rcases List.mem_append.mp member with whole | pointed
      · exact .inl (Decimal.isDigit_of_mem_paddedDigits (List.mem_of_mem_take whole))
      · rcases List.mem_cons.mp pointed with rfl | fraction
        · exact .inr (.inl rfl)
        · exact .inl (Decimal.isDigit_of_mem_paddedDigits (List.mem_of_mem_drop fraction))
  unfold Decimal.characters at member
  dsimp only at member
  split at member
  · rcases List.mem_cons.mp member with rfl | member
    · exact .inr (.inr rfl)
    · exact positional character member
  · exact positional character member

/-- **The characters of a number's text**, but for the words. -/
theorem Binary64.mem_text {number : Binary64} {character : Char}
    (finite : number.isFinite = true) (member : character ∈ number.text.toList) :
    character.isDigit = true ∨ character = '.' ∨ character = '-' := by
  rw [Decimal.text_eq_characters finite, String.toList_ofList] at member
  exact Decimal.mem_characters member

/-- **The text of a number tells whether it is finite.** -/
theorem showsOverflow_text_iff (number : Binary64) :
    ShowsOverflow number.text.toList ↔ number.isFinite = false := by
  match number with
  | .finite _ _ _ _ =>
    refine iff_of_false (not_showsOverflow_of_dividers fun character member => ?_)
      Bool.true_eq_false.mp
    rcases Binary64.mem_text rfl member with digit | rfl | rfl
    · exact isDivider_of_isDigit digit
    · decide
    · decide
  | .infinity false => decide +kernel
  | .infinity true => decide +kernel
  | .nan _ => exact iff_of_true (by show ShowsOverflow "NaN".toList; decide +kernel) rfl

theorem not_showsOverflow_toString (number : Nat) : ¬ ShowsOverflow (toString number).toList := by
  rw [Nat.toString_eq_repr, Nat.toList_repr]
  exact not_showsOverflow_of_dividers fun character member =>
    isDivider_of_isDigit (Nat.isDigit_of_mem_toDigits (by decide) (by decide) member)

theorem Fraction.not_showsOverflow_text (fraction : Rat) :
    ¬ ShowsOverflow (Fraction.text fraction).toList := by
  have numerator : ¬ ShowsOverflow (toString fraction.num).toList := by
    match fraction.num with
    | .ofNat count => exact not_showsOverflow_toString count
    | .negSucc count =>
      show ¬ ShowsOverflow ("-" ++ toString (count + 1)).toList
      rw [showsOverflow_delimiter_append (by decide)]
      exact not_showsOverflow_toString (count + 1)
  unfold Fraction.text
  split
  · exact numerator
  · rw [String.append_assoc, showsOverflow_append_delimited (by decide), not_or]
    exact ⟨numerator, not_showsOverflow_toString fraction.den⟩

end Quadratics
