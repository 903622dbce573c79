import Mathlib
import StackMachine.Text.Blank

/-!
# The words of an input

Reading a word takes the white space before it, the word itself and one white space character
behind it, if there is one (`Input.readWord_eq_word_iff`).  So the words that are laid out in a text
with white space between them are read one after the other, and nothing is lost between two of them
(`Input.readWord_spread`).
-/

namespace StackMachine

/-- A text of white space. -/
def IsSpace (text : List Char) : Prop :=
  ∀ c ∈ text, isBlank c = true

/-- A word: one or more characters, none of which is white space. -/
structure IsSolid (word : List Char) : Prop where
  nonempty : word ≠ []
  noBlank : ∀ c ∈ word, isBlank c = false

namespace Input

/-- A word is taken from an input with the white space before it, and with one white space character
behind it or up to the end of the text. -/
inductive TakesWord : Input → String → Input → Prop where
  | followed {lead rest : List Char} {word : String} {c : Char} {fault : Option ReadFault}
      (space : IsSpace lead) (solid : IsSolid word.toList) (blank : isBlank c = true) :
      TakesWord ⟨lead ++ (word.toList ++ c :: rest), fault⟩ word ⟨rest, fault⟩
  | last {lead : List Char} {word : String} (space : IsSpace lead) (solid : IsSolid word.toList) :
      TakesWord ⟨lead ++ word.toList, none⟩ word ⟨[], none⟩

/-! ## White space and words -/

theorem dropWhile_space {lead : List Char} (space : IsSpace lead) (text : List Char) :
    (lead ++ text).dropWhile isBlank = text.dropWhile isBlank :=
  List.dropWhile_append_of_pos space

theorem dropWhile_solid {word : List Char} (solid : IsSolid word) (text : List Char) :
    (word ++ text).dropWhile isBlank = word ++ text := by
  obtain ⟨c, rest, rfl⟩ := List.exists_cons_of_ne_nil solid.nonempty
  exact List.dropWhile_cons_of_neg (by simp [solid.noBlank c List.mem_cons_self])

/-- A word ends at the end of the text or before white space. -/
theorem span_solid {word : List Char} (solid : IsSolid word) {text : List Char}
    (ends : ∀ c ∈ text.head?, isBlank c = true) :
    (word ++ text).takeWhile (fun c => !isBlank c) = word ∧
      (word ++ text).dropWhile (fun c => !isBlank c) = text := by
  have all : ∀ c ∈ word, (!isBlank c) = true := by
    intro c mem
    rw [solid.noBlank c mem, Bool.not_false]
  rw [List.takeWhile_append_of_pos all, List.dropWhile_append_of_pos all]
  cases text with
  | nil => simp
  | cons c text => simp [ends c rfl]

/-- A text is white space, or white space, a word and what ends the word. -/
theorem isSpace_or_exists_solid (text : List Char) :
    IsSpace text ∨ ∃ lead word rest, text = lead ++ (word ++ rest) ∧ IsSpace lead ∧ IsSolid word ∧
      ∀ c ∈ rest.head?, isBlank c = true := by
  have split := List.takeWhile_append_dropWhile (p := isBlank) (l := text)
  have space : IsSpace (text.takeWhile isBlank) := fun c mem => List.mem_takeWhile_imp mem
  cases behind : text.dropWhile isBlank with
  | nil =>
      rw [behind, List.append_nil] at split
      exact .inl (split ▸ space)
  | cons first more =>
      have notBlank : isBlank first = false := by
        have head := List.head?_dropWhile_not isBlank text
        rw [behind] at head
        simpa using head
      refine .inr ⟨text.takeWhile isBlank, (first :: more).takeWhile fun c => !isBlank c,
        (first :: more).dropWhile fun c => !isBlank c, ?_, space, ⟨?_, fun c mem => ?_⟩,
        fun c head => ?_⟩
      · rw [List.takeWhile_append_dropWhile, ← behind, split]
      · simp [notBlank]
      · simpa using List.mem_takeWhile_imp mem
      · have stops := List.head?_dropWhile_not (fun c => !isBlank c) (first :: more)
        rw [Option.mem_def.mp head] at stops
        simpa using stops

/-! ## Reading -/

theorem readWord_of_takesWord {input after : Input} {word : String}
    (takes : TakesWord input word after) : input.readWord = (.word word, after) := by
  cases takes with
  | @followed lead rest _ c fault space solid blank =>
      have ends : ∀ d ∈ (c :: rest).head?, isBlank d = true := by simpa using blank
      obtain ⟨isWord, isRest⟩ := span_solid solid ends
      simp only [readWord, dropWhile_space space, dropWhile_solid solid, isWord, isRest,
        List.drop_one, List.tail_cons, String.ofList_toList]
  | @last lead _ space solid =>
      have ends : ∀ d ∈ ([] : List Char).head?, isBlank d = true := by simp
      obtain ⟨isWord, isRest⟩ := span_solid solid ends
      have isText := dropWhile_solid solid []
      have notEmpty : word.toList.isEmpty = false := by simpa using solid.nonempty
      rw [List.append_nil] at isWord isRest isText
      simp only [readWord, dropWhile_space space, isText, isWord, isRest, notEmpty,
        List.drop_nil, String.ofList_toList, Bool.false_eq_true, if_false]

/-- Behind white space only there is no word. -/
theorem readWord_space {lead : List Char} (space : IsSpace lead) (fault : Option ReadFault) :
    readWord ⟨lead, fault⟩ = (fault.elim .ended .failed, ⟨[], fault⟩) := by
  have nothing := dropWhile_space space []
  rw [List.append_nil, List.dropWhile_nil] at nothing
  cases fault <;> simp [readWord, nothing]

/-- A failure cuts the word before it. -/
theorem readWord_cut {lead word : List Char} (space : IsSpace lead) (solid : IsSolid word)
    (fault : ReadFault) :
    readWord ⟨lead ++ word, some fault⟩ = (.failed fault, ⟨[], some fault⟩) := by
  have ends : ∀ d ∈ ([] : List Char).head?, isBlank d = true := by simp
  obtain ⟨-, isRest⟩ := span_solid solid ends
  have isText := dropWhile_solid solid []
  rw [List.append_nil] at isRest isText
  simp only [readWord, dropWhile_space space, isText, isRest, List.drop_nil]

/-- Reading gives a word exactly if it can be taken. -/
theorem readWord_eq_word_iff {input after : Input} {word : String} :
    input.readWord = (.word word, after) ↔ TakesWord input word after := by
  refine ⟨fun read => ?_, readWord_of_takesWord⟩
  obtain ⟨unread, fault⟩ := input
  -- Of each form of a text the one result of reading is known.
  rcases isSpace_or_exists_solid unread with space | ⟨lead, found, rest, rfl, space, solid, ends⟩
  · rw [readWord_space space] at read
    cases fault <;> cases read
  · obtain ⟨found, rfl⟩ : ∃ word : String, word.toList = found := ⟨_, String.toList_ofList⟩
    cases rest with
    | cons c rest =>
        have takes : TakesWord _ found ⟨rest, fault⟩ := .followed space solid (ends c rfl)
        rw [readWord_of_takesWord takes] at read
        cases read
        exact takes
    | nil =>
        rw [List.append_nil] at read ⊢
        cases fault with
        | some fault =>
            rw [readWord_cut space solid] at read
            cases read
        | none =>
            have takes : TakesWord _ _ _ := .last space solid
            rw [readWord_of_takesWord takes] at read
            cases read
            exact takes

/-! ## Words with white space between them -/

/-- White space, then each word with white space behind it. -/
def spread (lead : List Char) (items : List (String × List Char)) : List Char :=
  lead ++ items.flatMap fun item => item.1.toList ++ item.2

/-- The first of the words is read, and the others stay behind white space. -/
theorem readWord_spread {lead gap : List Char} {word : String} (space : IsSpace lead)
    (solid : IsSolid word.toList) (isGap : IsSpace gap) (nonempty : gap ≠ [])
    (items : List (String × List Char)) :
    readWord ⟨spread lead ((word, gap) :: items), none⟩ =
      (.word word, ⟨spread gap.tail items, none⟩) := by
  obtain ⟨c, gap, rfl⟩ := List.exists_cons_of_ne_nil nonempty
  have takes : TakesWord ⟨lead ++ (word.toList ++ c :: (spread gap items)), none⟩ word
      ⟨spread gap items, none⟩ := .followed space solid (isGap c List.mem_cons_self)
  have isText : spread lead ((word, c :: gap) :: items) =
      lead ++ (word.toList ++ c :: spread gap items) := by
    simp [spread]
  rw [isText, readWord_of_takesWord takes, List.tail_cons]

end Input

end StackMachine
