import Mathlib
import StackMachine.Proofs.Source.Printing

/-!
# The layout of a source

A source shows words between gaps.  A gap is made of separators and comments; a word is written
bare, and then goes up to a separator or to the end of the text, or between quotes.  `Laid` says
which written words a stretch of text holds, without saying how they are found, and `Ahead` what can
stand at the start of a text.

Reading one word is determined by what stands ahead (`Scan.word_written` and the three lemmas behind
it).  Reading word after word therefore finds exactly the words that are laid out, and where each of
them stands (`Source.words_of_laid`, `Source.laid_of_words`).  For a whole source this is
`Source.words_iff_shows`.
-/

namespace StackMachine

/-! ## Gaps -/

@[simp]
theorem lineFeeds_nil : lineFeeds [] = 0 :=
  rfl

@[simp]
theorem lineFeeds_append (front back : List Char) :
    lineFeeds (front ++ back) = lineFeeds front + lineFeeds back :=
  List.count_append

theorem lineFeeds_eq_zero {text : List Char} (oneLine : '\n' ∉ text) : lineFeeds text = 0 :=
  List.count_eq_zero_of_not_mem oneLine

/-- Separators and comments that go to the end of their line. -/
inductive IsGap : List Char → Prop
  | nil : IsGap []
  | separator {c : Char} {gap : List Char} :
      isSeparator c = true → IsGap gap → IsGap (c :: gap)
  | comment {content gap : List Char} :
      '\n' ∉ content → IsGap gap → IsGap (';' :: (content ++ '\n' :: gap))

/-- What may stand behind the last gap of a text: nothing, or a comment without a line end. -/
def IsEnding (text : List Char) : Prop :=
  text = [] ∨ ∃ content, text = ';' :: content ∧ '\n' ∉ content

/-- A text that begins with a word. -/
def BeginsWord (text : List Char) : Prop :=
  ∃ first rest, text = first :: rest ∧ isSeparator first = false ∧ first ≠ ';'

/-- Every text begins with a gap, up to its end or to a word. -/
theorem exists_gap (text : List Char) :
    ∃ gap rest, text = gap ++ rest ∧ IsGap gap ∧ (IsEnding rest ∨ BeginsWord rest) := by
  match text with
  | [] => exact ⟨[], [], rfl, .nil, .inl (.inl rfl)⟩
  | c :: text =>
      by_cases isSeparator : isSeparator c = true
      · obtain ⟨gap, rest, rfl, isGap, behind⟩ := exists_gap text
        exact ⟨c :: gap, rest, rfl, .separator isSeparator isGap, behind⟩
      rw [Bool.not_eq_true] at isSeparator
      by_cases isComment : c = ';'
      · subst isComment
        by_cases ends : '\n' ∈ text
        · obtain ⟨content, later, rfl, oneLine⟩ := List.eq_append_cons_of_mem ends
          obtain ⟨gap, rest, rfl, isGap, behind⟩ := exists_gap later
          exact ⟨';' :: (content ++ '\n' :: gap), rest, by simp, .comment oneLine isGap, behind⟩
        · exact ⟨[], _, rfl, .nil, .inl (.inr ⟨text, rfl, ends⟩)⟩
      · exact ⟨[], _, rfl, .nil, .inr ⟨c, text, rfl, isSeparator, isComment⟩⟩
termination_by text.length
decreasing_by all_goals simp_all; try omega

/-- A gap is passed over, and its line feeds are counted. -/
theorem IsGap.skipGap {gap : List Char} (isGap : IsGap gap) (row : Nat) (rest : List Char) :
    skipGap false row (gap ++ rest) = StackMachine.skipGap false (row + lineFeeds gap) rest := by
  induction isGap generalizing row with
  | nil => rfl
  | @separator c gap isSeparator isGap ih =>
      by_cases lineFeed : c = '\n'
      · subst lineFeed
        have counted : lineFeeds ('\n' :: gap) = lineFeeds gap + 1 := List.count_cons_self
        rw [List.cons_append, StackMachine.skipGap, if_pos (by rfl), ih, counted, Nat.add_assoc,
          Nat.add_comm 1]
      · have step : StackMachine.skipGap false row (c :: gap ++ rest) =
            StackMachine.skipGap false row (gap ++ rest) := by
          simp [StackMachine.skipGap, lineFeed, isSeparator]
        rw [step, ih]
        simp [lineFeeds, lineFeed]
  | @comment content gap oneLine isGap ih =>
      have begin : StackMachine.skipGap false row (';' :: (content ++ '\n' :: gap) ++ rest) =
          StackMachine.skipGap true row (content ++ '\n' :: (gap ++ rest)) := by
        simp [StackMachine.skipGap, isSeparator]
      rw [begin, skipGap_comment (fun c mem same => oneLine (same ▸ mem)), StackMachine.skipGap,
        if_pos (by rfl), ih]
      have counted : lineFeeds (';' :: (content ++ '\n' :: gap)) = lineFeeds gap + 1 := by
        have none := lineFeeds_eq_zero oneLine
        simp only [lineFeeds] at none ⊢
        simp [none]
      rw [counted, Nat.add_assoc, Nat.add_comm 1]

theorem IsEnding.skipGap {rest : List Char} (isEnding : IsEnding rest) (row : Nat) :
    skipGap false row rest = (row, []) := by
  rcases isEnding with rfl | ⟨content, rfl, oneLine⟩
  · rfl
  · have begin : StackMachine.skipGap false row (';' :: content) =
        StackMachine.skipGap true row (content ++ []) := by
      simp [StackMachine.skipGap, isSeparator]
    rw [begin, skipGap_comment (fun c mem same => oneLine (same ▸ mem))]
    rfl

/-- A separator at its start does not make a gap. -/
theorem isGap_cons_separator_iff {c : Char} {gap : List Char} (separator : isSeparator c = true) :
    IsGap (c :: gap) ↔ IsGap gap := by
  constructor
  · intro isGap
    cases isGap with
    | separator _ isGap => exact isGap
    | comment oneLine isGap => cases separator
  · exact .separator separator

/-! ## Written words -/

namespace Item

/-- A text that may stand behind a written word: behind a bare word a separator, or nothing if the
text simply ends there. -/
def Ends (fault : Option ReadFault) : Item → List Char → Prop
  | .quoted _, _ => True
  | .bare _, [] => fault = none
  | .bare _, c :: _ => isSeparator c = true

/-- What is taken together with a word: the separator behind a bare word. -/
def taken : Item → List Char → List Char
  | .quoted _, _ => []
  | .bare _, behind => behind.take 1

/-- What is left behind a word. -/
def left : Item → List Char → List Char
  | .quoted _, behind => behind
  | .bare _, behind => behind.drop 1

theorem taken_append_left (item : Item) (behind : List Char) :
    item.taken behind ++ item.left behind = behind := by
  cases item with
  | quoted word => rfl
  | bare word => exact List.take_append_drop 1 behind

/-- A readable word begins with a character that ends gaps. -/
theorem Readable.beginsWord {item : Item} (readable : item.Readable) (behind : List Char) :
    BeginsWord (item.chars ++ behind) := by
  cases item with
  | quoted word => exact ⟨'"', _, rfl, rfl, by decide⟩
  | bare word =>
      obtain ⟨first, rest, chars, noSeparator, noComment, -, -⟩ := ReadsBare.exists_cons readable
      exact ⟨first, rest ++ behind, by rw [Item.chars, chars]; rfl, noSeparator, noComment⟩

end Item

/-- The cursor behind a word that stands behind a gap. -/
def Cursor.past (cursor : Cursor) (gap : List Char) (item : Item) (behind : List Char) :
    Cursor where
  text := item.left behind
  row := cursor.row + lineFeeds (gap ++ (item.chars ++ item.taken behind))
  wordRow := cursor.row + lineFeeds gap

/-- What can stand at the start of a text that ends with a fault or simply ends: a gap, and behind
it the end, a literal without its closing quote, a word, or a bare word that the fault cuts
short. -/
inductive Ahead (fault : Option ReadFault) : List Char → Prop
  | ending {gap rest : List Char} : IsGap gap → IsEnding rest → Ahead fault (gap ++ rest)
  | openLiteral {gap content : List Char} :
      IsGap gap → '"' ∉ content → Ahead fault (gap ++ '"' :: content)
  | word {gap behind : List Char} {item : Item} :
      IsGap gap → item.Readable → item.Ends fault behind →
      Ahead fault (gap ++ (item.chars ++ behind))
  | cutShort {gap : List Char} {content : String} {failure : ReadFault} :
      IsGap gap → ReadsBare content → fault = some failure → Ahead fault (gap ++ content.toList)

theorem ahead_of_text (fault : Option ReadFault) (text : List Char) : Ahead fault text := by
  obtain ⟨gap, rest, rfl, isGap, isEnding | ⟨first, rest, rfl, noSeparator, noComment⟩⟩ :=
    exists_gap text
  · exact .ending isGap isEnding
  by_cases quote : first = '"'
  · subst quote
    by_cases closes : '"' ∈ rest
    · obtain ⟨content, behind, rfl, noQuote⟩ := List.eq_append_cons_of_mem closes
      have readable : (Item.quoted (String.ofList content)).Readable := by
        rwa [Item.Readable, String.toList_ofList]
      have written : '"' :: (content ++ '"' :: behind) =
          (Item.quoted (String.ofList content)).chars ++ behind := by
        simp [Item.chars]
      rw [written]
      exact .word isGap readable trivial
    · exact .openLiteral isGap closes
  · let content := first :: rest.takeWhile fun c => !isSeparator c
    have readsBare : ReadsBare (String.ofList content) := by
      refine ⟨⟨?_, ?_, ?_⟩, ?_⟩ <;> rw [String.toList_ofList]
      · exact List.cons_ne_nil _ _
      · refine List.forall_mem_cons.mpr ⟨noSeparator, fun c mem => ?_⟩
        simpa using List.mem_takeWhile_imp mem
      · exact fun same => noComment (Option.some.inj same)
      · exact fun same => quote (Option.some.inj same)
    have written : first :: rest =
        (String.ofList content).toList ++ rest.dropWhile fun c => !isSeparator c := by
      simp [content]
    rw [written]
    cases behind : rest.dropWhile fun c => !isSeparator c with
    | nil =>
        cases isFault : fault with
        | none => exact @Ahead.word none gap [] (.bare _) isGap readsBare rfl
        | some failure =>
            rw [List.append_nil]
            exact .cutShort isGap readsBare rfl
    | cons c tail =>
        have stops := List.head_dropWhile_not (fun c => !isSeparator c) (l := rest)
          (by simp [behind])
        have isSeparator : isSeparator c = true := by simpa [behind] using stops
        exact @Ahead.word fault gap (c :: tail) (.bare _) isGap readsBare isSeparator

namespace Scan

variable {source : Source} {cursor : Cursor} {gap : List Char} (isGap : IsGap gap)

include isGap

theorem skipGap_of_text {rest : List Char} (text : cursor.text = gap ++ rest) :
    skipGap false cursor.row cursor.text = skipGap false (cursor.row + lineFeeds gap) rest := by
  rw [text, isGap.skipGap]

/-- A word that stands behind a gap is read. -/
theorem word_written {item : Item} {behind : List Char} (readable : item.Readable)
    (ends : item.Ends source.input.fault behind)
    (text : cursor.text = gap ++ (item.chars ++ behind)) :
    word source cursor = .ok (item.word, cursor.past gap item behind) := by
  have gapEnds := skipGap_of_text isGap text
  cases item with
  | quoted content =>
      have all : ∀ c ∈ content.toList, (c != '"') = true := by
        intro c mem
        rw [bne_iff_ne]
        rintro rfl
        exact readable mem
      rw [Item.chars, List.cons_append, List.append_assoc,
        skipGap_word (by rfl) (by decide)] at gapEnds
      have content_eq : (content.toList ++ (['"'] ++ behind)).takeWhile (· != '"') =
          content.toList := by
        rw [List.takeWhile_append_of_pos all]
        simp
      have behind_eq : (content.toList ++ (['"'] ++ behind)).dropWhile (· != '"') =
          '"' :: behind := by
        rw [List.dropWhile_append_of_pos all]
        simp
      simp only [word, Cursor.nextWord, gapEnds, beq_self_eq_true, if_true, Cursor.literal,
        content_eq, behind_eq]
      simp [Item.word, Cursor.past, Item.left, Item.taken, Item.chars, lineFeeds, Nat.add_assoc]
  | bare content =>
      obtain ⟨first, rest, chars, noSeparator, noComment, noQuote, noSeparators⟩ :=
        ReadsBare.exists_cons readable
      have all : ∀ c ∈ rest, (!isSeparator c) = true := fun c mem => by
        rw [noSeparators c mem]
        rfl
      have isBare : (first == '"') = false := by simpa using noQuote
      have oneLine : lineFeeds content.toList = 0 :=
        lineFeeds_eq_zero fun mem => ne_lineFeed_of_not_separator (readable.1.2.1 _ mem) rfl
      have same : String.ofList (first :: rest) = content := by
        rw [← chars, String.ofList_toList]
      rw [Item.chars, chars, List.cons_append, skipGap_word noSeparator noComment] at gapEnds
      cases behind with
      | nil =>
          have noFault : source.input.fault = none := ends
          simp only [word, Cursor.nextWord, gapEnds, isBare, Bool.false_eq_true, if_false,
            Cursor.bareWord, noFault, List.append_nil, List.takeWhile_eq_self_iff.mpr all,
            List.dropWhile_eq_nil_iff.mpr all]
          simp [Item.word, Cursor.past, Item.left, Item.taken, Item.chars, oneLine, same]
      | cons separator behind =>
          have stops : isSeparator separator = true := ends
          have taken_eq : (rest ++ separator :: behind).takeWhile (fun c => !isSeparator c) =
              rest := by
            rw [List.takeWhile_append_of_pos all]
            simp [stops]
          have left_eq : (rest ++ separator :: behind).dropWhile (fun c => !isSeparator c) =
              separator :: behind := by
            rw [List.dropWhile_append_of_pos all]
            simp [stops]
          simp only [word, Cursor.nextWord, gapEnds, isBare, Bool.false_eq_true, if_false,
            Cursor.bareWord, taken_eq, left_eq]
          simp [Item.word, Cursor.past, Item.left, Item.taken, Item.chars, oneLine, same,
            Nat.add_assoc]

/-- Behind the last gap there is no word. -/
theorem word_ending {rest : List Char} (isEnding : IsEnding rest)
    (text : cursor.text = gap ++ rest) :
    word source cursor = .error (source.input.fault.map .unreadable) := by
  have gapEnds := skipGap_of_text isGap text
  rw [isEnding.skipGap] at gapEnds
  cases fault : source.input.fault <;> simp [word, Cursor.nextWord, gapEnds, fault]

/-- A literal without its closing quote is reported on the row of its opening quote, unless the
device is to blame. -/
theorem word_openLiteral {content : List Char} (noQuote : '"' ∉ content)
    (text : cursor.text = gap ++ '"' :: content) :
    word source cursor = .error (some (source.input.fault.elim
      (.malformed ⟨source.name, cursor.row + lineFeeds gap, "\"" ++ String.ofList content,
        .unterminatedLiteral⟩) .unreadable)) := by
  have all : ∀ c ∈ content, (c != '"') = true := by
    intro c mem
    rw [bne_iff_ne]
    rintro rfl
    exact noQuote mem
  have gapEnds := skipGap_of_text isGap text
  rw [skipGap_word (by rfl) (by decide)] at gapEnds
  cases fault : source.input.fault <;>
    simp [word, Cursor.nextWord, gapEnds, Cursor.literal, fault,
      List.takeWhile_eq_self_iff.mpr all, List.dropWhile_eq_nil_iff.mpr all]

/-- A bare word that the failure of the device cuts short is not read. -/
theorem word_cutShort {content : String} {fault : ReadFault}
    (readsBare : ReadsBare content) (failing : source.input.fault = some fault)
    (text : cursor.text = gap ++ content.toList) :
    word source cursor = .error (some (.unreadable fault)) := by
  obtain ⟨first, rest, chars, noSeparator, noComment, noQuote, noSeparators⟩ :=
    readsBare.exists_cons
  have all : ∀ c ∈ rest, (!isSeparator c) = true := fun c mem => by
    rw [noSeparators c mem]
    rfl
  have isBare : (first == '"') = false := by simpa using noQuote
  have gapEnds := skipGap_of_text isGap text
  rw [chars, skipGap_word noSeparator noComment] at gapEnds
  simp [word, Cursor.nextWord, gapEnds, isBare, Cursor.bareWord, failing,
    List.dropWhile_eq_nil_iff.mpr all]

end Scan

namespace Scan

variable {source : Source} {cursor : Cursor}

/-- A word is read exactly if it stands behind the gap ahead. -/
theorem word_eq_ok_iff {text : String} {after : Cursor} :
    word source cursor = .ok (text, after) ↔
      ∃ gap item behind, cursor.text = gap ++ (item.chars ++ behind) ∧ IsGap gap ∧
        item.Readable ∧ item.Ends source.input.fault behind ∧ text = item.word ∧
        after = cursor.past gap item behind := by
  constructor
  · intro read
    have ahead := ahead_of_text source.input.fault cursor.text
    generalize isText : cursor.text = chars at ahead
    cases ahead with
    | ending isGap isEnding =>
        rw [word_ending isGap isEnding isText] at read
        cases read
    | openLiteral isGap noQuote =>
        rw [word_openLiteral isGap noQuote isText] at read
        cases read
    | @word gap behind item isGap readable ends =>
        rw [word_written isGap readable ends isText] at read
        cases read
        exact ⟨gap, item, behind, rfl, isGap, readable, ends, rfl, rfl⟩
    | cutShort isGap readsBare failing =>
        rw [word_cutShort isGap readsBare failing isText] at read
        cases read
  · rintro ⟨gap, item, behind, isText, isGap, readable, ends, rfl, rfl⟩
    exact word_written isGap readable ends isText

/-- There is no further word exactly if nothing but a last gap is left of a text that simply
ends. -/
theorem word_eq_none_iff :
    word source cursor = .error none ↔
      source.input.fault = none ∧
        ∃ gap rest, cursor.text = gap ++ rest ∧ IsGap gap ∧ IsEnding rest := by
  constructor
  · intro stopped
    have ahead := ahead_of_text source.input.fault cursor.text
    generalize isText : cursor.text = chars at ahead
    cases ahead with
    | @ending gap rest isGap isEnding =>
        rw [word_ending isGap isEnding isText, Except.error.injEq, Option.map_eq_none_iff]
          at stopped
        exact ⟨stopped, gap, rest, rfl, isGap, isEnding⟩
    | openLiteral isGap noQuote =>
        rw [word_openLiteral isGap noQuote isText] at stopped
        cases stopped
    | word isGap readable ends =>
        rw [word_written isGap readable ends isText] at stopped
        cases stopped
    | cutShort isGap readsBare failing =>
        rw [word_cutShort isGap readsBare failing isText] at stopped
        cases stopped
  · rintro ⟨noFault, gap, rest, isText, isGap, isEnding⟩
    rw [word_ending isGap isEnding isText, noFault]
    rfl

/-- A word is malformed only if it is a literal without its closing quote. -/
theorem word_eq_malformed {error : SyntaxError}
    (stopped : word source cursor = .error (some (.malformed error))) :
    ∃ gap content, cursor.text = gap ++ '"' :: content ∧ IsGap gap ∧ '"' ∉ content ∧
      error = ⟨source.name, cursor.row + lineFeeds gap, "\"" ++ String.ofList content,
        .unterminatedLiteral⟩ := by
  have ahead := ahead_of_text source.input.fault cursor.text
  generalize isText : cursor.text = chars at ahead
  cases ahead with
  | ending isGap isEnding =>
      rw [word_ending isGap isEnding isText] at stopped
      cases fault : source.input.fault <;> rw [fault] at stopped <;> cases stopped
  | @openLiteral gap content isGap noQuote =>
      rw [word_openLiteral isGap noQuote isText] at stopped
      cases fault : source.input.fault <;> rw [fault] at stopped <;> cases stopped
      exact ⟨gap, content, rfl, isGap, noQuote, rfl⟩
  | word isGap readable ends =>
      rw [word_written isGap readable ends isText] at stopped
      cases stopped
  | cutShort isGap readsBare failing =>
      rw [word_cutShort isGap readsBare failing isText] at stopped
      cases stopped

end Scan

/-! ## Words in a row -/

/-- The written words that a stretch of text holds, with gaps around them.  What comes behind the
stretch matters for its last word only. -/
inductive Laid (fault : Option ReadFault) (rest : List Char) : List Item → List Char → Prop
  | gap {gap : List Char} : IsGap gap → Laid fault rest [] gap
  | word {gap front : List Char} {item : Item} {items : List Item} :
      IsGap gap → item.Readable → item.Ends fault (front ++ rest) → Laid fault rest items front →
      Laid fault rest (item :: items) (gap ++ (item.chars ++ front))

section Laid

variable {fault : Option ReadFault} {rest front : List Char} {items : List Item}

/-- A separator at the start of a stretch belongs to its first gap. -/
theorem laid_cons_separator_iff {c : Char} (separator : isSeparator c = true) :
    Laid fault rest items (c :: front) ↔ Laid fault rest items front := by
  constructor
  · intro laid
    generalize same : c :: front = stretch at laid
    cases laid with
    | gap isGap =>
        subst same
        exact .gap ((isGap_cons_separator_iff separator).mp isGap)
    | @word gap behind item items isGap readable ends laid =>
        cases gap with
        | nil =>
            obtain ⟨first, _, chars, noSeparator, -⟩ := readable.beginsWord behind
            rw [List.nil_append, chars] at same
            cases same
            rw [separator] at noSeparator
            cases noSeparator
        | cons d gap =>
            cases same
            exact .word ((isGap_cons_separator_iff separator).mp isGap) readable ends laid
  · intro laid
    cases laid with
    | gap isGap => exact .gap (.separator separator isGap)
    | word isGap readable ends laid =>
        exact .word (.separator separator isGap) readable ends laid

/-- What is taken together with a word belongs to the gap behind it. -/
theorem Item.Ends.laid_iff {item : Item} {behind : List Char} (ends : item.Ends fault behind) :
    Laid fault rest items (item.taken behind ++ front) ↔ Laid fault rest items front := by
  match item, behind, ends with
  | .quoted _, _, _ => exact Iff.rfl
  | .bare _, [], _ => exact Iff.rfl
  | .bare _, _ :: _, separator => exact laid_cons_separator_iff separator

/-- Where something other than a separator follows, what is taken together with a word is part of
the stretch behind the word. -/
theorem Item.Ends.exists_left {item : Item} (ends : item.Ends fault (front ++ rest))
    (noSeparator : ∀ c, rest.head? = some c → isSeparator c = false) :
    ∃ stretch, front = item.taken (front ++ rest) ++ stretch ∧
      item.left (front ++ rest) = stretch ++ rest := by
  cases item with
  | quoted word => exact ⟨front, rfl, rfl⟩
  | bare word =>
      cases front with
      | cons c front => exact ⟨front, rfl, rfl⟩
      | nil =>
          cases rest with
          | nil => exact ⟨[], rfl, rfl⟩
          | cons c rest =>
              have separator : isSeparator c = true := ends
              rw [noSeparator c rfl] at separator
              cases separator

end Laid

theorem IsEnding.noSeparator {rest : List Char} (isEnding : IsEnding rest) (c : Char)
    (head : rest.head? = some c) : isSeparator c = false := by
  rcases isEnding with rfl | ⟨content, rfl, -⟩ <;> cases head
  rfl

theorem BeginsWord.noSeparator {rest : List Char} (beginsWord : BeginsWord rest) (c : Char)
    (head : rest.head? = some c) : isSeparator c = false := by
  obtain ⟨first, tail, rfl, noSeparator, -⟩ := beginsWord
  cases head
  exact noSeparator

namespace Source

variable {source : Source} {cursor after : Cursor} {rest : List Char}

/-- The words that are laid out in a stretch are read one after the other. -/
theorem words_of_laid {items : List Item} {front : List Char}
    (laid : Laid source.input.fault rest items front) (text : cursor.text = front ++ rest)
    (noSeparator : ∀ c, rest.head? = some c → isSeparator c = false) :
    ∃ after gap, source.Words cursor (items.map Item.word) after ∧ IsGap gap ∧
      after.text = gap ++ rest ∧ after.row + lineFeeds gap = cursor.row + lineFeeds front := by
  induction items generalizing cursor front with
  | nil =>
      cases laid with
      | gap isGap => exact ⟨cursor, front, .nil cursor, isGap, text, rfl⟩
  | cons item items ih =>
      cases laid with
      | @word gap front _ _ isGap readable ends laid =>
          rw [List.append_assoc, List.append_assoc] at text
          have read := Scan.word_written isGap readable ends text
          -- The separator behind a bare word is gone when the next word is read.
          obtain ⟨stretch, isFront, isLeft⟩ := ends.exists_left noSeparator
          have passed : (cursor.past gap item (front ++ rest)).text = stretch ++ rest := isLeft
          have counted := congrArg lineFeeds isFront
          rw [isFront] at laid
          obtain ⟨after, last, words, isLast, behind, row⟩ := ih (ends.laid_iff.mp laid) passed
          refine ⟨after, last, .cons read words, isLast, behind, row.trans ?_⟩
          simp only [Cursor.past, lineFeeds_append] at counted ⊢
          omega

/-- The words that are read one after the other are laid out in the stretch that was passed. -/
theorem laid_of_words {words : List String} {gap : List Char}
    (read : source.Words cursor words after) (isGap : IsGap gap)
    (text : after.text = gap ++ rest) :
    ∃ items front, items.map Item.word = words ∧ Laid source.input.fault rest items front ∧
      cursor.text = front ++ rest ∧ after.row + lineFeeds gap = cursor.row + lineFeeds front := by
  induction read with
  | nil cursor => exact ⟨[], gap, rfl, .gap isGap, text, rfl⟩
  | cons isWord words ih =>
      obtain ⟨items, stretch, rfl, laid, behind, row⟩ := ih text
      obtain ⟨before, item, left, isText, isGap, readable, ends, rfl, rfl⟩ :=
        Scan.word_eq_ok_iff.mp isWord
      have passed : item.taken left ++ stretch ++ rest = left := by
        rw [List.append_assoc, ← behind]
        exact item.taken_append_left left
      have closed : item.Ends source.input.fault (item.taken left ++ stretch ++ rest) := by
        rwa [passed]
      refine ⟨item :: items, before ++ (item.chars ++ (item.taken left ++ stretch)), rfl,
        .word isGap readable closed (ends.laid_iff.mpr laid), ?_, row.trans ?_⟩
      · rw [isText, List.append_assoc, List.append_assoc, passed]
      · simp only [Cursor.past, lineFeeds_append]
        omega

/-- A source that shows some written words: they are laid out in it, and what is left behind them is
at most a comment without a line end. -/
def Shows (source : Source) (items : List Item) : Prop :=
  ∃ front rest, source.input.unread = front ++ rest ∧
    Laid source.input.fault rest items front ∧ IsEnding rest

/-- Reading word after word, up to the end of the text, gives exactly the words that a source
shows, whatever gaps stand around them. -/
theorem words_iff_shows (source : Source) (words : List String) :
    (∃ last, source.Words (.start source.input.unread) words last ∧
      Scan.word source last = .error none) ↔
    source.input.fault = none ∧ ∃ items, source.Shows items ∧ items.map Item.word = words := by
  constructor
  · rintro ⟨last, read, ended⟩
    obtain ⟨noFault, gap, rest, text, isGap, isEnding⟩ := Scan.word_eq_none_iff.mp ended
    obtain ⟨items, front, isWords, laid, isText, -⟩ := laid_of_words read isGap text
    exact ⟨noFault, items, ⟨front, rest, isText, laid, isEnding⟩, isWords⟩
  · rintro ⟨noFault, items, ⟨front, rest, text, laid, isEnding⟩, rfl⟩
    have isText : (Cursor.start source.input.unread).text = front ++ rest := text
    obtain ⟨last, gap, read, isGap, behind, -⟩ := words_of_laid laid isText isEnding.noSeparator
    exact ⟨last, read, Scan.word_eq_none_iff.mpr ⟨noFault, gap, rest, behind, isGap, isEnding⟩⟩

/-- A source with a comment before a literal, a bare word right behind the literal, and a comment
that the text ends in. -/
def crowded : Source where
  name := "crowded"
  input := ⟨"; one\r\n\"a ;\nb\"c\"d ;e".toList, none⟩

theorem words_iff_shows_crowded :
    ∃ last, crowded.Words (.start crowded.input.unread) ["a ;\nb", "c\"d"] last ∧
      Scan.word crowded last = .error none := by
  refine (words_iff_shows crowded _).mpr ⟨rfl, [.quoted "a ;\nb", .bare "c\"d"], ?_, rfl⟩
  have lastGap : Laid none [';', 'e'] [] [' '] := .gap (.separator rfl .nil)
  have bareWord : Laid none [';', 'e'] [.bare "c\"d"] ([] ++ ("c\"d".toList ++ [' '])) :=
    .word .nil (by simp [Item.Readable, ReadsBare, IsBare, isSeparator]) rfl lastGap
  have oneLine : '\n' ∉ " one\r".toList := by decide
  have literal := Laid.word (.comment oneLine .nil)
    (show (Item.quoted "a ;\nb").Readable by simp [Item.Readable]) trivial bareWord
  exact ⟨_, [';', 'e'], by simp [crowded, Item.chars], literal, .inr ⟨['e'], rfl, by decide⟩⟩

end Source

end StackMachine
