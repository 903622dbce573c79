import Mathlib
import StackMachine.Proofs.Source.Comments

/-!
# One text behind another

A text that ends with a line feed leaves nothing open: its last word has come to its end, and so has
its last comment.  What stands behind it is read as it would be on its own, so the tokens of the two
texts together are those of the first and then those of the second (`Spells.append`).

`Spells` says which tokens a text consists of without saying how they are found; they are the tokens
of a source with that text (`spells_iff`).  A text can therefore be read line by line
(`spells_lines`), and if its lines make up the tokens of a program, it is assembled into that
program (`Spells.assemble`).
-/

namespace StackMachine

/-! ## Stretches in a row -/

theorem IsGap.append {gap more : List Char} (isGap : IsGap gap) (isMore : IsGap more) :
    IsGap (gap ++ more) := by
  induction isGap with
  | nil => exact isMore
  | separator isSeparator _ ih => exact .separator isSeparator ih
  | comment oneLine _ ih =>
      rw [List.cons_append, List.append_assoc, List.cons_append]
      exact .comment oneLine ih

/-- The last character of a written word is no separator. -/
theorem Item.Readable.last_not_separator {item : Item} (readable : item.Readable) {c : Char}
    (last : item.chars.getLast? = some c) : isSeparator c = false := by
  cases item with
  | quoted word =>
      have isQuote : (Item.quoted word).chars.getLast? = some '"' := by
        simp [Item.chars, List.getLast?_cons]
      rw [isQuote] at last
      cases last
      rfl
  | bare word => exact readable.1.2.1 c (List.mem_of_getLast? last)

namespace Laid

variable {fault : Option ReadFault} {rest front back : List Char} {items more : List Item}

/-- A gap before a stretch belongs to the first gap of the stretch. -/
theorem gap_append {gap : List Char} (isGap : IsGap gap) (laid : Laid fault rest items front) :
    Laid fault rest items (gap ++ front) := by
  cases laid with
  | gap isFirst => exact .gap (isGap.append isFirst)
  | word isFirst readable ends laid =>
      rw [← List.append_assoc]
      exact .word (isGap.append isFirst) readable ends laid

/-- Two stretches in a row are a stretch. -/
theorem append (laid : Laid fault (back ++ rest) items front) (behind : Laid fault rest more back) :
    Laid fault rest (items ++ more) (front ++ back) := by
  induction laid with
  | gap isGap => exact behind.gap_append isGap
  | @word gap front item items isGap readable ends _ ih =>
      rw [List.append_assoc, List.append_assoc, List.cons_append]
      rw [← List.append_assoc] at ends
      exact .word isGap readable ends ih

/-- In a stretch that ends with a separator every word has come to its end, whatever comes
behind. -/
theorem of_last_separator (laid : Laid fault rest items front) {c : Char}
    (last : front.getLast? = some c) (separator : isSeparator c = true) (other : List Char) :
    Laid fault other items front := by
  induction laid with
  | gap isGap => exact .gap isGap
  | @word gap front item items isGap readable ends _ ih =>
      cases front with
      | nil =>
          -- The word itself would end with the separator.
          have nonempty : item.chars ≠ [] := by
            obtain ⟨first, tail, chars, -⟩ := readable.beginsWord []
            rw [List.append_nil] at chars
            rw [chars]
            exact List.cons_ne_nil first tail
          rw [List.append_nil, List.getLast?_append_of_ne_nil _ nonempty] at last
          rw [readable.last_not_separator last] at separator
          cases separator
      | cons first front =>
          rw [← List.append_assoc, List.getLast?_append_of_ne_nil _ (List.cons_ne_nil _ _)] at last
          refine .word isGap readable ?_ (ih last)
          cases item with
          | quoted word => exact trivial
          | bare word => exact ends

/-- Bare words, each with a separator behind it. -/
theorem bareWords (fault : Option ReadFault) (rest : List Char) {words : List (String × Char)}
    (each : ∀ word ∈ words, ReadsBare word.1 ∧ isSeparator word.2 = true) :
    Laid fault rest (words.map fun word => .bare word.1)
      (words.flatMap fun word => word.1.toList ++ [word.2]) := by
  induction words with
  | nil => exact .gap .nil
  | cons word words ih =>
      obtain ⟨⟨readsBare, separator⟩, each⟩ := List.forall_mem_cons.mp each
      rw [List.flatMap_cons, List.append_assoc]
      exact @Laid.word fault rest [] _ (.bare word.1) _ .nil readsBare separator
        ((laid_cons_separator_iff separator).mpr (ih each))

end Laid

/-! ## The tokens of a text -/

/-- A text that holds the words of some tokens, and behind them at most a comment without a line
end. -/
def Spells (text : List Char) (tokens : List Token) : Prop :=
  ∃ items front rest, text = front ++ rest ∧ Laid none rest items front ∧ IsEnding rest ∧
    Token.Spelled tokens (items.map Item.word)

/-- A text spells the tokens of a source that consists of it, if all of it can be scanned, and no
others. -/
theorem spells_iff (name : String) (text : List Char) (tokens : List Token) :
    Spells text tokens ↔
      (Source.mk name ⟨text, none⟩).instructions.failure = none ∧
        (Source.mk name ⟨text, none⟩).tokens = tokens := by
  let source : Source := ⟨name, ⟨text, none⟩⟩
  change _ ↔ source.instructions.failure = none ∧ source.tokens = tokens
  constructor
  · rintro ⟨items, front, rest, isText, laid, isEnding, spelled⟩
    have begins : (Cursor.start source.input.unread).text = front ++ rest := isText
    have laidIn : Laid source.input.fault rest items front := laid
    obtain ⟨last, gap, read, isGap, behind, -⟩ :=
      Source.words_of_laid laidIn begins isEnding.noSeparator
    have ended : Scan.word source last = .error none :=
      Scan.word_eq_none_iff.mpr ⟨rfl, gap, rest, behind, isGap, isEnding⟩
    obtain ⟨instructions, scans, same⟩ := Source.scans_of_spelled spelled read
    have isStream : source.instructions = ⟨instructions, none⟩ :=
      Tokenizer.streamFrom_eq_iff.mpr
        ⟨last, scans, Scan.instruction_eq_error_iff.mpr (.keyword ended)⟩
    rw [Source.tokens, isStream]
    exact ⟨rfl, same⟩
  · rintro ⟨complete, rfl⟩
    obtain ⟨last, scans, stops⟩ :=
      Tokenizer.exists_scans_streamFrom source (.start source.input.unread)
    have stopped : Scan.instruction source last = .error none := stops.trans (congrArg _ complete)
    obtain ⟨words, read, spelled⟩ := scans.spelled
    obtain ⟨-, gap, rest, behind, isGap, isEnding⟩ :=
      Scan.word_eq_none_iff.mp (Scan.instruction_eq_error_iff.mp stopped).word_eq_none
    obtain ⟨items, front, rfl, laid, isText, -⟩ := Source.laid_of_words read isGap behind
    exact ⟨items, front, rest, isText, laid, isEnding, spelled⟩

theorem Token.Spelled.append {tokens more : List Token} {words behind : List String}
    (spelled : Spelled tokens words) (later : Spelled more behind) :
    Spelled (tokens ++ more) (words ++ behind) := by
  induction spelled with
  | nil => exact later
  | cons isOpcode made _ ih =>
      rw [List.cons_append, List.cons_append, List.append_assoc]
      exact .cons isOpcode made ih

/-- A text that ends with a line feed has no comment that is still open. -/
theorem IsEnding.eq_nil_of_last {front rest : List Char} (isEnding : IsEnding rest)
    (last : (front ++ rest).getLast? = some '\n') : rest = [] := by
  rcases isEnding with rfl | ⟨content, rfl, oneLine⟩
  · rfl
  · rw [List.getLast?_append_of_ne_nil _ (List.cons_ne_nil _ _)] at last
    rcases List.mem_cons.mp (List.mem_of_getLast? last) with same | mem
    · exact absurd same (by decide)
    · exact absurd mem oneLine

/-- Behind a text that ends with a line feed another is read as it is on its own. -/
theorem Spells.append {text behind : List Char} {tokens more : List Token}
    (spells : Spells text tokens) (last : text.getLast? = some '\n') (later : Spells behind more) :
    Spells (text ++ behind) (tokens ++ more) := by
  obtain ⟨items, front, rest, rfl, laid, isEnding, spelled⟩ := spells
  obtain ⟨others, back, ending, rfl, laidBehind, endsBehind, spelledBehind⟩ := later
  obtain rfl := isEnding.eq_nil_of_last last
  rw [List.append_nil] at last ⊢
  refine ⟨items ++ others, front ++ back, ending, by rw [List.append_assoc],
    (laid.of_last_separator last rfl _).append laidBehind, endsBehind, ?_⟩
  rw [List.map_append]
  exact spelled.append spelledBehind

/-- Bare words, each with a separator behind it, spell the tokens that they make. -/
theorem spells_bareWords {words : List (String × Char)} {tokens : List Token}
    (each : ∀ word ∈ words, ReadsBare word.1 ∧ isSeparator word.2 = true)
    (spelled : Token.Spelled tokens (words.map Prod.fst)) :
    Spells (words.flatMap fun word => word.1.toList ++ [word.2]) tokens := by
  refine ⟨words.map fun word => .bare word.1, _, [], by rw [List.append_nil],
    .bareWords none [] each, .inl rfl, ?_⟩
  rw [List.map_map]
  exact spelled

/-- A text is read line by line. -/
theorem spells_lines {lines : List (String × List Token)}
    (each : ∀ line ∈ lines, Spells (line.1.toList ++ ['\n']) line.2) :
    Spells (lines.flatMap fun line => line.1.toList ++ ['\n']) (lines.flatMap Prod.snd) := by
  induction lines with
  | nil => exact ⟨[], [], [], rfl, .gap .nil, .inl rfl, .nil⟩
  | cons line lines ih =>
      obtain ⟨first, each⟩ := List.forall_mem_cons.mp each
      exact first.append (by simp) (ih each)

/-- A text that spells the tokens of a layout is assembled into its program. -/
theorem Spells.assemble {text : List Char} {layout : Assembly.Layout}
    (spells : Spells text layout.tokens) (name : String) :
    (Source.mk name ⟨text, none⟩).assemble = .ok layout.program := by
  obtain ⟨complete, tokens⟩ := (spells_iff name text _).mp spells
  rw [Source.tokens] at tokens
  rw [Source.assemble]
  generalize (Source.mk name ⟨text, none⟩).instructions = stream at complete tokens
  obtain ⟨instructions, failure⟩ := stream
  obtain rfl : failure = none := complete
  exact TokenStream.assemble_eq_ok_iff.mpr ⟨layout, tokens.symm, rfl⟩

end StackMachine
