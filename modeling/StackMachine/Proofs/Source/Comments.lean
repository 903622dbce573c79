import Mathlib
import StackMachine.Proofs.Number.Characters
import StackMachine.Proofs.Source.Erasure
import StackMachine.Proofs.Source.Location

/-!
# What comments are to a source

Comments that begin where a word could begin can be erased: a source without them gives the same
instructions on the same rows and ends alike.  A semicolon inside a bare word begins no comment.  To
erase from there on severs the word, and that shows: tokens keep the words of their names and types,
and no number or keyword has a semicolon.  Only an instruction that fails anyway can hide it
(`Source.instructions_erased`).
-/

namespace StackMachine

/-! ## What a severed word changes -/

theorem foreign_semicolon : Foreign ';' where
  value := by decide
  lower := by decide
  mark := by decide

theorem Opcode.not_mem_of_ofKeyword? {keyword : String} {opcode : Opcode}
    (isOpcode : ofKeyword? keyword = some opcode) : ';' ∉ keyword.toList := by
  have satisfied := List.find?_some isOpcode
  simp only [Bool.and_eq_true, bne_iff_ne, beq_iff_eq] at satisfied
  have all : ∀ opcode ∈ named, ';' ∉ opcode.name.toList := by decide
  exact satisfied.2 ▸ all opcode (ofKeyword?_eq_some isOpcode).1

namespace Token.OfWords

variable {opcode : Opcode} {words others : List String} {token : Token}

/-- The words of a token are known from it, apart from those that spell numbers. -/
theorem same_words (made : OfWords opcode words token) (again : OfWords opcode others token) :
    List.Forall₂ (fun word other => ';' ∈ word.toList → other = word) words others := by
  have number {word : String} (noSemicolon : ';' ∉ word.toList) (other : String) :
      ';' ∈ word.toList → other = word := fun semicolon => absurd semicolon noSemicolon
  generalize isToken : token = same at again
  cases made with
  | bare takesNothing =>
      cases again with
      | bare => exact .nil
      | index takesIndex =>
          rw [Opcode.takesNothing_of_takesIndex takesIndex] at takesNothing
          cases takesNothing
      | _ => cases takesNothing
  | int read =>
      cases again with
      | int => exact .cons (number (foreign_semicolon.notMem_of_readInt32 read) _) .nil
      | bare takesNothing => cases takesNothing
      | index takesIndex => cases takesIndex
  | float read =>
      cases again with
      | float => exact .cons (number (foreign_semicolon.notMem_of_read? read) _) .nil
      | bare takesNothing => cases takesNothing
      | index takesIndex => cases takesIndex
  | index takesIndex read =>
      cases again with
      | bare takesNothing =>
          rw [Opcode.takesNothing_of_takesIndex takesIndex] at takesNothing
          cases takesNothing
      | index => exact .cons (number (foreign_semicolon.notMem_of_readIndex read) _) .nil
      | _ => cases takesIndex
  | literal readFirst readSecond =>
      cases again with
      | literal =>
          cases isToken
          exact .cons (number (foreign_semicolon.notMem_of_readIndex readFirst) _)
            (.cons (number (foreign_semicolon.notMem_of_readIndex readSecond) _)
              (.cons (fun _ => rfl) .nil))
      | bare takesNothing => cases takesNothing
      | index takesIndex => cases takesIndex
  | call =>
      cases again with
      | call =>
          cases isToken
          exact .cons (fun _ => rfl) .nil
      | bare takesNothing => cases takesNothing
      | index takesIndex => cases takesIndex
  | header read =>
      cases again with
      | header =>
          have injective := Function.LeftInverse.injective DeclaredType.text_ofWord
          simp only [Token.mk.injEq] at isToken
          obtain ⟨-, -, -, -, -, rfl, sameParams, sameResult⟩ := isToken
          obtain rfl := List.map_injective_iff.mpr injective sameParams
          obtain rfl := injective sameResult
          exact .cons (fun _ => rfl)
            (.cons (number (foreign_semicolon.notMem_of_readIndex read) _)
              (List.forall₂_same.mpr fun _ _ _ => rfl))
      | bare takesNothing => cases takesNothing
      | index takesIndex => cases takesIndex

end Token.OfWords

namespace Source

variable {source : Source} {cursor after last : Cursor}

/-- A word that is read alike from both texts, at least if it has a semicolon, is whole. -/
theorem wholeAt_of_word {text other : String} (isWord : Scan.word source cursor = .ok (text, after))
    (isOther : Scan.word (source.erased true) (cursor.erased true) = .ok (other, last))
    (same : ';' ∈ text.toList → other = text) : source.WholeAt true cursor := by
  intro gap item behind isText isGap readable ends
  cases item with
  | quoted word => trivial
  | bare word =>
      intro _ semicolon
      rw [Scan.word_written isGap readable ends isText] at isWord
      cases isWord
      have noSemicolon := Scan.not_mem_of_severed isText isGap readable semicolon isOther
      exact noSemicolon (same semicolon ▸ semicolon)

/-- So are words that are read one after the other. -/
theorem Words.whole {words others : List String} (read : source.Words cursor words after)
    (again : (source.erased true).Words (cursor.erased true) others last)
    (same : List.Forall₂ (fun word other => ';' ∈ word.toList → other = word) words others) :
    last = after.erased true ∧
      ∀ front back between, words = front ++ back → back ≠ [] →
        source.Words cursor front between → source.WholeAt true between := by
  induction read generalizing others with
  | nil cursor =>
      cases same
      refine ⟨words_nil_iff.mp again, fun front back between split nonempty _ => ?_⟩
      exact absurd (List.append_eq_nil_iff.mp split.symm).2 nonempty
  | @cons cursor middle after text texts isWord read ih =>
      cases same with
      | cons sameWord same =>
          obtain ⟨_, isOther, again⟩ := words_cons_iff.mp again
          have whole := wholeAt_of_word isWord isOther sameWord
          rw [Scan.word_erased isWord whole] at isOther
          cases isOther
          obtain ⟨isLast, wholes⟩ := ih again same
          refine ⟨isLast, fun front back between split nonempty readFront => ?_⟩
          cases readFront with
          | nil => exact whole
          | cons isFirst readFront =>
              rw [isWord] at isFirst
              cases isFirst
              exact wholes _ back between (List.cons.inj split).2 nonempty readFront

/-- Two readings from one cursor agree as far as both go. -/
theorem Words.prefix_or_prefix {words others : List String}
    (read : source.Words cursor words after) (again : source.Words cursor others last) :
    words <+: others ∨ others <+: words := by
  induction read generalizing others with
  | nil => exact .inl List.nil_prefix
  | cons isWord _ ih =>
      cases again with
      | nil => exact .inr List.nil_prefix
      | cons isWordAgain again =>
          rw [isWord] at isWordAgain
          cases isWordAgain
          rw [List.cons_prefix_cons, List.cons_prefix_cons]
          rcases ih again with isPrefix | isPrefix
          · exact .inl ⟨rfl, isPrefix⟩
          · exact .inr ⟨rfl, isPrefix⟩

/-- If an instruction is scanned alike from both texts, the words that are looked at are whole. -/
theorem wholeHere_of_instruction {found : Instruction}
    (scanned : Scan.instruction source cursor = .ok (found, after))
    (again : Scan.instruction (source.erased true) (cursor.erased true) = .ok (found, last)) :
    last = after.erased true ∧ source.WholeHere true cursor := by
  obtain ⟨keyword, opcode, between, operands, isKeyword, isOpcode, read, made, -⟩ :=
    Scan.instruction_eq_ok_iff.mp scanned
  obtain ⟨keyword', _, _, operands', isKeyword', -, read', made', -⟩ :=
    Scan.instruction_eq_ok_iff.mp again
  obtain rfl := made.opcode_eq
  obtain rfl := made'.opcode_eq
  have wholeKeyword : source.WholeAt true cursor :=
    wholeAt_of_word isKeyword isKeyword' fun semicolon =>
      absurd semicolon (Opcode.not_mem_of_ofKeyword? isOpcode)
  rw [Scan.word_erased isKeyword wholeKeyword] at isKeyword'
  cases isKeyword'
  obtain ⟨isLast, wholes⟩ := read.whole read' (made.same_words made')
  refine ⟨isLast, fun words stop readWords unfinished => ?_⟩
  cases readWords with
  | nil => exact wholeKeyword
  | cons isFirst readFront =>
      rw [isKeyword] at isFirst
      cases isFirst
      obtain ⟨_, isOpcode', wants⟩ := unfinished
      rw [isOpcode] at isOpcode'
      cases isOpcode'
      -- Operands behind which another is needed stop short of the last operand.
      rcases read.prefix_or_prefix readFront with ⟨more, rfl⟩ | ⟨back, rfl⟩
      · exact absurd wants (made.not_wants more)
      · refine wholes _ back stop rfl ?_ readFront
        rintro rfl
        exact made.not_wants [] (by rwa [List.append_nil, List.append_nil])

/-- The same instructions from both texts lead to the same place. -/
theorem Scans.last_eq {instructions : List Instruction}
    (scans : source.Scans cursor instructions after)
    (again : (source.erased true).Scans (cursor.erased true) instructions last) :
    last = after.erased true := by
  induction scans with
  | nil =>
      cases again
      rfl
  | cons scanned _ ih =>
      cases again with
      | cons scannedAgain again =>
          obtain ⟨rfl, -⟩ := wholeHere_of_instruction scanned scannedAgain
          exact ih again

end Source

/-! ## Sources without comments -/

namespace Source

variable {source : Source} {count : Nat} {words : List String} {item : Item}

/-- A written word is looked at in scanning: it stands behind the words of `count` tokens and behind
`words`, which begin the next instruction and do not complete it. -/
def Meets (source : Source) (count : Nat) (words : List String) (item : Item) : Prop :=
  ∃ items front tokens spelled, source.WordBehind items front item ∧
    items.map Item.word = spelled ++ words ∧ Token.Spelled tokens spelled ∧
    tokens.length = count ∧ Unfinished words

theorem Meets.exists_ahead (meets : source.Meets count words item) :
    ∃ instructions between cursor gap behind,
      source.Scans (.start source.input.unread) instructions between ∧
      instructions.length = count ∧ source.Words between words cursor ∧ Unfinished words ∧
      cursor.text = gap ++ (item.chars ++ behind) ∧ IsGap gap ∧ item.Readable ∧
      item.Ends source.input.fault behind := by
  obtain ⟨items, front, tokens, spelled, stands, isWords, isSpelled, length, unfinished⟩ := meets
  obtain ⟨cursor, gap, behind, read, text, isGap, readable, ends, -⟩ := stands.exists_ahead
  rw [isWords] at read
  obtain ⟨between, readSpelled, read⟩ := words_append_iff.mp read
  obtain ⟨instructions, scans, rfl⟩ := scans_of_spelled isSpelled readSpelled
  rw [List.length_map] at length
  exact ⟨instructions, between, cursor, gap, behind, scans, length, read, unfinished, text, isGap,
    readable, ends⟩

/-- If no bare word that is looked at has a semicolon, all that is looked at is whole. -/
theorem wholeFrom_of_meets
    (noSemicolon : ∀ count words word, source.Meets count words (.bare word) → ';' ∉ word.toList) :
    source.WholeFrom true (.start source.input.unread) := by
  intro _ between scans words cursor read unfinished gap item behind text isGap readable ends
  cases item with
  | quoted word => trivial
  | bare word =>
      intro _
      obtain ⟨spelled, readSpelled, isSpelled⟩ := scans.spelled
      obtain ⟨items, front, stands, isWords, -⟩ := wordBehind_of_ahead
        (words_append_iff.mpr ⟨between, readSpelled, read⟩) text isGap readable ends
      exact noSemicolon _ words word
        ⟨items, front, _, spelled, stands, isWords, isSpelled, rfl, unfinished⟩

theorem Halts.word_eq_none {cursor : Cursor} (halts : source.Halts cursor none) :
    Scan.word source cursor = .error none := by
  generalize isStop : (none : Option ScanError) = stop at halts
  cases halts with
  | keyword stopped => exact stopped
  | unknown => cases isStop
  | operand _ _ lacks =>
      obtain ⟨_, _, _, _, stopped⟩ := lacks
      rcases Scan.operand_eq_error_iff.mp stopped with ⟨_, rfl⟩ | ⟨_, _, rfl⟩ <;> cases isStop
  | number _ _ rejects =>
      obtain ⟨_, _, _, _, _, _, rfl⟩ := rejects
      cases isStop
  | oversized => cases isStop

/-- A severed word is not reported as an unknown keyword. -/
theorem not_halts_of_severed {cursor : Cursor} {gap behind : List Char} {severed : String}
    {row : Nat} (isText : cursor.text = gap ++ ((Item.bare severed).chars ++ behind))
    (isGap : IsGap gap) (readable : (Item.bare severed).Readable)
    (semicolon : ';' ∈ severed.toList) :
    ¬ (source.erased true).Halts (cursor.erased true)
      (some (.malformed ⟨source.name, row, severed, .unknownKeyword⟩)) := by
  intro halts
  generalize isStop : some (ScanError.malformed ⟨source.name, row, severed, .unknownKeyword⟩) = stop
    at halts
  cases halts with
  | keyword stopped =>
      subst isStop
      obtain ⟨_, _, _, _, _, isError⟩ := Scan.word_eq_malformed stopped
      cases isError
  | unknown isWord =>
      cases isStop
      exact Scan.not_mem_of_severed isText isGap readable semicolon isWord semicolon
  | operand _ _ lacks =>
      subst isStop
      obtain ⟨_, _, _, _, stopped⟩ := lacks
      rcases operand_eq_malformed stopped with ⟨_, isError⟩ | stopped
      · cases isError
      · obtain ⟨_, _, _, _, _, isError⟩ := Scan.word_eq_malformed stopped
        cases isError
  | number _ _ rejects =>
      obtain ⟨_, _, _, _, _, _, rfl⟩ := rejects
      cases isStop
  | oversized => cases isStop

/-- If both texts give the same instructions and the same outcome, they do so from every place up to
which instructions are scanned. -/
theorem Scans.exists_scans_erased {instructions : List Instruction} {between : Cursor}
    (scans : source.Scans (.start source.input.unread) instructions between)
    (unchanged : (source.erased true).instructions = source.instructions) :
    ∃ last, (source.erased true).Scans (between.erased true)
        (Tokenizer.streamFrom source between).instructions last ∧
      Scan.instruction (source.erased true) last =
        .error (Tokenizer.streamFrom source between).failure := by
  have isStream : Tokenizer.streamFrom (source.erased true)
      ((Cursor.start source.input.unread).erased true) = _ :=
    unchanged.trans (Tokenizer.streamFrom_of_scans scans)
  obtain ⟨last, scansErased, stopped⟩ := Tokenizer.streamFrom_eq_iff.mp isStream
  obtain ⟨place, scansFront, scansBack⟩ := scans_append_iff.mp scansErased
  obtain rfl := scans.last_eq scansFront
  exact ⟨last, scansBack, stopped⟩

/-- If both texts give the same instructions and the same outcome, a bare word with a semicolon that
is looked at is an operand of the instruction that fails. -/
theorem Meets.fails_of_erased {word : String}
    (unchanged : (source.erased true).instructions = source.instructions)
    (meets : source.Meets count words (.bare word)) (semicolon : ';' ∈ word.toList) :
    count = source.tokens.length ∧ words ≠ [] ∧ source.instructions.failure ≠ none := by
  obtain ⟨instructions, between, cursor, gap, behind, scans, length, read, unfinished, text, isGap,
    readable, ends⟩ := meets.exists_ahead
  have isWord := Scan.word_written isGap readable ends text
  have isStream : source.instructions = _ := Tokenizer.streamFrom_of_scans scans
  obtain ⟨last, scansErased, stoppedErased⟩ := scans.exists_scans_erased unchanged
  cases scanned : Scan.instruction source between with
  | ok result =>
      obtain ⟨found, after⟩ := result
      rw [Tokenizer.streamFrom_of_ok scanned] at scansErased
      cases scansErased with
      | cons scannedErased _ =>
          obtain ⟨-, whole⟩ := wholeHere_of_instruction scanned scannedErased
          have wholeWord := whole words cursor read unfinished gap _ behind text isGap readable ends
          exact absurd semicolon (wholeWord rfl)
  | error stop =>
      rw [Tokenizer.streamFrom_of_error scanned] at isStream scansErased stoppedErased
      cases scansErased
      refine ⟨?_, ?_, ?_⟩
      · rw [tokens, isStream, List.append_nil, List.length_map, length]
      · rintro rfl
        obtain rfl := words_nil_iff.mp read
        have unknown : Opcode.ofKeyword? word = none := by
          by_contra known
          obtain ⟨opcode, isOpcode⟩ := Option.ne_none_iff_exists'.mp known
          exact Opcode.not_mem_of_ofKeyword? isOpcode semicolon
        rw [Scan.instruction_eq_error_iff.mpr (.unknown isWord unknown)] at scanned
        cases scanned
        exact not_halts_of_severed text isGap readable semicolon
          (Scan.instruction_eq_error_iff.mp stoppedErased)
      · rw [isStream]
        rintro rfl
        have ended := (Scan.instruction_eq_error_iff.mp scanned).word_eq_none
        cases read with
        | nil =>
            rw [ended] at isWord
            cases isWord
        | cons isFirst _ =>
            rw [ended] at isFirst
            cases isFirst

/-- Erasing the comments that begin where a word could begin changes neither the instructions, with
their rows, nor the outcome.  Erasing also from the semicolons inside bare words changes nothing if
no bare word that is looked at has one, and only if each that has one is an operand of an
instruction that fails. -/
theorem instructions_erased (source : Source) :
    (source.erased false).instructions = source.instructions ∧
    ((∀ count words word, source.Meets count words (.bare word) → ';' ∉ word.toList) →
      (source.erased true).instructions = source.instructions) ∧
    ((source.erased true).instructions = source.instructions →
      ∀ count words word, source.Meets count words (.bare word) → ';' ∈ word.toList →
        count = source.tokens.length ∧ words ≠ [] ∧ source.instructions.failure ≠ none) := by
  refine ⟨?_, fun noSemicolon => ?_, fun unchanged count words word => ?_⟩
  · refine Tokenizer.streamFrom_erased (.start source.input.unread) ?_
    intro _ _ _ _ _ _ _ _ item _ _ _ _ _
    cases item with
    | quoted word => trivial
    | bare word => exact fun never => absurd never Bool.false_ne_true
  · exact Tokenizer.streamFrom_erased (.start source.input.unread) (wholeFrom_of_meets noSemicolon)
  · exact Meets.fails_of_erased unchanged

/-- A source with a semicolon inside a bare word, and a comment. -/
def glued : Source where
  name := "glued"
  input := ⟨"call f;x ; y\npop".toList, none⟩

/-- A source with a semicolon inside a literal, a comment right behind the literal, and a quote
inside a comment. -/
def annotated : Source where
  name := "annotated"
  input := ⟨"stores 0 1 \"a;b\";c\npop ; \"d".toList, none⟩

theorem instructions_erased_glued :
    ((glued.erased false).instructions = glued.instructions ∧
      glued.Meets 0 ["call"] (.bare "f;x") ∧
      (glued.erased true).instructions ≠ glued.instructions) ∧
    (∀ count words word, annotated.Meets count words (.bare word) → ';' ∉ word.toList) ∧
      (annotated.erased true).instructions = annotated.instructions := by
  have readsBare : ReadsBare "call" ∧ ReadsBare "f;x" := by
    simp [ReadsBare, IsBare, isSeparator]
  have keyword : Laid none ("f;x".toList ++ " ; y\npop".toList) [.bare "call"]
      ([] ++ ("call".toList ++ [' '])) :=
    .word .nil readsBare.1 rfl (.gap (.separator rfl .nil))
  have wants : Opcode.Wants .call [] := ⟨["f"], _, List.cons_ne_nil _ _, .call⟩
  have meets : glued.Meets 0 ["call"] (.bare "f;x") :=
    ⟨[.bare "call"], _, [], [], ⟨" ; y\npop".toList, by simp [glued, Item.chars], keyword,
      readsBare.2, rfl⟩, rfl, .nil, rfl, ⟨.call, by decide, wants⟩⟩
  have gluedTokens : glued.tokens.length = 2 := by cbv
  have unchanged : (annotated.erased true).instructions = annotated.instructions := by cbv
  have noFailure : annotated.instructions.failure = none := by cbv
  refine ⟨⟨(instructions_erased glued).1, meets, fun same => ?_⟩, ?_, unchanged⟩
  · obtain ⟨isCount, -⟩ := (instructions_erased glued).2.2 same _ _ _ meets (by decide)
    rw [gluedTokens] at isCount
    cases isCount
  · intro count words word meets semicolon
    obtain ⟨-, -, failed⟩ :=
      (instructions_erased annotated).2.2 unchanged count words word meets semicolon
    exact failed noFailure

end Source

end StackMachine
