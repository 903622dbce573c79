import Mathlib
import StackMachine.Proofs.Program.Loading

/-!
# Where assembling stops

Instructions are assembled as long as they begin a program.  The first one that does not fit is
found at once, and the error names it and the keyword that is due in its place; what comes behind
it, be it an error of the scanner, does not matter.  If everything fits, it is the end of the stream
that decides (`TokenStream.assemble_firstMisfit`).

The proof follows what has been read.  `Read` says it for the functions, and `Ends` lists the ways
in which assembling may end that has read some tokens already.
-/

namespace StackMachine

namespace Assembly

/-! ## Keywords that are due -/

/-- The keyword that the grammar asks for behind some tokens. -/
inductive Due : List Token → Opcode → Prop where
  | raw : Due [] .rawMark
  | classes (raw : Token) : Due [raw] .classMark
  | functions (raw classes : Token) : Due [raw, classes] .functionMark
  /-- Between functions. -/
  | header (layout : Layout) : Due layout.tokens .defun
  /-- Inside a body. -/
  | ending (layout : Layout) {header : Token} {body : List Token}
      (isHeader : header.opcode = .defun) (inBody : ∀ token ∈ body, InBody token) :
      Due (layout.tokens ++ header :: body) Opcode.endef

/-! ## What has been read -/

section Beginnings

variable {token : Token} {tokens body : List Token}

theorem Begins.shorten {longer : List Token} (begins : Begins longer)
    (isPrefix : tokens <+: longer) : Begins tokens := by
  obtain ⟨layout, isBeginning⟩ := begins
  exact ⟨layout, isPrefix.trans isBeginning⟩

theorem continues_body_append (inBody : ∀ token ∈ body, InBody token) :
    Continues true (body ++ tokens) ↔ Continues true tokens := by
  induction body with
  | nil => exact Iff.rfl
  | cons first body ih =>
      obtain ⟨isFirst, inBody⟩ := List.forall_mem_cons.mp inBody
      rw [List.cons_append, continues_inside_iff, ih inBody]
      simp [isFirst, isFirst.1]

theorem continues_definitions_append (definitions : List Definition) :
    Continues false (definitions.flatMap Definition.tokens ++ tokens) ↔ Continues false tokens := by
  induction definitions with
  | nil => exact Iff.rfl
  | cons definition definitions ih =>
      have ends : ¬ InBody definition.ending := fun inBody => inBody.1 definition.isEnding
      rw [List.flatMap_cons, Definition.tokens, List.append_assoc, List.cons_append,
        List.append_assoc, List.singleton_append, continues_outside_iff,
        continues_body_append definition.inBody, continues_inside_iff, ih]
      simp [definition.isHeader, definition.isEnding, ends]

theorem begins_layout_append_iff (layout : Layout) :
    Begins (layout.tokens ++ tokens) ↔ Continues false tokens := by
  rw [Layout.tokens, List.cons_append, List.cons_append, List.cons_append, begins_iff,
    continues_definitions_append]
  simp [layout.isRaw, layout.isClasses, layout.isFunctions]

theorem begins_layout_append_body_iff (layout : Layout) {header : Token}
    (isHeader : header.opcode = .defun) (inBody : ∀ token ∈ body, InBody token) :
    Begins (layout.tokens ++ header :: body ++ tokens) ↔ Continues true tokens := by
  rw [List.append_assoc, begins_layout_append_iff, List.cons_append, continues_outside_iff,
    continues_body_append inBody]
  exact and_iff_right isHeader

namespace Due

variable {expected other : Opcode}

theorem not_inBody (due : Due tokens expected) : ¬ InBody { opcode := expected } := by
  rintro ⟨notEnding, notStructural⟩
  cases due with
  | raw | classes | functions | header => cases notStructural
  | ending => exact notEnding rfl

/-- Only a token with the keyword that is due fits, but for the tokens of a body. -/
theorem fits_iff (due : Due tokens expected) (begins : Begins tokens)
    (outside : expected = .endef → ¬ InBody token) :
    Begins (tokens ++ [token]) ↔ token.opcode = expected := by
  cases due with
  | raw => exact begins_one_iff
  | classes raw => exact begins_two_iff.trans (and_iff_right (begins_one_iff.mp begins))
  | functions raw classes =>
      obtain ⟨isRaw, isClasses⟩ := begins_two_iff.mp begins
      refine begins_iff.trans ?_
      simp [isRaw, isClasses, continues_nil]
  | header layout =>
      rw [begins_layout_append_iff, continues_outside_iff]
      exact and_iff_left (continues_nil true)
  | ending layout isHeader inBody =>
      rw [begins_layout_append_body_iff layout isHeader inBody, continues_inside_iff]
      simp [outside rfl, continues_nil]

/-- Behind tokens that begin a program one keyword is due. -/
theorem unique (due : Due tokens expected) (begins : Begins tokens) (also : Due tokens other) :
    other = expected := by
  have outside := also.not_inBody
  exact (due.fits_iff begins fun _ => outside).mp
    ((also.fits_iff begins fun _ => outside).mpr rfl)

theorem iff_eq (due : Due tokens expected) (begins : Begins tokens) :
    Due tokens other ↔ other = expected := by
  constructor
  · exact due.unique begins
  · rintro rfl
    exact due

end Due

end Beginnings

/-- What has been read when functions are assembled and one of them may be open. -/
def Read : Option (Token × List Token) → List Token → Prop
  | none, read => ∃ layout : Layout, read = layout.tokens
  | some (header, code), read =>
      ∃ layout : Layout, read = layout.tokens ++ header :: code.reverse ∧
        header.opcode = .defun ∧ ∀ token ∈ code, InBody token

namespace Read

variable {token header : Token} {code read tokens : List Token}
  {opened : Option (Token × List Token)}

theorem begins_append_iff (isRead : Read opened read) :
    Begins (read ++ tokens) ↔ Continues opened.isSome tokens := by
  cases opened with
  | none =>
      obtain ⟨layout, rfl⟩ := isRead
      exact begins_layout_append_iff layout
  | some function =>
      obtain ⟨header, code⟩ := function
      obtain ⟨layout, rfl, isHeader, inBody⟩ := isRead
      exact begins_layout_append_body_iff layout isHeader fun token mem =>
        inBody token (List.mem_reverse.mp mem)

theorem begins (isRead : Read opened read) : Begins read := by
  rw [← List.append_nil read, isRead.begins_append_iff]
  exact continues_nil _

theorem due_header (isRead : Read none read) : Due read .defun := by
  obtain ⟨layout, rfl⟩ := isRead
  exact .header layout

theorem due_ending (isRead : Read (some (header, code)) read) : Due read .endef := by
  obtain ⟨layout, rfl, isHeader, inBody⟩ := isRead
  exact .ending layout isHeader fun token mem => inBody token (List.mem_reverse.mp mem)

/-- Inside a definition no program is complete. -/
theorem incomplete (isRead : Read (some (header, code)) read) (layout : Layout) :
    layout.tokens ≠ read := by
  -- a header may follow a complete program, but it does not fit into a body
  rintro rfl
  have follows : Begins (layout.tokens ++ [{ opcode := .defun }]) := by
    rw [begins_layout_append_iff, continues_outside_iff]
    exact ⟨rfl, continues_nil true⟩
  rw [isRead.begins_append_iff, Option.isSome_some, continues_inside_iff] at follows
  rcases follows with ⟨isEnding, -⟩ | ⟨⟨-, structural⟩, -⟩
  · cases isEnding
  · cases structural

theorem header_concat (isRead : Read none read) (isHeader : token.opcode = .defun) :
    Read (some (token, [])) (read ++ [token]) := by
  obtain ⟨layout, rfl⟩ := isRead
  exact ⟨layout, rfl, isHeader, List.forall_mem_nil _⟩

theorem body_concat (isRead : Read (some (header, code)) read) (inside : InBody token) :
    Read (some (header, token :: code)) (read ++ [token]) := by
  obtain ⟨layout, rfl, isHeader, inBody⟩ := isRead
  refine ⟨layout, ?_, isHeader, List.forall_mem_cons.mpr ⟨inside, inBody⟩⟩
  simp

theorem ending_concat (isRead : Read (some (header, code)) read)
    (isEnding : token.opcode = .endef) : Read none (read ++ [token]) := by
  obtain ⟨layout, rfl, isHeader, inBody⟩ := isRead
  have body : ∀ token ∈ code.reverse, InBody token := fun token mem =>
    inBody token (List.mem_reverse.mp mem)
  refine ⟨{ layout with
    definitions := layout.definitions ++ [⟨header, code.reverse, token, isHeader, body, isEnding⟩] },
    ?_⟩
  simp [Layout.tokens, Definition.tokens]

end Read

/-! ## How assembling ends -/

/-- How assembling a stream may end behind tokens that have been read. -/
inductive Ends {α : Type} (source : String) (failure : Option ScanError) :
    List Token → List Instruction → Except AssemblyError α → Prop where
  | misfit {read : List Token} {before rest : List Instruction} {found : Instruction}
      {expected : Opcode} (fits : Begins (read ++ before.map (·.token)))
      (misfits : ¬ Begins (read ++ (before ++ [found]).map (·.token)))
      (due : Due (read ++ before.map (·.token)) expected) :
      Ends source failure read (before ++ found :: rest)
        (.error (.grammar ⟨source, expected, some found⟩))
  | failed {read : List Token} {stream : List Instruction} {error : ScanError}
      (fits : Begins (read ++ stream.map (·.token))) (isFailure : failure = some error) :
      Ends source failure read stream (.error (.scan error))
  | incomplete {read : List Token} {stream : List Instruction} {expected : Opcode}
      (fits : Begins (read ++ stream.map (·.token))) (sound : failure = none)
      (due : Due (read ++ stream.map (·.token)) expected)
      (incomplete : ∀ layout : Layout, layout.tokens ≠ read ++ stream.map (·.token)) :
      Ends source failure read stream (.error (.grammar ⟨source, expected, none⟩))
  | complete {read : List Token} {stream : List Instruction} {result : α} (layout : Layout)
      (sound : failure = none) (isLayout : layout.tokens = read ++ stream.map (·.token)) :
      Ends source failure read stream (.ok result)

variable {α β : Type} {source : String} {failure : Option ScanError} {read : List Token}
  {stream rest : List Instruction} {found : Instruction} {expected : Opcode}

namespace Ends

theorem cons {result : Except AssemblyError α}
    (ends : Ends source failure (read ++ [found.token]) rest result) :
    Ends source failure read (found :: rest) result := by
  cases ends with
  | @misfit before rest misfit expected fits misfits due =>
      have same (more : List Instruction) :
          read ++ [found.token] ++ more.map (·.token) = read ++ (found :: more).map (·.token) := by
        simp
      rw [same] at fits misfits due
      exact .misfit fits misfits due
  | failed fits isFailure => exact .failed (by simpa using fits) isFailure
  | incomplete fits sound due incomplete =>
      exact .incomplete (by simpa using fits) sound (by simpa using due)
        fun layout => by simpa using incomplete layout
  | complete layout sound isLayout => exact .complete layout sound (by simpa using isLayout)

theorem map {result : Except AssemblyError α} (ends : Ends source failure read stream result)
    (change : α → β) : Ends source failure read stream (result.map change) := by
  cases ends with
  | misfit fits misfits due => exact .misfit fits misfits due
  | failed fits isFailure => exact .failed fits isFailure
  | incomplete fits sound due incomplete => exact .incomplete fits sound due incomplete
  | complete layout sound isLayout => exact .complete layout sound isLayout

theorem atEnd (begins : Begins read) (due : Due read expected)
    (incomplete : ∀ layout : Layout, layout.tokens ≠ read) :
    Ends source failure read [] (.error (Assembly.atEnd source failure expected) : Except _ α) := by
  rw [← List.append_nil read] at begins due incomplete
  cases failed : failure with
  | none => exact .incomplete begins rfl due incomplete
  | some error => exact .failed begins rfl

theorem misfit_first (begins : Begins read) (misfits : ¬ Begins (read ++ [found.token]))
    (due : Due read expected) :
    Ends source failure read (found :: rest)
      (.error (.grammar ⟨source, expected, some found⟩) : Except _ α) := by
  rw [← List.append_nil read] at begins due
  exact @Ends.misfit α source failure read [] rest found expected begins misfits due

/-- The first token that does not fit stands at the least place up to which the tokens do not begin
a program. -/
theorem at_least {result : Except AssemblyError α} (ends : Ends source failure [] stream result)
    {k : Nat}
    (least : IsLeast {k | k < (stream.map (·.token)).length ∧
      ¬ Begins ((stream.map (·.token)).take (k + 1))} k) :
    ∃ found expected, stream[k]? = some found ∧
      (∀ keyword, Due ((stream.map (·.token)).take k) keyword ↔ keyword = expected) ∧
      result = .error (.grammar ⟨source, expected, some found⟩) := by
  obtain ⟨⟨inRange, misfits⟩, lower⟩ := least
  have fitsNot : ¬ Begins (stream.map (·.token)) := fun fits =>
    misfits (fits.shorten (List.take_prefix _ _))
  cases ends with
  | @misfit before rest found expected fits stops due =>
      have isPlace : k = before.length := by
        apply Nat.le_antisymm
        · apply lower
          have upTo : ((before ++ found :: rest).map (·.token)).take (before.length + 1) =
              (before ++ [found]).map (·.token) := by
            rw [← List.map_take, List.take_length_add_append]
            rfl
          exact ⟨by simp, upTo ▸ stops⟩
        · by_contra early
          apply misfits
          apply fits.shorten
          rw [List.map_append, List.take_append_of_le_length (by simpa using Nat.lt_of_not_le early)]
          exact List.take_prefix _ _
      subst isPlace
      refine ⟨found, expected, by simp, fun keyword => ?_, rfl⟩
      simpa using due.iff_eq fits
  | failed fits isFailure => exact absurd fits fitsNot
  | incomplete fits sound due incomplete => exact absurd fits fitsNot
  | complete layout sound isLayout => exact absurd ⟨layout, isLayout ▸ List.prefix_rfl⟩ fitsNot

/-- Where everything fits, the end of the stream decides. -/
theorem of_begins {result : Except AssemblyError α} (ends : Ends source failure [] stream result)
    (begins : Begins (stream.map (·.token))) :
    (∀ error, failure = some error → result = .error (.scan error)) ∧
      (failure = none → (∀ layout : Layout, layout.tokens ≠ stream.map (·.token)) →
        ∃ expected, (∀ keyword, Due (stream.map (·.token)) keyword ↔ keyword = expected) ∧
          result = .error (.grammar ⟨source, expected, none⟩)) := by
  cases ends with
  | @misfit before rest found expected fits stops due =>
      refine absurd (begins.shorten ?_) stops
      simp
  | failed fits isFailure =>
      subst isFailure
      constructor
      · rintro _ ⟨⟩
        rfl
      · rintro ⟨⟩
  | @incomplete _ expected fits sound due incomplete =>
      subst sound
      constructor
      · rintro _ ⟨⟩
      · exact fun _ _ => ⟨expected, fun keyword => due.iff_eq fits, rfl⟩
  | complete layout sound isLayout =>
      subst sound
      constructor
      · rintro _ ⟨⟩
      · exact fun _ incomplete => absurd isLayout (incomplete layout)

end Ends

/-- Functions are assembled up to the first token that does not fit. -/
theorem functions_ends {opened : Option (Token × List Token)} (isRead : Read opened read) :
    Ends source failure read stream (functions source failure opened stream) := by
  induction stream generalizing opened read with
  | nil =>
      cases opened with
      | none =>
          have begins := isRead.begins
          obtain ⟨layout, rfl⟩ := isRead
          cases failed : failure with
          | none => exact .complete layout rfl (List.append_nil _).symm
          | some error => exact .failed (by simpa using begins) rfl
      | some function => exact .atEnd isRead.begins isRead.due_ending isRead.incomplete
  | cons found rest ih =>
      have misfits : Begins (read ++ [found.token]) ↔ Continues opened.isSome [found.token] :=
        isRead.begins_append_iff
      cases opened with
      | none =>
          rw [Option.isSome_none, continues_outside_iff] at misfits
          rw [functions]
          split
          · next isHeader => exact (ih (isRead.header_concat isHeader)).cons
          · next notHeader =>
              exact .misfit_first isRead.begins (fun fits => notHeader (misfits.mp fits).1)
                isRead.due_header
      | some function =>
          obtain ⟨header, code⟩ := function
          rw [Option.isSome_some, continues_inside_iff] at misfits
          rw [functions]
          split
          · next isEnding => exact (ih (isRead.ending_concat isEnding)).cons.map _
          · next notEnding =>
              split
              · next structural =>
                  refine .misfit_first isRead.begins (fun fits => ?_) isRead.due_ending
                  rcases misfits.mp fits with ⟨isEnding, -⟩ | ⟨⟨-, notStructural⟩, -⟩
                  · exact notEnding isEnding
                  · rw [structural] at notStructural
                    cases notStructural
              · next notStructural =>
                  exact (ih (isRead.body_concat ⟨notEnding, by simpa using notStructural⟩)).cons

section Marks

variable {next : List Instruction → Except AssemblyError α} (begins : Begins read)
  (due : Due read expected) (isMark : expected ≠ .endef)
include begins due isMark

/-- A section mark that is judged is taken, or it is the first token that does not fit.  It is not
judged if the scanner meets an oversized header right behind it. -/
theorem mark_cons_ends {seen : List Instruction}
    (judged : failure = some .oversized → rest ≠ [])
    (goesOn : found.token.opcode = expected → Begins (read ++ [found.token]) →
      Ends source failure (read ++ [found.token]) seen (next rest)) :
    Ends source failure read (found :: seen)
      (mark source failure expected (found :: rest) >>= next) := by
  have behind : ¬ (rest.isEmpty && failure == some .oversized) = true := by
    simp only [Bool.and_eq_true, List.isEmpty_iff, beq_iff_eq]
    rintro ⟨empty, oversized⟩
    exact judged oversized empty
  have fits : Begins (read ++ [found.token]) ↔ found.token.opcode = expected :=
    due.fits_iff begins fun isEnding => absurd isEnding isMark
  rw [mark, if_neg behind]
  split
  · next isFound => exact (goesOn isFound (fits.mpr isFound)).cons
  · next notFound => exact .misfit_first begins (fun isFound => notFound (fits.mp isFound)) due

theorem mark_ends (short : read.length < 3)
    (judged : failure = some .oversized → stream.length ≠ 1)
    (goesOn : ∀ found rest, stream = found :: rest → found.token.opcode = expected →
      Begins (read ++ [found.token]) →
      Ends source failure (read ++ [found.token]) rest (next rest)) :
    Ends source failure read stream (mark source failure expected stream >>= next) := by
  cases stream with
  | nil =>
      refine .atEnd begins due fun layout isLayout => ?_
      rw [← isLayout, Layout.tokens] at short
      simp only [List.length_cons] at short
      omega
  | cons found rest =>
      refine mark_cons_ends begins due isMark ?_ (goesOn found rest rfl)
      rintro oversized rfl
      exact judged oversized rfl

end Marks

end Assembly

open Assembly

namespace TokenStream

/-- The instructions of a stream that assembling judges: all of them, unless the scanner breaks off
at an oversized header right behind a section mark. -/
def judged (stream : TokenStream) : List Instruction :=
  if stream.failure = some .oversized ∧ stream.instructions.length ≤ 3 then
    stream.instructions.dropLast
  else stream.instructions

theorem assemble_ends_of_judged {stream : TokenStream} {source : String}
    (judged : stream.failure = some .oversized → 3 < stream.instructions.length) :
    Ends source stream.failure [] stream.instructions (stream.assemble source) := by
  obtain ⟨instructions, failure⟩ := stream
  dsimp only at judged
  refine mark_ends begins_nil .raw (by decide) (by simp) ?_ ?_
  · intro oversized (only : instructions.length = 1)
    have long := judged oversized
    omega
  rintro raw afterRaw rfl isRaw begins
  refine mark_ends begins (.classes _) (by decide) (by simp) ?_ ?_
  · intro oversized only
    have long := judged oversized
    simp only [List.length_cons] at long
    omega
  rintro classes afterClasses rfl isClasses begins
  refine mark_ends begins (.functions _ _) (by decide) (by simp) ?_ ?_
  · intro oversized only
    have long := judged oversized
    simp only [List.length_cons] at long
    omega
  rintro functionMark rest rfl isFunctions -
  have isRead : Read none [raw.token, classes.token, functionMark.token] :=
    ⟨⟨_, _, _, isRaw, isClasses, isFunctions, []⟩, rfl⟩
  exact (functions_ends isRead).map _

theorem assemble_ends_of_oversized {instructions : List Instruction} {source : String}
    (few : instructions.length ≤ 3) :
    Ends source (some .oversized) [] instructions.dropLast
      ((TokenStream.mk instructions (some .oversized)).assemble source) := by
  rcases instructions with _ | ⟨raw, _ | ⟨classes, _ | ⟨functionMark, _ | ⟨fourth, rest⟩⟩⟩⟩
  · exact .failed begins_nil rfl
  · exact .failed begins_nil rfl
  · refine mark_cons_ends begins_nil .raw (by decide) (by simp) ?_
    exact fun _ begins => .failed begins rfl
  · refine mark_cons_ends begins_nil .raw (by decide) (by simp) ?_
    intro _ begins
    refine mark_cons_ends begins (.classes _) (by decide) (by simp) ?_
    exact fun _ begins => .failed begins rfl
  · simp only [List.length_cons] at few
    omega

theorem assemble_ends (stream : TokenStream) (source : String) :
    Ends source stream.failure [] stream.judged (stream.assemble source) := by
  obtain ⟨instructions, failure⟩ := stream
  unfold judged
  split
  · next broken =>
      obtain ⟨rfl, few⟩ := broken
      exact assemble_ends_of_oversized few
  · next whole =>
      refine assemble_ends_of_judged fun oversized => ?_
      exact Nat.lt_of_not_le fun few => whole ⟨oversized, few⟩

/-- Assembling stops at the first instruction that does not fit.

Let `k` be the least place such that the tokens up to and including it do not begin a program.
Then assembling fails with the instruction at `k` and the keyword that is due in its place.  If
there is no such place, a failure of the scanner is passed on; without one a program is assembled
if it is complete, and otherwise its end is found where a keyword is due. -/
theorem assemble_firstMisfit (stream : TokenStream) (source : String) :
    let tokens := stream.judged.map (·.token)
    (∀ k, IsLeast {k | k < tokens.length ∧ ¬ Begins (tokens.take (k + 1))} k →
      ∃ found expected, stream.judged[k]? = some found ∧
        (∀ keyword, Due (tokens.take k) keyword ↔ keyword = expected) ∧
        stream.assemble source = .error (.grammar ⟨source, expected, some found⟩)) ∧
    ((∀ k < tokens.length, Begins (tokens.take (k + 1))) →
      (∀ error, stream.failure = some error →
        stream.assemble source = .error (.scan error)) ∧
      (stream.failure = none → ∀ layout : Layout, layout.tokens = tokens →
        stream.assemble source = .ok layout.program) ∧
      (stream.failure = none → (∀ layout : Layout, layout.tokens ≠ tokens) →
        ∃ expected, (∀ keyword, Due tokens keyword ↔ keyword = expected) ∧
          stream.assemble source = .error (.grammar ⟨source, expected, none⟩))) := by
  intro tokens
  have ends := stream.assemble_ends source
  refine ⟨fun k least => ends.at_least least, fun fits => ?_⟩
  have begins : Begins tokens := by
    rcases Nat.eq_zero_or_pos tokens.length with empty | positive
    · rw [List.eq_nil_of_length_eq_zero empty]
      exact begins_nil
    · have whole := fits (tokens.length - 1) (Nat.sub_lt positive Nat.one_pos)
      rwa [Nat.sub_add_cancel positive, List.take_length] at whole
  obtain ⟨failed, incomplete⟩ := ends.of_begins begins
  refine ⟨failed, fun sound layout isLayout => ?_, incomplete⟩
  obtain ⟨instructions, failure⟩ := stream
  cases sound
  exact assemble_eq_ok_iff.mpr ⟨layout, isLayout, rfl⟩

/-- A section mark inside a body, and a word behind it that is no keyword. -/
def strayMark : TokenStream where
  instructions :=
    [⟨{ opcode := .rawMark }, 0⟩, ⟨{ opcode := .classMark }, 0⟩, ⟨{ opcode := .functionMark }, 0⟩,
      ⟨{ opcode := .defun, name := "main" }, 1⟩, ⟨{ opcode := .pop }, 2⟩,
      ⟨{ opcode := .classMark }, 3⟩, ⟨{ opcode := .endef }, 4⟩]
  failure := some (.malformed ⟨"stray", 5, "bogus", .unknownKeyword⟩)

theorem assemble_firstMisfit_strayMark :
    IsLeast {k | k < 7 ∧ ¬ Begins ((strayMark.judged.map (·.token)).take (k + 1))} 5 ∧
      strayMark.assemble "stray" =
        .error (.grammar ⟨"stray", .endef, some ⟨{ opcode := .classMark }, 3⟩⟩) := by
  let marks : Layout := ⟨{ opcode := .rawMark }, { opcode := .classMark },
    { opcode := .functionMark }, rfl, rfl, rfl, []⟩
  have inBody : ∀ token ∈ [({ opcode := .pop } : Token)], InBody token := by decide
  have inside (tokens : List Token) :
      Begins (marks.tokens ++ { opcode := .defun, name := "main" } :: [{ opcode := .pop }] ++
        tokens) ↔ Continues true tokens :=
    begins_layout_append_body_iff marks rfl inBody
  have isLeast :
      IsLeast {k | k < 7 ∧ ¬ Begins ((strayMark.judged.map (·.token)).take (k + 1))} 5 := by
    constructor
    · refine ⟨by decide, fun begins => ?_⟩
      rcases continues_inside_iff.mp ((inside [{ opcode := .classMark }]).mp begins) with
        ⟨isEnding, -⟩ | ⟨⟨-, structural⟩, -⟩
      · cases isEnding
      · cases structural
    · rintro k ⟨-, misfits⟩
      by_contra early
      apply misfits
      apply ((inside []).mpr (continues_nil true)).shorten
      exact List.take_prefix_take_left (by omega : k + 1 ≤ 5)
  obtain ⟨found, expected, isFound, due, failed⟩ :=
    (assemble_firstMisfit strayMark "stray").1 5 isLeast
  obtain rfl : .endef = expected := (due .endef).mp (.ending marks rfl inBody)
  cases isFound
  exact ⟨isLeast, failed⟩

end TokenStream

end StackMachine
