import Mathlib
import StackMachine.Proofs.Machine.Simulation
import StackMachine.Proofs.Machine.Table

/-!
# Functions that no call reaches

A call finds a primitive before it finds a function, and of several functions of one name it finds
the first.  A function with the name of a primitive, or with that of an earlier function, is
therefore never entered.  Deleting such functions, any number at once, moves the others up in the
table and changes nothing else: every run does the same (`Machine.run_delete_shadowed`).
-/

namespace StackMachine

namespace Program

/-- A program without the functions at some positions of its table. -/
def delete (program : Program) (positions : Finset Nat) : Program :=
  ⟨program.functions?.map fun functions =>
    (functions.zipIdx.filter (·.2 ∉ positions)).map Prod.fst⟩

/-- The function at a position has the name of a primitive or that of an earlier function. -/
def Shadowed (program : Program) (position : Nat) : Prop :=
  ∀ function, program.functions[position]? = some function →
    function.name ∈ Table.builtins ∨
      ∃ earlier < position, ∃ other, program.functions[earlier]? = some other ∧
        other.name = function.name

theorem functions_delete (program : Program) (positions : Finset Nat) :
    (program.delete positions).functions =
      (program.functions.zipIdx.filter (·.2 ∉ positions)).map Prod.fst := by
  rcases program with ⟨_ | functions⟩ <;> rfl

theorem not_mem_builtins {name : String} (user : Primitive.ofName? name = none) :
    name ∉ Table.builtins := by
  intro isBuiltin
  simp only [Table.builtins, List.mem_cons, List.not_mem_nil, or_false] at isBuiltin
  rcases isBuiltin with rfl | rfl | rfl <;> cases user

/-- The first function of a name is not shadowed, unless it has the name of a primitive. -/
theorem not_shadowed_of_first {program : Program} {name : String}
    (user : Primitive.ofName? name = none) {position : Nat} {function : Function}
    (found : program.functions[position]? = some function) (named : function.name = name)
    (first : ∀ earlier < position, ∀ other, program.functions[earlier]? = some other →
      other.name ≠ name) : ¬ program.Shadowed position := by
  intro shadowed
  rcases shadowed function found with isBuiltin | ⟨earlier, isEarlier, other, isOther, same⟩
  · rw [named] at isBuiltin
    exact not_mem_builtins user isBuiltin
  · exact first earlier isEarlier other isOther (same.trans named)

/-- A name finds the same function when shadowed functions have been deleted. -/
theorem lookup?_delete {program : Program} {positions : Finset Nat}
    (shadowed : ∀ position ∈ positions, program.Shadowed position) {name : String}
    (user : Primitive.ofName? name = none) :
    (program.delete positions).lookup? name = program.lookup? name := by
  -- Both look for the first entry of the numbered table that has the name.
  have numbered : program.lookup? name =
      (program.functions.zipIdx.find? (·.1.name == name)).map Prod.fst := by
    have table : program.functions = program.functions.zipIdx.map Prod.fst :=
      (List.zipIdx_map_fst 0 program.functions).symm
    rw [lookup?]
    conv_lhs => rw [table, List.find?_map]
    rfl
  rw [numbered, lookup?, functions_delete, List.find?_map, List.find?_filter]
  congr 1
  cases found : program.functions.zipIdx.find? (·.1.name == name) with
  | none =>
      rw [List.find?_eq_none] at found ⊢
      intro entry mem kept
      exact found entry mem (by simpa using (of_decide_eq_true kept).2)
  | some entry =>
      obtain ⟨named, position, inRange, rfl, first⟩ := List.find?_eq_some_iff_getElem.mp found
      have kept : position ∉ positions := by
        intro mem
        rw [List.length_zipIdx] at inRange
        refine not_shadowed_of_first user (List.getElem?_eq_getElem inRange) (by simpa using named)
          ?_ (shadowed position mem)
        intro earlier isEarlier other isOther
        obtain ⟨earlierInRange, rfl⟩ := List.getElem?_eq_some_iff.mp isOther
        simpa using first earlier isEarlier
      rw [List.find?_eq_some_iff_getElem]
      refine ⟨?_, position, inRange, rfl, fun earlier isEarlier => ?_⟩
      · simpa [kept] using named
      · have other := first earlier isEarlier
        simp only [List.getElem_zipIdx, Bool.not_eq_true'] at other
        simp [other]

end Program

namespace Machine

/-- Shadowed functions are dead.  Without any number of them a run gives the same report, that is
the same failure, trace and rest of the fuel, and leaves the machine with the same memory, rest of
the input, output and width of marks. -/
theorem run_delete_shadowed (machine : Machine) (positions : Finset Nat)
    (shadowed : ∀ position ∈ positions, machine.setup.program.Shadowed position) (fuel : Nat) :
    (machine.withProgram (machine.setup.program.delete positions)).run fuel =
      ((machine.run fuel).1,
        (machine.run fuel).2.withProgram (machine.setup.program.delete positions)) := by
  have agrees : machine.setup.Agrees
      (machine.setup.withProgram (machine.setup.program.delete positions)) := by
    refine ⟨⟨rfl, rfl, fun name user => ?_⟩, rfl, rfl⟩
    rw [Option.map_id_fun, id]
    exact Program.lookup?_delete shadowed user
  have ending := @execution_congr machine
    (machine.withProgram (machine.setup.program.delete positions)) agrees rfl fuel
  unfold run
  rw [ending]
  rfl

/-- A program with two functions `f`, two functions `main` and one with the name of a primitive. -/
def overshadowing : Program where
  functions? := some
    [{ name := "print", body := { code? := some #[{ opcode := .pop }] } },
      { name := "f", body := { code? := some #[{ opcode := .pushi, int := 7 }] } },
      { name := "f", body := { code? := some #[{ opcode := .pop }] } },
      { name := "main", body := { code? := some #[{ opcode := .call, name := "f" },
        { opcode := .call, name := "print" }] } },
      { name := "main" }]

theorem run_delete_shadowed_three :
    let whole := new overshadowing #[{}] [.output 0, .tracer {}]
    let rest := new (overshadowing.delete {0, 2, 4}) #[{}] [.output 0, .tracer {}]
    (overshadowing.delete {0, 2, 4}).functions.map Function.name = ["f", "main"] ∧
      (whole.run 9).1.failure = none ∧ (whole.run 9).1.fuel = 6 ∧
      (whole.run 9).1.lines.length = 7 ∧
      (rest.run 9).1 = (whole.run 9).1 ∧ (rest.run 9).2.output = (whole.run 9).2.output := by
  intro whole rest
  have shadowed : ∀ position ∈ ({0, 2, 4} : Finset Nat), overshadowing.Shadowed position := by
    intro position mem function found
    simp only [Finset.mem_insert, Finset.mem_singleton] at mem
    rcases mem with rfl | rfl | rfl
    · obtain rfl := Option.some.inj found
      exact .inl (by decide)
    · obtain rfl := Option.some.inj found
      exact .inr ⟨1, by decide, _, rfl, rfl⟩
    · obtain rfl := Option.some.inj found
      exact .inr ⟨3, by decide, _, rfl, rfl⟩
  have same : rest.run 9 = _ := whole.run_delete_shadowed {0, 2, 4} shadowed 9
  refine ⟨by decide, by decide +kernel, by decide +kernel, by decide +kernel, ?_, ?_⟩
  · rw [same]
  · rw [same]
    rfl

end Machine

end StackMachine
