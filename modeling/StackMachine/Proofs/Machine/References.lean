import Mathlib
import StackMachine.Proofs.Machine.Table

/-!
# Chains of references

What is printed is found by following references from cell to cell.  The chain of an atom ends in a
value, leaves the heap, or goes on for ever; `RefChain` tells these apart without a bound on its
length.  A chain that comes to an end has not visited a cell twice, since the way from a cell to the
end has one length only, so it has no more hops than the heap has cells
(`RefChain.hops_le_size`).  Hence the bound on the hops of `Memory.follow` is neither too small for
the longest chain that ends nor for one that leaves the heap behind its last cell, and exceeding it
is the mark of a chain without an end.
-/

namespace StackMachine

open Table (Holds)

theorem Table.Holds.unique {heap : Array Atom} {address : Int64} {a b : Atom}
    (first : Holds heap address a) (second : Holds heap address b) : a = b :=
  Option.some.inj (first.2.symm.trans second.2)

/-- The addresses without a cell. -/
theorem Table.forall_not_holds_iff {heap : Array Atom} {address : Int64} :
    (∀ a, ¬ Holds heap address a) ↔ address.toInt < 0 ∨ heap.size ≤ address.toInt := by
  unfold Holds
  by_cases nonneg : 0 ≤ address.toInt
  · simp only [nonneg, true_and, ← Option.eq_none_iff_forall_ne_some, Array.getElem?_eq_none_iff]
    omega
  · simp only [nonneg, false_and, not_false_eq_true, implies_true, true_iff]
    omega

/-- So many references, each to a cell of the heap that holds the next one, lead from an atom to
another. -/
inductive RefChain (heap : Array Atom) : (hops : Nat) → Atom → Atom → Prop where
  | here {a : Atom} : RefChain heap 0 a a
  | hop {address : Int64} {a b : Atom} {hops : Nat} (holds : Holds heap address a)
      (rest : RefChain heap hops a b) : RefChain heap (hops + 1) (.ref address) b

namespace RefChain

/-- The chain of an atom ends in a value, the first atom that is no reference. -/
def EndsIn (heap : Array Atom) (a value : Atom) : Prop :=
  (∃ hops, RefChain heap hops a value) ∧ ∀ address, value ≠ .ref address

/-- The chain of an atom leaves the heap at an address, the first one without a cell. -/
def LeavesAt (heap : Array Atom) (a : Atom) (address : Int64) : Prop :=
  (∃ hops, RefChain heap hops a (.ref address)) ∧
    (address.toInt < 0 ∨ heap.size ≤ address.toInt)

/-- The chain of an atom goes on for ever. -/
def Endless (heap : Array Atom) (a : Atom) : Prop :=
  ∀ hops, ∃ b, RefChain heap hops a b

/-- The chain of an atom is at its end. -/
def Last (heap : Array Atom) (a : Atom) : Prop :=
  ∀ address, a = .ref address → ∀ b, ¬ Holds heap address b

variable {heap : Array Atom} {a b c : Atom} {address : Int64} {hops : Nat}

theorem EndsIn.last (ends : EndsIn heap a b) : Last heap b :=
  fun address isRef => absurd isRef (ends.2 address)

theorem LeavesAt.last (leaves : LeavesAt heap a address) : Last heap (.ref address) := by
  rintro _ ⟨⟩
  exact Table.forall_not_holds_iff.mpr leaves.2

/-- The end of a chain and the number of hops to it are those of every chain from the same
atom. -/
theorem eq_of_last {more : Nat} (first : RefChain heap hops a b) (lastB : Last heap b)
    (second : RefChain heap more a c) (lastC : Last heap c) : hops = more ∧ b = c := by
  induction first generalizing more with
  | here =>
      cases second with
      | here => exact ⟨rfl, rfl⟩
      | hop holds rest => exact absurd holds (lastB _ rfl _)
  | hop holds rest ih =>
      cases second with
      | here => exact absurd holds (lastC _ rfl _)
      | hop holds' rest' =>
          cases holds.unique holds'
          obtain ⟨sameHops, sameEnd⟩ := ih lastB rest'
          exact ⟨congrArg (· + 1) sameHops, sameEnd⟩

theorem EndsIn.unique (first : EndsIn heap a b) (second : EndsIn heap a c) : b = c := by
  obtain ⟨hops, chain⟩ := first.1
  obtain ⟨more, other⟩ := second.1
  exact (eq_of_last chain first.last other second.last).2

theorem LeavesAt.unique {other : Int64} (first : LeavesAt heap a address)
    (second : LeavesAt heap a other) : address = other := by
  obtain ⟨hops, chain⟩ := first.1
  obtain ⟨more, otherChain⟩ := second.1
  exact Atom.ref.inj (eq_of_last chain first.last otherChain second.last).2

/-- The cells on the way to the end of a chain are all different. -/
theorem exists_cells (chain : RefChain heap hops a b) (last : Last heap b) :
    ∃ cells : List Nat, cells.length = hops ∧ cells.Nodup ∧
      ∀ cell ∈ cells, ∃ c fewer, heap[cell]? = some c ∧ fewer < hops ∧
        RefChain heap fewer c b := by
  -- Along the chain, from its end: a cell that came twice would have two ways to the end of
  -- different length.
  induction chain with
  | here => exact ⟨[], rfl, List.nodup_nil, fun _ mem => absurd mem List.not_mem_nil⟩
  | @hop address c _ hops holds rest ih =>
      obtain ⟨cells, length, nodup, visited⟩ := ih last
      refine ⟨address.toInt.toNat :: cells, congrArg (· + 1) length, ?_, ?_⟩
      · refine List.nodup_cons.mpr ⟨fun again => ?_, nodup⟩
        obtain ⟨d, fewer, found, less, way⟩ := visited _ again
        cases Option.some.inj (holds.2.symm.trans found)
        exact absurd (eq_of_last way last rest last).1 less.ne
      · intro cell mem
        rcases List.mem_cons.mp mem with rfl | mem
        · exact ⟨c, hops, holds.2, Nat.lt_succ_self hops, rest⟩
        · obtain ⟨d, fewer, found, less, way⟩ := visited cell mem
          exact ⟨d, fewer, found, Nat.lt_succ_of_lt less, way⟩

/-- A chain that comes to an end has no more hops than the heap has cells. -/
theorem hops_le_size (chain : RefChain heap hops a b) (last : Last heap b) : hops ≤ heap.size := by
  obtain ⟨cells, rfl, nodup, visited⟩ := chain.exists_cells last
  have inHeap : cells ⊆ List.range heap.size := by
    intro cell mem
    obtain ⟨c, -, found, -⟩ := visited cell mem
    exact List.mem_range.mpr (Array.getElem?_eq_some_iff.mp found).1
  simpa using (List.subperm_of_subset nodup inHeap).length_le

theorem Endless.next (endless : Endless heap (.ref address)) (holds : Holds heap address a) :
    Endless heap a := by
  intro hops
  obtain ⟨b, chain⟩ := endless (hops + 1)
  cases chain with
  | hop holds' rest =>
      cases holds.unique holds'
      exact ⟨b, rest⟩

/-- A chain that cannot go on for some number of hops ends in a value or leaves the heap. -/
theorem endsIn_or_leavesAt (hops : Nat) (a : Atom) (short : ¬ ∃ b, RefChain heap hops a b) :
    (∃ value, EndsIn heap a value) ∨ ∃ address, LeavesAt heap a address := by
  induction hops generalizing a with
  | zero => exact absurd ⟨a, .here⟩ short
  | succ hops ih =>
      cases a with
      | ref address =>
          by_cases cell : ∃ c, Holds heap address c
          · obtain ⟨c, holds⟩ := cell
            have shorter : ¬ ∃ b, RefChain heap hops c b := by
              rintro ⟨b, chain⟩
              exact short ⟨b, .hop holds chain⟩
            rcases ih c shorter with
              ⟨value, ⟨count, chain⟩, ends⟩ | ⟨outside, ⟨count, chain⟩, leaves⟩
            · exact .inl ⟨value, ⟨count + 1, .hop holds chain⟩, ends⟩
            · exact .inr ⟨outside, ⟨count + 1, .hop holds chain⟩, leaves⟩
          · exact .inr ⟨address, ⟨0, .here⟩, Table.forall_not_holds_iff.mp (not_exists.mp cell)⟩
      | null | int | float | str | unknown => exact .inl ⟨_, ⟨0, .here⟩, by rintro address ⟨⟩⟩

/-- The three kinds of chains. -/
theorem endsIn_or_leavesAt_or_endless (heap : Array Atom) (a : Atom) :
    (∃ value, EndsIn heap a value) ∨ (∃ address, LeavesAt heap a address) ∨ Endless heap a := by
  by_cases endless : Endless heap a
  · exact .inr (.inr endless)
  · obtain ⟨hops, short⟩ := not_forall.mp endless
    exact (endsIn_or_leavesAt hops a short).imp_right .inl

end RefChain

namespace Memory

variable {m : Memory} {a b : Atom} {hops : Nat}

theorem followFrom_of_forall_ne {value : Atom} (noRef : ∀ address, value ≠ .ref address)
    (m : Memory) (hops : Nat) : m.followFrom hops value = .ok value := by
  cases value with
  | ref address => exact absurd rfl (noRef address)
  | null | int | float | str | unknown => simp only [followFrom]

theorem followFrom_of_holds {address : Int64} (holds : Holds m.heap address a) (hops : Nat) :
    m.followFrom (hops + 1) (.ref address) = m.followFrom hops a := by
  simp only [followFrom, (Table.load_eq_ok_iff m address a).mpr holds]

/-- Following goes along a chain as long as hops are left. -/
theorem followFrom_of_chain (chain : RefChain m.heap hops a b) (more : Nat) :
    m.followFrom (hops + more) a = m.followFrom more b := by
  induction chain with
  | here => rw [Nat.zero_add]
  | @hop _ _ _ hops holds rest ih => rw [Nat.add_right_comm, followFrom_of_holds holds, ih]

/-- Every chain that comes to an end is followed to it, and another hop is left there. -/
theorem exists_follow_eq (chain : RefChain m.heap hops a b) (last : RefChain.Last m.heap b) :
    ∃ more, m.follow a = m.followFrom (more + 1) b := by
  have enough := chain.hops_le_size last
  refine ⟨m.heap.size - hops, ?_⟩
  rw [← followFrom_of_chain chain, follow]
  congr 1
  omega

theorem follow_of_endsIn {value : Atom} (ends : RefChain.EndsIn m.heap a value) :
    m.follow a = .ok value := by
  obtain ⟨hops, chain⟩ := ends.1
  obtain ⟨more, followed⟩ := exists_follow_eq chain ends.last
  rw [followed, followFrom_of_forall_ne ends.2]

theorem follow_of_leavesAt {address : Int64} (leaves : RefChain.LeavesAt m.heap a address) :
    m.follow a = .error (.heapBounds ⟨address, m.heap.size⟩) := by
  obtain ⟨hops, chain⟩ := leaves.1
  obtain ⟨more, followed⟩ := exists_follow_eq chain leaves.last
  have loaded := (Table.load_eq_error_iff m address _).mpr ⟨leaves.last address rfl, rfl⟩
  rw [followed]
  simp only [followFrom, loaded]

/-- A chain without an end uses up any number of hops. -/
theorem followFrom_of_endless (endless : RefChain.Endless m.heap a) (hops : Nat) :
    m.followFrom hops a = .error .referenceCycle := by
  induction hops generalizing a with
  | zero =>
      obtain ⟨b, chain⟩ := endless 1
      cases chain with
      | hop holds rest => rfl
  | succ hops ih =>
      obtain ⟨b, chain⟩ := endless 1
      cases chain with
      | hop holds rest => rw [followFrom_of_holds holds, ih (endless.next holds)]

theorem follow_eq_ok_iff {value : Atom} :
    m.follow a = .ok value ↔ RefChain.EndsIn m.heap a value := by
  refine ⟨fun followed => ?_, follow_of_endsIn⟩
  rcases RefChain.endsIn_or_leavesAt_or_endless m.heap a with
    ⟨found, ends⟩ | ⟨address, leaves⟩ | endless
  · cases (follow_of_endsIn ends).symm.trans followed
    exact ends
  · cases (follow_of_leavesAt leaves).symm.trans followed
  · cases (followFrom_of_endless endless _).symm.trans followed

-- A chain through every cell, one that leaves the heap behind the last cell, and a cycle.
example : follow ⟨[], #[.ref 1, .ref 2, .str "x"]⟩ (.ref 0) = .ok (.str "x") := by decide
example : follow ⟨[], #[.ref 1, .ref 2, .ref 3]⟩ (.ref 0) = .error (.heapBounds ⟨3, 3⟩) := by decide
example : follow ⟨[], #[.ref 1, .ref 2, .ref 0]⟩ (.ref 0) = .error .referenceCycle := by decide

end Memory

namespace Primitive

variable {heap : Array Atom} {a : Atom} {rest : List Atom} {input : Input} {output : Output}

end Primitive

end StackMachine
