import PerlRegex.Machine.Stack
import PerlRegex.Proofs.Machine.Effects
namespace PerlRegex.Machine

/-! What is done to the stack above a base. -/

/-! ## Dropping choices in place -/

section

variable {stack : Array Frame} {front gap rest : List Frame} {frame : Frame}

theorem getElem_behind (parts : stack.toList = front ++ frame :: rest) {index : Nat}
    (behind : index = front.length) (inside : index < stack.size) : stack[index] = frame := by
  have found : stack[index]? = some frame := by
    rw [← Array.getElem?_toList, parts, behind, List.getElem?_append_right (Nat.le_refl _),
      Nat.sub_self]
    rfl
  exact Option.some.inj ((Array.getElem?_eq_getElem inside).symm.trans found)

theorem toList_swap_over (parts : stack.toList = front ++ gap ++ frame :: rest) :
    ∃ passed, passed.length = gap.length
      ∧ (stack.swapIfInBounds front.length (front.length + gap.length)).toList =
        (front ++ [frame]) ++ passed ++ rest := by
  have size := congrArg List.length parts
  simp only [Array.length_toList, List.length_append, List.length_cons] at size
  have first : front.length < stack.size := by omega
  have second : front.length + gap.length < stack.size := by omega
  rw [Array.swapIfInBounds, dif_pos first, dif_pos second, Array.toList_swap,
    getElem_behind parts List.length_append.symm second]
  cases gap with
  | nil =>
      rw [List.append_nil] at parts
      rw [getElem_behind parts rfl first, parts]
      exact ⟨[], rfl, by simp⟩
  | cons head gap =>
      rw [List.append_assoc, List.cons_append] at parts
      rw [getElem_behind parts rfl first, parts]
      exact ⟨gap ++ [head], by simp, by simp⟩

/-- The frames that stay keep their order. -/
theorem toList_dropChoices (parts : stack.toList = front ++ gap ++ rest) :
    (dropChoices stack front.length (front.length + gap.length)).toList =
      front ++ rest.filter fun frame => !frame.isChoice := by
  induction rest generalizing stack front gap with
  | nil =>
      have size := congrArg List.length parts
      simp only [List.append_nil, Array.length_toList, List.length_append] at size
      rw [dropChoices, dif_neg (by omega), Array.take, Array.toList_extract, parts]
      simp
  | cons frame rest induction =>
      have size := congrArg List.length parts
      simp only [Array.length_toList, List.length_append, List.length_cons] at size
      have inside : front.length + gap.length < stack.size := by omega
      rw [dropChoices, dif_pos inside, getElem_behind parts List.length_append.symm inside]
      cases choice : frame.isChoice with
      | true =>
          have longer : stack.toList = front ++ (gap ++ [frame]) ++ rest := by simp [parts]
          have dropped := induction longer
          rw [List.length_append, List.length_singleton, ← Nat.add_assoc] at dropped
          simp [dropped, choice]
      | false =>
          rcases toList_swap_over parts with ⟨passed, length, swapped⟩
          have dropped := induction swapped
          rw [length, List.length_append, List.length_singleton, Nat.add_right_comm] at dropped
          simp [dropped, choice]

end

namespace Storage

variable {above below : List Frame} {slots : Array (Option Nat)} {registers : Array Nat}

theorem commit_append :
    (Storage.mk (above ++ below) slots registers).commit below.length =
      ⟨(above.filter fun frame => !frame.isChoice) ++ below, slots, registers⟩ := by
  have parts : (above ++ below).reverse.toArray.toList = below.reverse ++ [] ++ above.reverse := by
    rw [List.toList_toArray, List.reverse_append, List.append_nil]
  have dropped := toList_dropChoices parts
  rw [List.length_reverse, List.length_nil, Nat.add_zero] at dropped
  rw [commit]
  dsimp only
  rw [dropped, List.reverse_append, List.reverse_reverse, List.filter_reverse,
    List.reverse_reverse]

theorem unwindFrom_append (storage : Storage) :
    storage.unwindFrom below.length (above ++ below) =
      ⟨below, slotsBefore above storage.slots, registersBefore above storage.registers⟩ := by
  induction above generalizing storage with
  | nil =>
      cases below with
      | nil => rfl
      | cons frame below =>
          rw [List.nil_append, unwindFrom, if_pos (by rw [List.length_cons]; omega)]
          rfl
  | cons frame above induction =>
      have higher : ¬ (above ++ below).length < below.length := by
        rw [List.length_append]
        omega
      rw [List.cons_append, unwindFrom, if_neg higher, induction]
      cases frame <;> rfl

theorem unwind_append :
    (Storage.mk (above ++ below) slots registers).unwind below.length =
      ⟨below, slotsBefore above slots, registersBefore above registers⟩ :=
  unwindFrom_append _

end Storage

end PerlRegex.Machine
