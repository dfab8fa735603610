import PerlRegex.Proofs.Machine.Safety
namespace PerlRegex

/-! Where the code for a part of a tree stands within the code for the tree. A body that is repeated
stands there once for each of its copies, and not at all if there is none. -/

/-- The code for a tree at `start`, with registers from `base` on, has the code for one of its
parts at an address, with registers from `register` on. -/
inductive Node.Places (utf8 : Bool) (part : Node (List Nat)) (address register : Nat) :
    Node (List Nat) → (start base : Nat) → Prop
  | here : Places utf8 part address register part address register
  | group {body : Node (List Nat)} {start base : Nat} :
      Places utf8 part address register body start base →
      Places utf8 part address register (.group body) start base
  | capture {number : Nat} {body : Node (List Nat)} {start base : Nat} :
      Places utf8 part address register body (start + 1) (base + 1) →
      Places utf8 part address register (.capture number body) start base
  | first {first second : Node (List Nat)} {start base : Nat} :
      Places utf8 part address register first start base →
      Places utf8 part address register (.sequence first second) start base
  | second {first second : Node (List Nat)} {start base : Nat} :
      Places utf8 part address register second (start + first.codeSize utf8)
        (base + first.registerCount utf8) →
      Places utf8 part address register (.sequence first second) start base
  | left {first second : Node (List Nat)} {start base : Nat} :
      Places utf8 part address register first (start + 1) base →
      Places utf8 part address register (.alternation first second) start base
  | right {first second : Node (List Nat)} {start base : Nat} :
      Places utf8 part address register second (start + first.codeSize utf8 + 2)
        (base + first.registerCount utf8) →
      Places utf8 part address register (.alternation first second) start base
  | counted {body : Node (List Nat)} {least copy start base : Nat} {greatest : Option Nat}
      {greedy : Bool} : copy < least →
      Places utf8 part address register body (start + copy * body.codeSize utf8)
        (base + copy * body.registerCount utf8) →
      Places utf8 part address register (.repetition body least greatest greedy) start base
  | optional {body : Node (List Nat)} {least greatest copy start base : Nat} {greedy : Bool} :
      copy < greatest - least →
      Places utf8 part address register body
        (start + least * body.codeSize utf8 + copy * (body.codeSize utf8 + 1) + 1)
        (base + least * body.registerCount utf8 + copy * body.registerCount utf8) →
      Places utf8 part address register (.repetition body least (some greatest) greedy) start base
  | checked {body : Node (List Nat)} {least start base : Nat} {greedy : Bool} :
      body.needsCheck utf8 = true →
      Places utf8 part address register body (start + least * body.codeSize utf8 + 1 + 1)
        (base + least * body.registerCount utf8 + 1) →
      Places utf8 part address register (.repetition body least none greedy) start base
  | unchecked {body : Node (List Nat)} {least start base : Nat} {greedy : Bool} :
      body.needsCheck utf8 = false →
      Places utf8 part address register body (start + least * body.codeSize utf8 + 1)
        (base + least * body.registerCount utf8) →
      Places utf8 part address register (.repetition body least none greedy) start base
  | look {direction : LookDirection} {negated : Bool} {body : Node (List Nat)}
      {start base : Nat} :
      Places utf8 part address register body (start + 1) base →
      Places utf8 part address register (.look direction negated body) start base
  | atomic {body : Node (List Nat)} {start base : Nat} :
      Places utf8 part address register body (start + 1) base →
      Places utf8 part address register (.atomic body) start base

namespace Machine

variable {attempt : Attempt} {node : Node (List Nat)} {address register : Nat}

theorem Attempt.HasCode.copy {count : Nat} {part : Nat → List Instruction} (size : Nat)
    (sized : ∀ copy, (part copy).length = size)
    (hasCode : attempt.HasCode address ((List.range count).flatMap part)) {copy : Nat}
    (below : copy < count) : attempt.HasCode (address + copy * size) (part copy) := by
  induction count generalizing address part copy with
  | zero => omega
  | succ count induction =>
      rcases hasCode.copies with ⟨first, rest⟩
      cases copy with
      | zero =>
          rw [Nat.zero_mul, Nat.add_zero]
          exact first
      | succ copy =>
          rw [sized] at rest
          rw [Nat.succ_mul, Nat.add_comm (copy * size), ← Nat.add_assoc]
          exact induction (fun copy => sized (copy + 1)) rest (Nat.lt_of_succ_lt_succ below)

/-- A program has the code for a tree at an address, and the groups and the registers that the code
uses. -/
structure Attempt.HasTree (attempt : Attempt) (node : Node (List Nat)) (address register : Nat) :
    Prop where
  code : attempt.HasCode address (node.code attempt.program.utf8 address register)
  groups : node.GroupsBelow (attempt.program.pattern.captures + 1)
  registers : register + node.registerCount attempt.program.utf8 ≤ attempt.program.registers

namespace Attempt.HasTree

theorem of_places {whole : Node (List Nat)} {start base : Nat}
    (places : Node.Places attempt.program.utf8 node address register whole start base)
    (hasTree : attempt.HasTree whole start base) : attempt.HasTree node address register := by
  induction places with
  | here => exact hasTree
  | group _ induction => exact induction ⟨hasTree.code, hasTree.groups, hasTree.registers⟩
  | capture _ induction =>
      have registers := hasTree.registers
      rw [Node.registerCount] at registers
      exact induction ⟨hasTree.code.tail.left, hasTree.groups.2, by omega⟩
  | first _ induction =>
      have registers := hasTree.registers
      rw [Node.registerCount] at registers
      exact induction ⟨hasTree.code.left, hasTree.groups.1, by omega⟩
  | second _ induction =>
      have registers := hasTree.registers
      have code := hasTree.code.right
      rw [Node.length_code] at code
      rw [Node.registerCount] at registers
      exact induction ⟨code, hasTree.groups.2, by omega⟩
  | left _ induction =>
      have registers := hasTree.registers
      rw [Node.registerCount] at registers
      exact induction ⟨hasTree.code.tail.left, hasTree.groups.1, by omega⟩
  | @right first second start base _ induction =>
      have registers := hasTree.registers
      have code := hasTree.code.tail.right.tail
      have there : start + 1 + first.codeSize attempt.program.utf8 + 1 =
          start + first.codeSize attempt.program.utf8 + 2 := by omega
      rw [Node.length_code, there] at code
      rw [Node.registerCount] at registers
      exact induction ⟨code, hasTree.groups.2, by omega⟩
  | @counted body least copy start base greatest greedy below _ induction =>
      have registers := hasTree.registers
      have fits := Node.end_of_copy_le (body.registerCount attempt.program.utf8) below
      simp only [Node.registerCount] at registers
      have code := hasTree.code.left.copy _ (fun copy => Node.length_code _ _ _ _) below
      exact induction ⟨code, hasTree.groups, by omega⟩
  | @optional body least greatest copy start base greedy below _ induction =>
      have registers := hasTree.registers
      have fits := Node.end_of_copy_le (body.registerCount attempt.program.utf8) below
      simp only [Node.registerCount] at registers
      have optional := hasTree.code.right
      rw [Node.length_flatMap_range _ (body.codeSize attempt.program.utf8) _
        fun _ => Node.length_code _ _ _ _] at optional
      have code := optional.copy (body.codeSize attempt.program.utf8 + 1)
        (fun copy => by rw [List.length_cons, Node.length_code]) below
      exact induction ⟨code.tail, hasTree.groups, by omega⟩
  | @checked body least start base greedy needed _ induction =>
      have registers := hasTree.registers
      have optional := hasTree.code.right
      rw [Node.length_flatMap_range _ (body.codeSize attempt.program.utf8) _
        fun _ => Node.length_code _ _ _ _] at optional
      simp only [Node.registerCount, needed, if_true] at registers optional
      exact induction ⟨optional.tail.tail.left, hasTree.groups, by omega⟩
  | @unchecked body least start base greedy needless _ induction =>
      have registers := hasTree.registers
      have optional := hasTree.code.right
      rw [Node.length_flatMap_range _ (body.codeSize attempt.program.utf8) _
        fun _ => Node.length_code _ _ _ _] at optional
      simp only [Node.registerCount, needless, Bool.false_eq_true, if_false]
        at registers optional
      exact induction ⟨optional.tail.left, hasTree.groups, by omega⟩
  | look _ induction =>
      exact induction ⟨hasTree.code.tail.left, hasTree.groups, hasTree.registers⟩
  | atomic _ induction =>
      exact induction ⟨hasTree.code.tail.left, hasTree.groups, hasTree.registers⟩

theorem of_compiled (compiled : Compiled attempt.program) :
    attempt.HasTree attempt.program.pattern.tree 0 0 where
  code := fun index instruction found => by
    have inside := (List.getElem?_eq_some_iff.mp found).1
    rw [compiled.instructions, Nat.zero_add, List.getElem?_toArray,
      List.getElem?_append_left inside, found]
  groups := compiled.groups
  registers := Nat.le_of_eq (by rw [compiled.registers, Nat.zero_add])

theorem fits {state : State} (hasTree : attempt.HasTree node address register)
    (sound : state.Sound attempt.program attempt.subject.size) :
    Fits state attempt.program.utf8 node register where
  groups := by
    have slots := sound.stores.slotCount
    rw [Program.slotCount] at slots
    rw [slots, Nat.mul_div_cancel_left _ (by decide)]
    exact hasTree.groups
  registers := sound.stores.registerCount ▸ hasTree.registers

end Attempt.HasTree

end Machine

end PerlRegex
