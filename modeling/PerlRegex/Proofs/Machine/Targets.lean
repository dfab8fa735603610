import PerlRegex.Proofs.Groups
import PerlRegex.Proofs.Machine.Decision
namespace PerlRegex

/-! What the instructions of a program refer to exists: they lead to addresses of the program, and
they name registers and groups that the machine has. -/

/-- All that an instruction refers to exists where there are so many addresses, registers and
groups. -/
def Instruction.Within (addresses registers groups : Nat) : Instruction → Prop
  | .split first second => first < addresses ∧ second < addresses
  | .jump target => target < addresses
  | .openGroup register | .loopStart register => register < registers
  | .closeGroup group register => group < groups ∧ register < registers
  | .backreference listed _ => ∀ group ∈ listed, group < groups
  | .look _ _ next | .atomic next => next < addresses
  | .loopCheck register exit head => register < registers ∧ exit < addresses ∧ head < addresses
  | .accept | .endBody | .character _ | .oneOf _ | .anyCharacter | .notNewline | .lineBreak
  | .charSet _ | .assertion _ => True

namespace Node

variable {addresses registers groups : Nat}

theorem within_literalInstruction (utf8 : Bool) (character : Nat) (caseless : Bool) :
    (literalInstruction utf8 character caseless).Within addresses registers groups := by
  rw [literalInstruction]
  split
  · trivial
  · dsimp only
    split <;> trivial

theorem within_choice {greedy : Bool} {body skip : Nat} (bodyInside : body < addresses)
    (skipInside : skip < addresses) :
    (choice greedy body skip).Within addresses registers groups := by
  cases greedy
  · exact ⟨skipInside, bodyInside⟩
  · exact ⟨bodyInside, skipInside⟩

theorem end_of_copy_le (size : Nat) {copy count : Nat} (below : copy < count) :
    copy * size + size ≤ count * size := by
  rw [← Nat.succ_mul]
  exact Nat.mul_le_mul_right size below

/-- The code of a tree refers to what there is, if the program goes on behind it and has the
registers that it uses. -/
theorem within_of_mem_code {utf8 : Bool} {node : Node (List Nat)}
    (named : node.GroupsBelow groups) {address register : Nat}
    (addressInside : address + node.codeSize utf8 < addresses)
    (registerInside : register + node.registerCount utf8 ≤ registers)
    {instruction : Instruction} (member : instruction ∈ node.code utf8 address register) :
    instruction.Within addresses registers groups := by
  induction node generalizing address register with
  | empty => simp [code] at member
  | literal character caseless =>
      rw [List.mem_singleton.mp member]
      exact within_literalInstruction utf8 character caseless
  | anyCharacter | notNewline | lineBreak | charSet | assertion =>
      rw [List.mem_singleton.mp member]
      trivial
  | group body induction => exact induction named addressInside registerInside member
  | capture number body induction =>
      simp only [codeSize, registerCount] at addressInside registerInside
      rw [code, List.cons_append, List.mem_cons, List.mem_append, List.mem_singleton] at member
      rcases member with rfl | member | rfl
      · change register < registers
        omega
      · exact induction named.2 (by omega) (by omega) member
      · exact ⟨named.1, by omega⟩
  | sequence first second firstInduction secondInduction =>
      simp only [codeSize, registerCount] at addressInside registerInside
      rw [code, List.mem_append] at member
      rcases member with member | member
      · exact firstInduction named.1 (by omega) (by omega) member
      · exact secondInduction named.2 (by omega) (by omega) member
  | alternation first second firstInduction secondInduction =>
      simp only [codeSize, registerCount] at addressInside registerInside
      rw [code] at member
      simp only [List.cons_append, List.mem_cons, List.mem_append] at member
      rcases member with rfl | member | rfl | member
      · exact ⟨by omega, by omega⟩
      · exact firstInduction named.1 (by omega) (by omega) member
      · change address + first.codeSize utf8 + 2 + second.codeSize utf8 < addresses
        omega
      · exact secondInduction named.2 (by omega) (by omega) member
  | repetition body least greatest greedy induction =>
      simp only [codeSize, registerCount] at addressInside registerInside
      simp only [code, List.mem_append] at member
      rcases member with member | member
      · rcases List.mem_flatMap.mp member with ⟨copy, listed, member⟩
        have below := List.mem_range.mp listed
        have fits := end_of_copy_le (body.codeSize utf8) below
        have registersFit := end_of_copy_le (body.registerCount utf8) below
        exact induction named (by omega) (by omega) member
      · cases greatest with
        | some greatest =>
            rcases List.mem_flatMap.mp member with ⟨copy, listed, member⟩
            have below := List.mem_range.mp listed
            have fits := end_of_copy_le (body.codeSize utf8 + 1) below
            have registersFit := end_of_copy_le (body.registerCount utf8) below
            dsimp only at addressInside registerInside
            rcases List.mem_cons.mp member with rfl | member
            · exact within_choice (by omega) (by omega)
            · exact induction named (by omega) (by omega) member
        | none =>
            by_cases check : body.needsCheck utf8 = true
            · simp only [check, if_true] at addressInside registerInside member
              simp only [List.cons_append, List.mem_cons, List.mem_append, List.not_mem_nil,
                or_false] at member
              rcases member with rfl | rfl | member | rfl
              · change register + least * body.registerCount utf8 < registers
                omega
              · exact within_choice (by omega) (by omega)
              · exact induction named (by omega) (by omega) member
              · exact ⟨by omega, by omega, by omega⟩
            · simp only [check] at addressInside registerInside member
              simp only [Bool.false_eq_true, if_false, List.cons_append, List.mem_cons,
                List.mem_append, List.not_mem_nil, or_false]
                at addressInside registerInside member
              rcases member with rfl | member | rfl
              · exact within_choice (by omega) (by omega)
              · exact induction named (by omega) (by omega) member
              · change address + least * body.codeSize utf8 < addresses
                omega
  | backreference listed caseless =>
      rw [List.mem_singleton.mp member]
      exact named
  | look direction negated body induction =>
      simp only [codeSize, registerCount] at addressInside registerInside
      rw [code, List.cons_append, List.mem_cons, List.mem_append, List.mem_singleton] at member
      rcases member with rfl | member | rfl
      · change address + body.codeSize utf8 + 2 < addresses
        omega
      · exact induction named (by omega) (by omega) member
      · trivial
  | atomic body induction =>
      simp only [codeSize, registerCount] at addressInside registerInside
      rw [code, List.cons_append, List.mem_cons, List.mem_append, List.mem_singleton] at member
      rcases member with rfl | member | rfl
      · change address + body.codeSize utf8 + 2 < addresses
        omega
      · exact induction named (by omega) (by omega) member
      · trivial

end Node

theorem Machine.Compiled.within {program : Program} (compiled : Machine.Compiled program)
    {instruction : Instruction} (member : instruction ∈ program.instructions) :
    instruction.Within program.instructions.size program.registers
      (program.pattern.captures + 1) := by
  have size : program.instructions.size = program.pattern.tree.codeSize program.utf8 + 1 := by
    simp [compiled.instructions]
  rw [compiled.instructions, List.mem_toArray, List.mem_append, List.mem_singleton] at member
  rcases member with member | rfl
  · exact Node.within_of_mem_code compiled.groups (by omega)
      (Nat.le_of_eq (by rw [compiled.registers, Nat.zero_add])) member
  · trivial

end PerlRegex
