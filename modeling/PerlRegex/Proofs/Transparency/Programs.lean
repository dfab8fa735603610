import Mathlib.Data.List.Forall2
import PerlRegex.Proofs.CaseFolding.Agreement
import PerlRegex.Proofs.Interpretation
import PerlRegex.Proofs.Transparency.Patterns

/-! The code of a pattern in UTF-8 mode. It differs from the code outside of the mode in the
literals alone, which may have variants beyond ASCII there. -/

namespace PerlRegex

namespace Node

/-! ## Sizes -/

theorem minBytes_eq_zero_iff (node : Node Reference) :
    node.minBytes true = 0 ↔ node.minBytes false = 0 := by
  induction node with
  | literal character caseless =>
      have positive : ∀ utf8,
          minBytes utf8 (.literal character caseless : Node Reference) ≠ 0 := by
        intro utf8
        rw [minBytes]
        split
        · rw [Utf8.encodedLength]
          repeat' split
          all_goals decide
        · decide
      exact iff_of_false (positive true) (positive false)
  | group body induction => exact induction
  | capture number body induction => exact induction
  | atomic body induction => exact induction
  | sequence first second firstInduction secondInduction =>
      rw [minBytes, minBytes, Nat.add_eq_zero_iff, Nat.add_eq_zero_iff, firstInduction,
        secondInduction]
  | alternation first second firstInduction secondInduction =>
      rw [minBytes, minBytes, Nat.min_eq_zero_iff, Nat.min_eq_zero_iff, firstInduction,
        secondInduction]
  | repetition body least greatest greedy induction =>
      rw [minBytes, minBytes, Nat.mul_eq_zero, Nat.mul_eq_zero, induction]
  | _ => rfl

theorem needsCheck_true (body : Node Reference) : body.needsCheck true = body.needsCheck false := by
  rw [needsCheck, needsCheck, Bool.eq_iff_iff, beq_iff_eq, beq_iff_eq, minBytes_eq_zero_iff]

theorem codeSize_true (node : Node Reference) : node.codeSize true = node.codeSize false := by
  induction node with
  | repetition body least greatest greedy induction =>
      cases greatest <;> simp only [codeSize, induction, needsCheck_true]
  | _ => simp_all only [codeSize]

theorem registerCount_true (node : Node Reference) :
    node.registerCount true = node.registerCount false := by
  induction node with
  | repetition body least greatest greedy induction =>
      simp only [registerCount, induction, needsCheck_true]
  | _ => simp_all only [registerCount]

end Node

/-! ## Instructions -/

/-- Instructions that do the same wherever the subject has ASCII characters only: one instruction,
or the two for one literal. -/
inductive Instruction.Alike : Instruction → Instruction → Prop
  | same (instruction : Instruction) : Alike instruction instruction
  | literal {character : Nat} (small : character < 0x100) (caseless : Bool) :
      Alike (Node.literalInstruction false character caseless)
        (Node.literalInstruction true character caseless)

/-- A character beyond ASCII that is a byte has no variants in ASCII. -/
theorem Node.literalAccepts_of_ascii {literal character : Nat} (small : literal < 0x100)
    (ascii : character < 0x80) (caseless : Bool) :
    literalAccepts true literal caseless character =
      literalAccepts false literal caseless character := by
  cases caseless with
  | false => rfl
  | true =>
      have byte : character < 0x100 := Nat.lt_trans ascii (by decide)
      rw [Bool.eq_iff_iff]
      simp only [literalAccepts, List.contains_iff_mem, Bool.or_eq_true, Bool.and_eq_true,
        beq_iff_eq, decide_eq_true_eq, true_and, true_or, and_true, false_or, Bool.false_eq_true]
      rw [CaseFolding.ascii_variant_iff_fold small byte,
        CaseFolding.mem_variants_iff_of_bytes small byte]
      constructor
      · rintro (rfl | same | latin)
        · rfl
        · exact same
        · exact absurd latin.beyond.2.1 (Nat.not_le_of_lt ascii)
      · exact fun same => .inr (.inl same)

/-! ## Code -/

theorem alike_refl (instructions : List Instruction) :
    List.Forall₂ Instruction.Alike instructions instructions :=
  List.forall₂_same.mpr fun instruction _ => .same instruction

theorem alike_copies (copies : List Nat) {part other : Nat → List Instruction}
    (alike : ∀ copy, List.Forall₂ Instruction.Alike (part copy) (other copy)) :
    List.Forall₂ Instruction.Alike (copies.flatMap part) (copies.flatMap other) :=
  List.rel_flatMap (R := Eq) (by simp) fun _ _ same => same ▸ alike _

/-- Parts have the same size in both modes, and so they stand at the same addresses. -/
theorem Node.alike_code {node : Node (List Nat)} (bytes : Pattern.AreBytes node.literals)
    (address register : Nat) :
    List.Forall₂ Instruction.Alike (node.code false address register)
      (node.code true address register) := by
  induction node generalizing address register with
  | literal character caseless =>
      exact .cons (.literal (bytes character (List.mem_singleton_self character)) caseless) .nil
  | group body induction => exact induction bytes address register
  | capture number body induction =>
      exact List.rel_append (.cons (.same _) (induction bytes _ _)) (alike_refl _)
  | sequence first second firstInduction secondInduction =>
      rcases Pattern.areBytes_append.mp bytes with ⟨firstBytes, secondBytes⟩
      rw [code, code, codeSize_true, registerCount_true]
      exact List.rel_append (firstInduction firstBytes _ _) (secondInduction secondBytes _ _)
  | alternation first second firstInduction secondInduction =>
      rcases Pattern.areBytes_append.mp bytes with ⟨firstBytes, secondBytes⟩
      rw [code, code, codeSize_true, codeSize_true, registerCount_true]
      exact List.rel_append (.cons (.same _) (firstInduction firstBytes _ _))
        (.cons (.same _) (secondInduction secondBytes _ _))
  | repetition body least greatest greedy induction =>
      simp only [code, codeSize_true, registerCount_true, needsCheck_true]
      refine List.rel_append (alike_copies _ fun copy => induction bytes _ _) ?_
      cases greatest with
      | some greatest =>
          exact alike_copies _ fun copy => .cons (.same _) (induction bytes _ _)
      | none =>
          dsimp only
          split
          · exact List.rel_append (.cons (.same _) (.cons (.same _) (induction bytes _ _)))
              (alike_refl _)
          · exact List.rel_append (.cons (.same _) (induction bytes _ _)) (alike_refl _)
  | look direction negated body induction =>
      rw [code, code, codeSize_true]
      exact List.rel_append (.cons (.same _) (induction bytes _ _)) (alike_refl _)
  | atomic body induction =>
      rw [code, code, codeSize_true]
      exact List.rel_append (.cons (.same _) (induction bytes _ _)) (alike_refl _)
  | _ => exact alike_refl _

/-! ## Programs -/

namespace Program

def inUtf8 (program : Program) : Program :=
  { program with
    pattern := program.pattern.inUtf8
    instructions := (program.pattern.tree.code true 0 0 ++ [Instruction.accept]).toArray }

/-- What a program needs for UTF-8 mode to make no difference to it where all characters are ASCII
characters. -/
def Transparent (program : Program) : Prop :=
  List.Forall₂ Instruction.Alike program.instructions.toList program.inUtf8.instructions.toList

theorem Transparent.fetch {program : Program} (transparent : program.Transparent) (address : Nat) :
    (program.instructions[address]? = none ∧ program.inUtf8.instructions[address]? = none)
      ∨ ∃ instruction wide, program.instructions[address]? = some instruction
        ∧ program.inUtf8.instructions[address]? = some wide
        ∧ Instruction.Alike instruction wide := by
  have sizes := transparent.length_eq
  rw [Array.length_toList, Array.length_toList] at sizes
  rcases Nat.lt_or_ge address program.instructions.size with inside | beyond
  · have wideInside : address < program.inUtf8.instructions.size := sizes ▸ inside
    refine .inr ⟨_, _, Array.getElem?_eq_getElem inside, Array.getElem?_eq_getElem wideInside, ?_⟩
    exact transparent.get inside wideInside
  · exact .inl ⟨Array.getElem?_eq_none beyond, Array.getElem?_eq_none (sizes ▸ beyond)⟩

theorem compile_inUtf8 {text : List UInt8} {options : CompileOptions} {program : Program}
    (ascii : Utf8.AllAscii text) (allowed : options.neverUtf = false)
    (compiled : Program.compile text options = .ok program) :
    Program.compile text options.inUtf8 = .ok program.inUtf8 ∧ program.Transparent := by
  unfold Program.compile at compiled
  split at compiled
  · cases compiled
  · rename_i pattern parsed
    rcases Pattern.parse_inUtf8 allowed ascii parsed with ⟨wideParsed, bytes⟩
    have sizes : pattern.tree.codeSize pattern.options.utf8 = pattern.tree.codeSize true := by
      cases pattern.options.utf8 <;> simp only [Node.codeSize_true]
    have registers :
        pattern.tree.registerCount pattern.options.utf8 = pattern.tree.registerCount true := by
      cases pattern.options.utf8 <;> simp only [Node.registerCount_true]
    rw [Program.compile, wideParsed]
    unfold Pattern.program at compiled ⊢
    dsimp only at compiled ⊢
    rw [sizes, registers] at compiled
    split at compiled
    · cases compiled
    · rename_i fits
      injection compiled with same
      rw [← same]
      refine ⟨if_neg fits, ?_⟩
      change List.Forall₂ Instruction.Alike
        (pattern.tree.code pattern.options.utf8 0 0 ++ [Instruction.accept])
        (pattern.tree.code true 0 0 ++ [Instruction.accept])
      refine List.rel_append ?_ (alike_refl _)
      cases mode : pattern.options.utf8 with
      | true => exact alike_refl _
      | false => exact Node.alike_code (bytes mode) 0 0

end Program

end PerlRegex
