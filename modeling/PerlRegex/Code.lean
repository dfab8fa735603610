import PerlRegex.Instruction
namespace PerlRegex.Node

/-! The code of a tree. The size of the code and the number of registers it uses follow from the
tree, so the code for a part can be given once its address and its first register are known. -/

/-- A literal as an instruction. Outside UTF-8 mode only the letters of ASCII have variants. -/
def literalInstruction (utf8 : Bool) (character : Nat) (caseless : Bool) : Instruction :=
  if !caseless then .character character
  else
    let variants := (CaseFolding.variants character).filter fun variant =>
      variant == character || utf8 || (character < 0x80 && variant < 0x80)
    if variants.length = 1 then .character character else .oneOf variants

def choice (greedy : Bool) (body skip : Nat) : Instruction :=
  if greedy then .split body skip else .split skip body

/-- A loop whose body could match nothing has to watch for iterations that do. -/
def needsCheck (utf8 : Bool) (body : Node Reference) : Bool := body.minBytes utf8 == 0

def codeSize (utf8 : Bool) : Node Reference → Nat
  | .empty => 0
  | .literal _ _ | .anyCharacter | .notNewline | .lineBreak | .charSet _ | .assertion _
  | .backreference _ _ => 1
  | .group body => body.codeSize utf8
  | .capture _ body | .look _ _ body | .atomic body => body.codeSize utf8 + 2
  | .sequence first second => first.codeSize utf8 + second.codeSize utf8
  | .alternation first second => first.codeSize utf8 + second.codeSize utf8 + 2
  | .repetition body least greatest _ =>
      least * body.codeSize utf8 +
        match greatest with
        | some greatest => (greatest - least) * (body.codeSize utf8 + 1)
        | none => body.codeSize utf8 + if body.needsCheck utf8 then 3 else 2

/-- The number of registers of a tree. Each copy of a repeated body has registers of its own. -/
def registerCount (utf8 : Bool) : Node Reference → Nat
  | .group body | .look _ _ body | .atomic body => body.registerCount utf8
  | .capture _ body => body.registerCount utf8 + 1
  | .sequence first second | .alternation first second =>
      first.registerCount utf8 + second.registerCount utf8
  | .repetition body least greatest _ =>
      least * body.registerCount utf8 +
        match greatest with
        | some greatest => (greatest - least) * body.registerCount utf8
        | none => body.registerCount utf8 + if body.needsCheck utf8 then 1 else 0
  | _ => 0

def code (utf8 : Bool) : Node (List Nat) → (address register : Nat) → List Instruction
  | .empty, _, _ => []
  | .literal character caseless, _, _ => [literalInstruction utf8 character caseless]
  | .anyCharacter, _, _ => [.anyCharacter]
  | .notNewline, _, _ => [.notNewline]
  | .lineBreak, _, _ => [.lineBreak]
  | .charSet set, _, _ => [.charSet set]
  | .assertion condition, _, _ => [.assertion condition]
  | .group body, address, register => body.code utf8 address register
  | .capture number body, address, register =>
      .openGroup register :: body.code utf8 (address + 1) (register + 1)
        ++ [.closeGroup number register]
  | .sequence first second, address, register =>
      first.code utf8 address register
        ++ second.code utf8 (address + first.codeSize utf8) (register + first.registerCount utf8)
  | .alternation first second, address, register =>
      let secondAddress := address + first.codeSize utf8 + 2
      .split (address + 1) secondAddress :: first.code utf8 (address + 1) register
        ++ .jump (secondAddress + second.codeSize utf8)
        :: second.code utf8 secondAddress (register + first.registerCount utf8)
  | .repetition body least greatest greedy, address, register =>
      let size := body.codeSize utf8
      let registers := body.registerCount utf8
      let optionalAddress := address + least * size
      let optionalRegister := register + least * registers
      (List.range least).flatMap (fun copy =>
          body.code utf8 (address + copy * size) (register + copy * registers))
        ++ match greatest with
        | some greatest =>
            let exit := optionalAddress + (greatest - least) * (size + 1)
            (List.range (greatest - least)).flatMap fun copy =>
              let start := optionalAddress + copy * (size + 1)
              choice greedy (start + 1) exit
                :: body.code utf8 (start + 1) (optionalRegister + copy * registers)
        | none =>
            if body.needsCheck utf8 then
              let head := optionalAddress + 1
              let exit := head + size + 2
              .loopStart optionalRegister :: choice greedy (head + 1) exit
                :: body.code utf8 (head + 1) (optionalRegister + 1)
                ++ [.loopCheck optionalRegister exit head]
            else
              let exit := optionalAddress + size + 2
              choice greedy (optionalAddress + 1) exit
                :: body.code utf8 (optionalAddress + 1) optionalRegister ++ [.jump optionalAddress]
  | .backreference groups caseless, _, _ => [.backreference groups caseless]
  | .look direction negated body, address, register =>
      .look direction negated (address + body.codeSize utf8 + 2)
        :: body.code utf8 (address + 1) register ++ [.endBody]
  | .atomic body, address, register =>
      .atomic (address + body.codeSize utf8 + 2) :: body.code utf8 (address + 1) register
        ++ [.endBody]

/-! The code is as long as announced. -/

theorem length_flatMap_range (count size : Nat) (part : Nat → List Instruction)
    (length_part : ∀ copy, (part copy).length = size) :
    ((List.range count).flatMap part).length = count * size := by
  induction count with
  | zero => simp
  | succ count induction =>
      rw [List.range_succ, List.flatMap_append, List.length_append, induction]
      simp [length_part, Nat.succ_mul]

@[simp] theorem length_code (utf8 : Bool) (node : Node (List Nat)) (address register : Nat) :
    (node.code utf8 address register).length = node.codeSize utf8 := by
  induction node generalizing address register with
  | repetition body least greatest greedy induction =>
      have mandatory := length_flatMap_range least (body.codeSize utf8)
        (fun copy => body.code utf8 (address + copy * body.codeSize utf8)
          (register + copy * body.registerCount utf8))
        (fun copy => induction _ _)
      cases greatest with
      | some greatest =>
          have optional := length_flatMap_range (greatest - least) (body.codeSize utf8 + 1)
            (fun copy =>
              let start := address + least * body.codeSize utf8
                + copy * (body.codeSize utf8 + 1)
              choice greedy (start + 1) (address + least * body.codeSize utf8
                + (greatest - least) * (body.codeSize utf8 + 1))
                :: body.code utf8 (start + 1)
                  (register + least * body.registerCount utf8
                    + copy * body.registerCount utf8))
            (fun copy => by simp [induction])
          simp only [code, codeSize, List.length_append, mandatory, optional]
      | none =>
          simp only [code, codeSize, List.length_append, mandatory]
          split <;> simp [induction]
  | _ => simp_all [code, codeSize] <;> omega

end PerlRegex.Node
