import PerlRegex.Proofs.Machine.Targets
namespace PerlRegex

/-! Registers are set before they are read. The code of a group that captures, and of a loop that
watches for empty iterations, is entered by the instruction that sets its register and in no other
way, and nothing outside of it reads the register. -/

/-! ## Where instructions lead -/

namespace Instruction

/-- The addresses that an instruction can lead to from where it stands. Where the end of a body
leads is up to the instruction that began the body. -/
def successors (address : Nat) : Instruction → List Nat
  | .accept | .endBody => []
  | .split first second => [first, second]
  | .jump target => [target]
  | .look _ _ next | .atomic next => [address + 1, next]
  | .loopCheck _ exit head => [exit, head]
  | .character _ | .oneOf _ | .anyCharacter | .notNewline | .lineBreak | .charSet _ | .assertion _
  | .openGroup _ | .closeGroup _ _ | .backreference _ _ | .loopStart _ => [address + 1]

def sets? : Instruction → Option Nat
  | .openGroup register | .loopStart register => some register
  | _ => none

def reads? : Instruction → Option Nat
  | .closeGroup _ register | .loopCheck register _ _ => some register
  | _ => none

/-- An instruction of a stretch of code from `start` to `stop`, where certain registers are known
to be set at each address. It does not lead out of the stretch, it leaves no register unset that is
known to be set where it leads, and it reads no other registers than those that are set. -/
structure Flows (known : Nat → Nat → Prop) (start stop address : Nat) (instruction : Instruction) :
    Prop where
  inside : ∀ next ∈ instruction.successors address, start ≤ next ∧ next ≤ stop
  handed : ∀ next ∈ instruction.successors address, ∀ register, known next register →
    known address register ∨ instruction.sets? = some register
  reads : ∀ register, instruction.reads? = some register → known address register

variable {known wide : Nat → Nat → Prop} {start stop address : Nat} {instruction : Instruction}

theorem reads_of_none (readsNone : instruction.reads? = none) (register : Nat)
    (reading : instruction.reads? = some register) : known address register := by
  rw [readsNone] at reading
  cases reading

theorem Flows.of_single {next : Nat} (leads : instruction.successors address = [next])
    (inside : start ≤ next ∧ next ≤ stop)
    (handed : ∀ register, known next register →
      known address register ∨ instruction.sets? = some register)
    (reads : ∀ register, instruction.reads? = some register → known address register) :
    instruction.Flows known start stop address where
  inside := fun other member => by
    rw [leads, List.mem_singleton] at member
    exact member ▸ inside
  handed := fun other member => by
    rw [leads, List.mem_singleton] at member
    exact member ▸ handed
  reads := reads

theorem Flows.of_jump {next : Nat} (leads : instruction.successors address = [next])
    (readsNone : instruction.reads? = none) (inside : start ≤ next ∧ next ≤ stop)
    (handed : ∀ register, known next register →
      known address register ∨ instruction.sets? = some register) :
    instruction.Flows known start stop address :=
  .of_single leads inside handed (reads_of_none readsNone)

theorem Flows.of_nil (leads : instruction.successors address = [])
    (readsNone : instruction.reads? = none) : instruction.Flows known start stop address where
  inside := fun other member => by
    rw [leads] at member
    cases member
  handed := fun other member => by
    rw [leads] at member
    cases member
  reads := reads_of_none readsNone

theorem Flows.of_pair {first second : Nat}
    (leads : instruction.successors address = [first, second])
    (firstInside : start ≤ first ∧ first ≤ stop) (secondInside : start ≤ second ∧ second ≤ stop)
    (firstHanded : ∀ register, known first register → known address register)
    (secondHanded : ∀ register, known second register → known address register)
    (reads : ∀ register, instruction.reads? = some register → known address register) :
    instruction.Flows known start stop address where
  inside := fun other member => by
    rw [leads, List.mem_cons, List.mem_singleton] at member
    rcases member with rfl | rfl
    · exact firstInside
    · exact secondInside
  handed := fun other member register holds => by
    rw [leads, List.mem_cons, List.mem_singleton] at member
    rcases member with rfl | rfl
    · exact .inl (firstHanded register holds)
    · exact .inl (secondHanded register holds)
  reads := reads

/-- More is known in a wider stretch, but no more where the instruction leads than where it
stands. -/
theorem Flows.widen (flows : instruction.Flows known start stop address) {wideStart wideStop : Nat}
    (starts : wideStart ≤ start) (stops : stop ≤ wideStop)
    (grows : ∀ register, known address register → wide address register)
    (only : ∀ next register, start ≤ next → next ≤ stop → wide next register →
      known next register ∨ wide address register) :
    instruction.Flows wide wideStart wideStop address where
  inside := fun next member => by
    have inside := flows.inside next member
    omega
  handed := fun next member register holds => by
    have inside := flows.inside next member
    rcases only next register inside.1 inside.2 holds with before | already
    · exact (flows.handed next member register before).imp_left (grows register)
    · exact .inl already
  reads := fun register reading => grows register (flows.reads register reading)

end Instruction

/-! ## Codes -/

/-- A code that stands at an address, within a stretch from `start` to `stop`. -/
def CodeFlows (known : Nat → Nat → Prop) (start stop address : Nat) (code : List Instruction) :
    Prop :=
  ∀ index (instruction : Instruction), code[index]? = some instruction →
    instruction.Flows known start stop (address + index)

namespace CodeFlows

variable {known : Nat → Nat → Prop} {start stop address : Nat} {instruction : Instruction}
  {code first second : List Instruction}

theorem nil : CodeFlows known start stop address [] := by
  intro index instruction found
  cases found

theorem cons (head : instruction.Flows known start stop address)
    (tail : CodeFlows known start stop (address + 1) code) :
    CodeFlows known start stop address (instruction :: code) := by
  intro index other found
  cases index with
  | zero =>
      injection found with same
      exact same ▸ head
  | succ index =>
      have later := tail index other found
      rwa [Nat.add_assoc, Nat.add_comm 1] at later

theorem singleton (head : instruction.Flows known start stop address) :
    CodeFlows known start stop address [instruction] :=
  cons head nil

theorem append (front : CodeFlows known start stop address first)
    (back : CodeFlows known start stop (address + first.length) second) :
    CodeFlows known start stop address (first ++ second) := by
  intro index instruction found
  rcases Nat.lt_or_ge index first.length with before | behind
  · rw [List.getElem?_append_left before] at found
    exact front index instruction found
  · rw [List.getElem?_append_right behind] at found
    have later := back _ instruction found
    rwa [Nat.add_assoc, Nat.add_sub_cancel' behind] at later

theorem copies {count size : Nat} {part : Nat → List Instruction}
    (sized : ∀ copy, (part copy).length = size)
    (each : ∀ copy < count, CodeFlows known start stop (address + copy * size) (part copy)) :
    CodeFlows known start stop address ((List.range count).flatMap part) := by
  induction count with
  | zero => exact nil
  | succ count induction =>
      rw [List.range_succ, List.flatMap_append, List.flatMap_singleton]
      apply append
      · exact induction fun copy below => each copy (Nat.lt_succ_of_lt below)
      · rw [Node.length_flatMap_range count size part sized]
        exact each count (Nat.lt_succ_self count)

theorem widen {wide : Nat → Nat → Prop} {wideStart wideStop : Nat}
    (narrow : CodeFlows known start stop start code) (length : stop = start + code.length)
    (starts : wideStart ≤ start) (stops : stop ≤ wideStop)
    (grows : ∀ place register, known place register → wide place register)
    (only : ∀ place next register, start ≤ place → place < stop → start ≤ next → next ≤ stop →
      wide next register → known next register ∨ wide place register) :
    CodeFlows wide wideStart wideStop start code := by
  intro index instruction found
  have inside := (List.getElem?_eq_some_iff.mp found).1
  exact (narrow index instruction found).widen starts stops (fun register => grows _ register)
    fun next register => only _ next register (by omega) (by omega)

theorem within {wideStart wideStop : Nat} (narrow : CodeFlows known start stop start code)
    (length : stop = start + code.length) (starts : wideStart ≤ start) (stops : stop ≤ wideStop) :
    CodeFlows known wideStart wideStop start code :=
  narrow.widen length starts stops (fun _ _ holds => holds) fun _ _ _ _ _ _ _ holds => .inl holds

/-- Two stretches of code, one behind the other. What is known in either is not known where they
meet. -/
theorem meet {firstKnown secondKnown : Nat → Nat → Prop} {middle : Nat}
    (front : CodeFlows firstKnown start middle start first)
    (back : CodeFlows secondKnown middle stop middle second)
    (firstLength : middle = start + first.length) (secondLength : stop = middle + second.length)
    (before : ∀ place register, firstKnown place register → place < middle)
    (behind : ∀ place register, secondKnown place register → middle < place) :
    CodeFlows (fun place register => firstKnown place register ∨ secondKnown place register) start
      stop start (first ++ second) := by
  apply append
  · apply front.widen firstLength (Nat.le_refl _) (by omega)
    · exact fun place register known => .inl known
    · intro place next register _ _ _ upTo known
      refine .inl (known.resolve_right fun known => ?_)
      have := behind next register known
      omega
  · rw [← firstLength]
    apply back.widen secondLength (by omega) (Nat.le_refl _)
    · exact fun place register known => .inr known
    · intro place next register _ _ from_ _ known
      refine .inl (known.resolve_left fun known => ?_)
      have := before next register known
      omega

end CodeFlows

/-! ## Trees -/

namespace Node

variable {utf8 : Bool}

/-- Where the code of a tree has set a register for sure: within the group or the loop that owns
it. -/
def SetAt (utf8 : Bool) (node : Node (List Nat)) (address base place register : Nat) : Prop :=
  match node with
  | .group body => body.SetAt utf8 address base place register
  | .capture _ body =>
      (register = base ∧ address < place ∧ place ≤ address + body.codeSize utf8 + 1)
        ∨ body.SetAt utf8 (address + 1) (base + 1) place register
  | .sequence first second =>
      first.SetAt utf8 address base place register
        ∨ second.SetAt utf8 (address + first.codeSize utf8) (base + first.registerCount utf8) place
          register
  | .alternation first second =>
      first.SetAt utf8 (address + 1) base place register
        ∨ second.SetAt utf8 (address + first.codeSize utf8 + 2) (base + first.registerCount utf8)
          place register
  | .repetition body least greatest _ =>
      let size := body.codeSize utf8
      let registers := body.registerCount utf8
      let optionalAddress := address + least * size
      let optionalBase := base + least * registers
      (∃ copy < least,
          body.SetAt utf8 (address + copy * size) (base + copy * registers) place register)
        ∨ match greatest with
        | some greatest =>
            ∃ copy < greatest - least, body.SetAt utf8 (optionalAddress + copy * (size + 1) + 1)
              (optionalBase + copy * registers) place register
        | none =>
            if body.needsCheck utf8 then
              (register = optionalBase ∧ optionalAddress < place
                  ∧ place ≤ optionalAddress + size + 2)
                ∨ body.SetAt utf8 (optionalAddress + 1 + 1) (optionalBase + 1) place register
            else body.SetAt utf8 (optionalAddress + 1) optionalBase place register
  | .look _ _ body | .atomic body => body.SetAt utf8 (address + 1) base place register
  | .empty | .literal _ _ | .anyCharacter | .notNewline | .lineBreak | .charSet _ | .assertion _
  | .backreference _ _ => False

theorem SetAt.between {node : Node (List Nat)} {place register address base : Nat}
    (known : node.SetAt utf8 address base place register) :
    address < place ∧ place < address + node.codeSize utf8 := by
  induction node generalizing address base with
  | group body induction => exact induction known
  | capture number body induction =>
      rw [codeSize]
      rcases known with ⟨_, behind, before⟩ | known
      · omega
      · have between := induction known
        omega
  | sequence first second firstInduction secondInduction =>
      rw [codeSize]
      rcases known with known | known
      · have between := firstInduction known
        omega
      · have between := secondInduction known
        omega
  | alternation first second firstInduction secondInduction =>
      rw [codeSize]
      rcases known with known | known
      · have between := firstInduction known
        omega
      · have between := secondInduction known
        omega
  | repetition body least greatest greedy induction =>
      simp only [codeSize]
      rcases known with ⟨copy, below, known⟩ | known
      · have between := induction known
        have fits := end_of_copy_le (body.codeSize utf8) below
        omega
      · cases greatest with
        | some greatest =>
            rcases known with ⟨copy, below, known⟩
            have between := induction known
            have fits := end_of_copy_le (body.codeSize utf8 + 1) below
            dsimp only
            omega
        | none =>
            dsimp only at known ⊢
            split at known
            · rename_i needed
              rw [if_pos needed]
              rcases known with ⟨_, behind, before⟩ | known
              · omega
              · have between := induction known
                omega
            · rename_i needless
              rw [if_neg needless]
              have between := induction known
              omega
  | look direction negated body induction =>
      rw [codeSize]
      have between := induction known
      omega
  | atomic body induction =>
      rw [codeSize]
      have between := induction known
      omega
  | _ => exact known.elim

/-- The code of a tree has a register set wherever it reads it, and leads to nowhere but to itself
and to what follows it. -/
def Flows (utf8 : Bool) (node : Node (List Nat)) (address base : Nat) : Prop :=
  CodeFlows (node.SetAt utf8 address base) address (address + node.codeSize utf8) address
    (node.code utf8 address base)

theorem successors_literalInstruction (character : Nat) (caseless : Bool) (address : Nat) :
    (literalInstruction utf8 character caseless).successors address = [address + 1]
      ∧ (literalInstruction utf8 character caseless).reads? = none := by
  rw [literalInstruction]
  split
  · exact ⟨rfl, rfl⟩
  · dsimp only
    split <;> exact ⟨rfl, rfl⟩

theorem flows_test {instruction : Instruction} {known : Nat → Nat → Prop} {address : Nat}
    (leads : instruction.successors address = [address + 1])
    (readsNone : instruction.reads? = none) (unknown : ∀ register, ¬ known (address + 1) register) :
    CodeFlows known address (address + 1) address [instruction] := by
  refine .singleton (.of_jump leads readsNone ⟨Nat.le_succ _, Nat.le_refl _⟩ ?_)
  exact fun register holds => absurd holds (unknown register)

theorem flows_choice {known : Nat → Nat → Prop} {greedy : Bool}
    {start stop address body skip : Nat} (bodyInside : start ≤ body ∧ body ≤ stop)
    (skipInside : start ≤ skip ∧ skip ≤ stop)
    (bodyHanded : ∀ register, known body register → known address register)
    (skipHanded : ∀ register, known skip register → known address register) :
    (choice greedy body skip).Flows known start stop address := by
  cases greedy with
  | false =>
      exact .of_pair rfl skipInside bodyInside skipHanded bodyHanded (Instruction.reads_of_none rfl)
  | true =>
      exact .of_pair rfl bodyInside skipInside bodyHanded skipHanded (Instruction.reads_of_none rfl)

section Copies

variable {body : Node (List Nat)} {size base address count : Nat}

theorem eq_of_within_copies {copy other place : Nat} (within : copy * size ≤ place)
    (upTo : place ≤ copy * size + size) (behind : other * size < place)
    (before : place < other * size + size) : other = copy := by
  rcases Nat.lt_trichotomy other copy with less | same | more
  · have := end_of_copy_le size less
    omega
  · exact same
  · have := end_of_copy_le size more
    omega

variable (each : ∀ address base, body.Flows utf8 address base)
include each

theorem flows_copies :
    CodeFlows
      (fun place register => ∃ copy < count,
        body.SetAt utf8 (address + copy * body.codeSize utf8)
          (base + copy * body.registerCount utf8) place register)
      address (address + count * body.codeSize utf8) address
      ((List.range count).flatMap fun copy =>
        body.code utf8 (address + copy * body.codeSize utf8)
          (base + copy * body.registerCount utf8)) := by
  refine .copies (fun copy => length_code ..) fun copy below => ?_
  have fits := end_of_copy_le (body.codeSize utf8) below
  apply (each _ _).widen (by rw [length_code]) (by omega) (by omega)
  · exact fun place register known => ⟨copy, below, known⟩
  · rintro place next register _ _ from_ upTo ⟨other, _, known⟩
    have between := known.between
    have same : other = copy := by
      apply @eq_of_within_copies (body.codeSize utf8) copy other (next - address) <;> omega
    exact .inl (same ▸ known)

theorem flows_copies_then {known : Nat → Nat → Prop} {stop : Nat} {rest : List Instruction}
    (back : CodeFlows known (address + count * body.codeSize utf8) stop
      (address + count * body.codeSize utf8) rest)
    (length : stop = address + count * body.codeSize utf8 + rest.length)
    (behind : ∀ place register, known place register →
      address + count * body.codeSize utf8 < place) :
    CodeFlows
      (fun place register => (∃ copy < count,
        body.SetAt utf8 (address + copy * body.codeSize utf8)
          (base + copy * body.registerCount utf8) place register)
          ∨ known place register) address stop address
      (((List.range count).flatMap fun copy =>
        body.code utf8 (address + copy * body.codeSize utf8)
          (base + copy * body.registerCount utf8)) ++ rest) := by
  refine (flows_copies each).meet back ?_ length ?_ behind
  · rw [length_flatMap_range count (body.codeSize utf8) _ fun _ => length_code ..]
  · rintro place register ⟨copy, below, known⟩
    have between := known.between
    have fits := end_of_copy_le (body.codeSize utf8) below
    omega

/-- Optional copies of a body, each behind a choice that can skip all that follow. -/
theorem flows_optional {greedy : Bool} {exit : Nat}
    (exits : exit = address + count * (body.codeSize utf8 + 1)) :
    CodeFlows
      (fun place register => ∃ copy < count,
        body.SetAt utf8 (address + copy * (body.codeSize utf8 + 1) + 1)
          (base + copy * body.registerCount utf8) place register)
      address exit address
      ((List.range count).flatMap fun copy =>
        let start := address + copy * (body.codeSize utf8 + 1)
        choice greedy (start + 1) exit
          :: body.code utf8 (start + 1) (base + copy * body.registerCount utf8)) := by
  refine .copies (fun copy => by rw [List.length_cons, length_code]) fun copy below => ?_
  have fits := end_of_copy_le (body.codeSize utf8 + 1) below
  refine .cons ?_ ?_
  -- Nothing is known where a copy begins, nor behind all of them, which is where a choice leads.
  · apply flows_choice (by omega) (by omega)
    · rintro register ⟨other, _, known⟩
      have between := known.between
      have same : other = copy := by
        apply @eq_of_within_copies (body.codeSize utf8 + 1) copy other
          (address + copy * (body.codeSize utf8 + 1) + 1 - address) <;> omega
      rw [same] at between
      omega
    · rintro register ⟨other, otherBelow, known⟩
      have between := known.between
      have otherFits := end_of_copy_le (body.codeSize utf8 + 1) otherBelow
      omega
  · apply (each _ _).widen (by rw [length_code]) (by omega) (by omega)
    · exact fun place register known => ⟨copy, below, known⟩
    · rintro place next register _ _ from_ upTo ⟨other, _, known⟩
      have between := known.between
      have same : other = copy := by
        apply @eq_of_within_copies (body.codeSize utf8 + 1) copy other (next - address) <;> omega
      exact .inl (same ▸ known)

theorem flows_counted {least greatest : Nat} {greedy : Bool} :
    (repetition body least (some greatest) greedy).Flows utf8 address base := by
  have stop : address + (repetition body least (some greatest) greedy).codeSize utf8 =
      address + least * body.codeSize utf8 + (greatest - least) * (body.codeSize utf8 + 1) :=
    (Nat.add_assoc ..).symm
  rw [Flows, stop]
  refine flows_copies_then each (flows_optional each rfl) ?_ ?_
  · rw [length_flatMap_range (greatest - least) (body.codeSize utf8 + 1)]
    exact fun _ => by rw [List.length_cons, length_code]
  · rintro place register ⟨copy, _, known⟩
    have between := known.between
    omega

theorem flows_unchecked {greedy : Bool} :
    CodeFlows (body.SetAt utf8 (address + 1) base) address (address + body.codeSize utf8 + 2)
      address
      (choice greedy (address + 1) (address + body.codeSize utf8 + 2)
        :: body.code utf8 (address + 1) base ++ [.jump address]) := by
  refine .cons ?_ (.append ?_ (.singleton ?_))
  · apply flows_choice (by omega) (by omega)
    · exact fun register known => absurd known.between.1 (Nat.lt_irrefl _)
    · exact fun register known => absurd known.between.2 (by omega)
  · exact (each _ _).within (by rw [length_code]) (by omega) (by omega)
  · refine .of_jump rfl rfl (by omega) fun register known => ?_
    exact absurd known.between.1 (by omega)

end Copies

theorem flows_checked {body : Node (List Nat)} {base address : Nat} {greedy : Bool}
    (each : body.Flows utf8 (address + 1 + 1) (base + 1)) :
    CodeFlows
      (fun place register =>
        (register = base ∧ address < place ∧ place ≤ address + body.codeSize utf8 + 2)
          ∨ body.SetAt utf8 (address + 1 + 1) (base + 1) place register) address
      (address + body.codeSize utf8 + 3) address
      (.loopStart base :: choice greedy (address + 1 + 1) (address + 1 + body.codeSize utf8 + 2)
        :: body.code utf8 (address + 1 + 1) (base + 1)
        ++ [.loopCheck base (address + 1 + body.codeSize utf8 + 2) (address + 1)]) := by
  -- The loop knows its register from behind `loopStart` to `loopCheck`, in every iteration alike.
  refine .cons ?_ (.cons ?_ (.append ?_ (.singleton ?_)))
  · refine .of_jump rfl rfl (by omega) fun register known => ?_
    rcases known with ⟨same, _⟩ | known
    · exact .inr (congrArg some same.symm)
    · exact absurd known.between.1 (by omega)
  · apply flows_choice (by omega) (by omega)
    · rintro register (⟨same, _⟩ | known)
      · exact .inl ⟨same, by omega, by omega⟩
      · exact absurd known.between.1 (Nat.lt_irrefl _)
    · rintro register (⟨_, _, before⟩ | known)
      · omega
      · exact absurd known.between.2 (by omega)
  · apply each.widen (by rw [length_code]) (by omega) (by omega)
    · exact fun place register known => .inr known
    · intro place next register behind before _ _ known
      rcases known with ⟨same, _⟩ | known
      · exact .inr (.inl ⟨same, by omega, by omega⟩)
      · exact .inl known
  · rw [length_code]
    refine .of_pair rfl (by omega) (by omega) ?_ ?_ ?_
    · rintro register (⟨_, _, before⟩ | known)
      · omega
      · exact absurd known.between.2 (by omega)
    · rintro register (⟨same, _⟩ | known)
      · exact .inl ⟨same, by omega, by omega⟩
      · exact absurd known.between.1 (by omega)
    · intro register reading
      injection reading with same
      exact .inl ⟨same.symm, by omega, by omega⟩

theorem flows_unbounded {body : Node (List Nat)} {base address least : Nat} {greedy : Bool}
    (each : ∀ address base, body.Flows utf8 address base) :
    (repetition body least none greedy).Flows utf8 address base := by
  by_cases needed : body.needsCheck utf8 = true
  · have stop : address + (repetition body least none greedy).codeSize utf8 =
        address + least * body.codeSize utf8 + body.codeSize utf8 + 3 := by
      simp only [codeSize, if_pos needed]
      omega
    change CodeFlows (fun place register => SetAt utf8 _ address base place register) _ _ _ _
    rw [stop]
    simp only [SetAt, code, if_pos needed]
    refine flows_copies_then each (flows_checked (each _ _)) (by simp; omega) ?_
    rintro place register (⟨_, behind, _⟩ | known)
    · exact behind
    · have between := known.between
      omega
  · have stop : address + (repetition body least none greedy).codeSize utf8 =
        address + least * body.codeSize utf8 + body.codeSize utf8 + 2 := by
      simp only [codeSize, if_neg needed]
      omega
    change CodeFlows (fun place register => SetAt utf8 _ address base place register) _ _ _ _
    rw [stop]
    simp only [SetAt, code, if_neg needed]
    refine flows_copies_then each (flows_unchecked each) (by simp; omega) ?_
    intro place register known
    have between := known.between
    omega

theorem flows_body {body : Node (List Nat)} {base address : Nat} {begins : Instruction}
    (leads : begins.successors address = [address + 1, address + body.codeSize utf8 + 2])
    (readsNone : begins.reads? = none)
    (each : body.Flows utf8 (address + 1) base) :
    CodeFlows (body.SetAt utf8 (address + 1) base) address (address + (body.codeSize utf8 + 2))
      address
      (begins :: body.code utf8 (address + 1) base ++ [.endBody]) := by
  refine .cons ?_ (.append ?_ (.singleton ?_))
  · refine .of_pair leads (by omega) (by omega) ?_ ?_ (Instruction.reads_of_none readsNone)
    · exact fun register known => absurd known.between.1 (Nat.lt_irrefl _)
    · exact fun register known => absurd known.between.2 (by omega)
  · exact each.within (by rw [length_code]) (by omega) (by omega)
  · exact .of_nil rfl rfl

theorem flows_capture {number base address : Nat} {body : Node (List Nat)}
    (each : body.Flows utf8 (address + 1) (base + 1)) :
    (capture number body).Flows utf8 address base := by
  have size : (capture number body).codeSize utf8 = body.codeSize utf8 + 2 := rfl
  have behind : address + 1 + body.codeSize utf8 = address + body.codeSize utf8 + 1 := by omega
  rw [Flows, code, List.cons_append, size]
  refine .cons ?_ (.append ?_ (.singleton ?_))
  · refine .of_jump rfl rfl (by omega) fun register known => ?_
    rcases known with ⟨same, _⟩ | known
    · exact .inr (congrArg some same.symm)
    · exact absurd known.between.1 (by omega)
  · apply each.widen (by rw [length_code]) (by omega) (by omega)
    · exact fun place register known => .inr known
    · intro place next register behind before _ _ known
      rcases known with ⟨same, _⟩ | known
      · exact .inr (.inl ⟨same, by omega, by omega⟩)
      · exact .inl known
  · rw [length_code, behind]
    refine .of_single rfl (by omega) (fun register known => ?_) fun register reading => ?_
    · have between := SetAt.between known
      rw [size] at between
      omega
    · injection reading with same
      exact .inl ⟨same.symm, by omega, by omega⟩

theorem flows_alternation {base address : Nat} {first second : Node (List Nat)}
    (left : first.Flows utf8 (address + 1) base)
    (right : second.Flows utf8 (address + first.codeSize utf8 + 2)
      (base + first.registerCount utf8)) :
    (alternation first second).Flows utf8 address base := by
  have size : (alternation first second).codeSize utf8 =
      first.codeSize utf8 + second.codeSize utf8 + 2 := rfl
  have behind : address + 1 + first.codeSize utf8 + 1 = address + first.codeSize utf8 + 2 := by
    omega
  rw [Flows, code, size]
  -- What one alternative knows is not known in the other, nor at the jump between them.
  refine .cons ?_ (.append ?_ (.cons ?_ ?_))
  · refine .of_pair rfl (by omega) (by omega) ?_ ?_ (Instruction.reads_of_none rfl)
    · rintro register (known | known)
      · exact absurd known.between.1 (Nat.lt_irrefl _)
      · exact absurd known.between.1 (by omega)
    · rintro register (known | known)
      · exact absurd known.between.2 (by omega)
      · exact absurd known.between.1 (Nat.lt_irrefl _)
  · apply left.widen (by rw [length_code]) (by omega) (by omega)
    · exact fun place register known => .inl known
    · intro place next register _ _ _ before known
      refine .inl (known.resolve_right fun known => ?_)
      exact absurd known.between.1 (by omega)
  · rw [length_code]
    refine .of_jump rfl rfl (by omega) fun register known => ?_
    have between := SetAt.between known
    rw [size] at between
    omega
  · rw [length_code, behind]
    apply right.widen (by rw [length_code]) (by omega) (by omega)
    · exact fun place register known => .inr known
    · intro place next register _ _ behind _ known
      refine .inl (known.resolve_left fun known => ?_)
      exact absurd known.between.2 (by omega)

theorem flows (node : Node (List Nat)) (address base : Nat) : node.Flows utf8 address base := by
  induction node generalizing address base with
  | empty => exact .nil
  | literal character caseless =>
      rcases successors_literalInstruction character caseless address with ⟨leads, readsNone⟩
      exact flows_test leads readsNone fun _ => id
  | anyCharacter | notNewline | lineBreak | charSet | assertion | backreference =>
      exact flows_test rfl rfl fun _ => id
  | group body induction => exact induction address base
  | capture number body induction => exact flows_capture (induction _ _)
  | sequence first second firstInduction secondInduction =>
      rw [Flows, code, codeSize, ← Nat.add_assoc]
      exact (firstInduction _ _).meet (secondInduction _ _) (by rw [length_code])
        (by rw [length_code]) (fun _ _ known => known.between.2) fun _ _ known => known.between.1
  | alternation first second firstInduction secondInduction =>
      exact flows_alternation (firstInduction _ _) (secondInduction _ _)
  | repetition body least greatest greedy induction =>
      cases greatest with
      | some greatest => exact flows_counted induction
      | none => exact flows_unbounded induction
  | look direction negated body induction => exact flows_body rfl rfl (induction _ _)
  | atomic body induction => exact flows_body rfl rfl (induction _ _)

end Node

/-- A compiled program has a register set wherever it reads it, and none where it begins. -/
theorem Machine.Compiled.flows {program : Program} (compiled : Machine.Compiled program)
    {address : Nat} {instruction : Instruction}
    (fetched : program.instructions[address]? = some instruction) :
    instruction.Flows (program.pattern.tree.SetAt program.utf8 0 0) 0
      (program.pattern.tree.codeSize program.utf8) address := by
  have code : program.pattern.tree.Flows program.utf8 0 0 := program.pattern.tree.flows 0 0
  rw [Node.Flows, Nat.zero_add] at code
  have whole : CodeFlows (program.pattern.tree.SetAt program.utf8 0 0) 0
      (program.pattern.tree.codeSize program.utf8) 0
      (program.pattern.tree.code program.utf8 0 0 ++ [Instruction.accept]) :=
    code.append (.singleton (.of_nil rfl rfl))
  rw [compiled.instructions, List.getElem?_toArray] at fetched
  rw [← Nat.zero_add address]
  exact whole address instruction fetched

end PerlRegex
