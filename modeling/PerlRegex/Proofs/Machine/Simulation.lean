import PerlRegex.Proofs.CaseFolding
import PerlRegex.Proofs.Groups
import PerlRegex.Proofs.Machine.Bodies
import PerlRegex.Program
namespace PerlRegex.Machine

/-! Wherever the code of a tree stands in a program, the machine follows the search for the tree. -/

namespace Attempt

/-! ## Code in place -/

def HasCode (attempt : Attempt) (address : Nat) (code : List Instruction) : Prop :=
  ∀ index instruction, code[index]? = some instruction →
    attempt.program.instructions[address + index]? = some instruction

namespace HasCode

variable {attempt : Attempt} {address : Nat} {instruction : Instruction}
  {code first second : List Instruction}

theorem head (hasCode : attempt.HasCode address (instruction :: code)) :
    attempt.program.instructions[address]? = some instruction :=
  hasCode 0 instruction rfl

theorem tail (hasCode : attempt.HasCode address (instruction :: code)) :
    attempt.HasCode (address + 1) code := by
  intro index instruction found
  rw [Nat.add_right_comm, Nat.add_assoc]
  exact hasCode (index + 1) instruction found

theorem left (hasCode : attempt.HasCode address (first ++ second)) :
    attempt.HasCode address first := by
  intro index instruction found
  have inside := (List.getElem?_eq_some_iff.mp found).1
  exact hasCode index instruction (by rw [List.getElem?_append_left inside, found])

theorem right (hasCode : attempt.HasCode address (first ++ second)) :
    attempt.HasCode (address + first.length) second := by
  intro index instruction found
  rw [Nat.add_assoc]
  apply hasCode
  rw [List.getElem?_append_right (Nat.le_add_right _ _), Nat.add_sub_cancel_left, found]

theorem copies {count : Nat} {part : Nat → List Instruction}
    (hasCode : attempt.HasCode address ((List.range (count + 1)).flatMap part)) :
    attempt.HasCode address (part 0)
      ∧ attempt.HasCode (address + (part 0).length)
        ((List.range count).flatMap fun copy => part (copy + 1)) := by
  rw [List.range_succ_eq_map, List.flatMap_cons, List.flatMap_map] at hasCode
  exact ⟨hasCode.left, hasCode.right⟩

end HasCode

/-! ## Literals -/

theorem execute_literalInstruction (attempt : Attempt) (state : State) (utf8 : Bool)
    (character : Nat) (caseless : Bool) :
    attempt.execute state (Node.literalInstruction utf8 character caseless) =
      attempt.consume state (Node.literalAccepts utf8 character caseless) := by
  cases caseless with
  | false =>
      have accepts : Node.literalAccepts utf8 character false = (· == character) := by
        funext other
        simp [Node.literalAccepts]
      rw [accepts]
      rfl
  | true =>
      let kept := (CaseFolding.variants character).filter fun variant =>
        variant == character || utf8 || (character < 0x80 && variant < 0x80)
      have accepts : Node.literalAccepts utf8 character true = kept.contains := by
        funext other
        have self := CaseFolding.mem_variants_self character
        rw [Bool.eq_iff_iff]
        simp only [Node.literalAccepts, kept, List.contains_iff_mem, List.mem_filter,
          Bool.or_eq_true, Bool.and_eq_true, beq_iff_eq, decide_eq_true_eq, Bool.true_and]
        constructor
        · rintro (rfl | ⟨variant, allowed⟩)
          · exact ⟨self, .inl (.inl rfl)⟩
          · exact ⟨variant, or_assoc.mpr (.inr allowed)⟩
        · rintro ⟨variant, (same | wide) | ascii⟩
          · exact .inl same
          · exact .inr ⟨variant, .inl wide⟩
          · exact .inr ⟨variant, .inr ascii⟩
      have selfKept : character ∈ kept :=
        List.mem_filter.mpr ⟨CaseFolding.mem_variants_self character, by simp⟩
      rw [accepts]
      have unfolded : Node.literalInstruction utf8 character true =
          if kept.length = 1 then .character character else .oneOf kept := rfl
      rw [unfolded]
      split
      · rename_i alone
        rcases List.length_eq_one_iff.mp alone with ⟨only, same⟩
        rw [same] at selfKept ⊢
        rw [List.mem_singleton.mp selfKept, execute]
        congr 1
        funext other
        rw [List.contains_cons, List.contains_nil, Bool.or_false]
      · rfl

/-! ## Trees -/

/-- A state has the slots of all groups that a tree names, and the registers that its code uses. -/
structure Fits (state : State) (utf8 : Bool) (node : Node (List Nat)) (register : Nat) : Prop where
  groups : node.GroupsBelow (state.slots.size / 2)
  registers : register + node.registerCount utf8 ≤ state.registers.size

theorem Fits.of_extends {state later : State} {utf8 : Bool} {node : Node (List Nat)}
    {register kept : Nat} {added : List Frame} (fits : Fits state utf8 node register)
    (extension : state.Extends kept added later) : Fits later utf8 node register :=
  ⟨extension.size_slots ▸ fits.groups, extension.size_registers ▸ fits.registers⟩

theorem Fits.of_agrees {state later : State} {utf8 : Bool} {node : Node (List Nat)}
    {register : Nat} (fits : Fits state utf8 node register) (agrees : later.Agrees state) :
    Fits later utf8 node register :=
  ⟨agrees.slots ▸ fits.groups, agrees.registers ▸ fits.registers⟩

/-- The machine follows the search for a tree through the code of the tree, wherever that stands
and whichever registers it uses. -/
def Simulates (attempt : Attempt) (node : Node (List Nat)) : Prop :=
  ∀ (address register : Nat) (path : Path) (state : State),
    attempt.HasCode address (node.code attempt.program.utf8 address register) →
    attempt.StandsAt address path state → Fits state attempt.program.utf8 node register →
    attempt.Follows state (address + node.codeSize attempt.program.utf8) register
      state.touchedEnd (node.interpret attempt path) (.next state)

/-! ## Repetitions -/

section Repetitions

variable {attempt : Attempt} {body : Node (List Nat)} (simulates : attempt.Simulates body)
include simulates

omit simulates in
theorem add_succ_copy (start copy size : Nat) :
    start + (copy + 1) * size = start + size + copy * size := by
  rw [Nat.succ_mul]
  omega

theorem follows_exactly (register count address : Nat) (path : Path) (state : State)
    (hasCode : attempt.HasCode address ((List.range count).flatMap fun copy =>
      body.code attempt.program.utf8 (address + copy * body.codeSize attempt.program.utf8)
        (register + copy * body.registerCount attempt.program.utf8)))
    (stands : attempt.StandsAt address path state)
    (groups : body.GroupsBelow (state.slots.size / 2))
    (registers : register + count * body.registerCount attempt.program.utf8
      ≤ state.registers.size) :
    attempt.Follows state (address + count * body.codeSize attempt.program.utf8) register
      state.touchedEnd (Search.exactly (body.interpret attempt) count path) (.next state) := by
  induction count generalizing register address path state with
  | zero =>
      rw [Nat.zero_mul, Nat.add_zero, Search.exactly]
      exact .single stands (.of_agrees (.refl state)) (by simp)
  | succ count induction =>
      rcases hasCode.copies with ⟨firstCode, restCode⟩
      simp only [Nat.zero_mul, Nat.add_zero, Node.length_code] at firstCode restCode
      simp only [add_succ_copy] at restCode registers ⊢
      have begun := simulates address register path state firstCode stands ⟨groups, by omega⟩
      rw [Search.exactly]
      apply begun.andThen (Nat.le_refl _) (Nat.le_add_right _ _)
      intro middle _ later added extension standsLater
      exact induction _ _ middle later restCode standsLater (extension.size_slots ▸ groups)
        (extension.size_registers ▸ registers)

theorem follows_upTo (register : Nat) (greedy : Bool) (exit count address : Nat) (path : Path)
    (state : State)
    (ends : exit = address + count * (body.codeSize attempt.program.utf8 + 1))
    (hasCode : attempt.HasCode address ((List.range count).flatMap fun copy =>
      Node.choice greedy
          (address + copy * (body.codeSize attempt.program.utf8 + 1) + 1) exit
        :: body.code attempt.program.utf8
          (address + copy * (body.codeSize attempt.program.utf8 + 1) + 1)
          (register + copy * body.registerCount attempt.program.utf8)))
    (stands : attempt.StandsAt address path state)
    (groups : body.GroupsBelow (state.slots.size / 2))
    (registers : register + count * body.registerCount attempt.program.utf8
      ≤ state.registers.size) :
    attempt.Follows state exit register state.touchedEnd
      (Search.upTo (body.interpret attempt) greedy count path) (.next state) := by
  induction count generalizing register address path state with
  | zero =>
      rw [Nat.zero_mul, Nat.add_zero] at ends
      rw [Search.upTo, ends]
      exact .single stands (.of_agrees (.refl state)) (by simp)
  | succ count induction =>
      rcases hasCode.copies with ⟨firstCode, restCode⟩
      simp only [Nat.zero_mul, Nat.add_zero, List.length_cons, Node.length_code]
        at firstCode restCode
      simp only [add_succ_copy] at restCode ends registers
      have fits : Fits state attempt.program.utf8 body register := ⟨groups, by omega⟩
      rw [Search.upTo]
      apply Follows.choice firstCode.head stands
      intro begun standsBegun extended
      rcases extended with ⟨added, extension⟩
      have fitsBegun := fits.of_extends (extension 0)
      have followed := simulates (address + 1) register path begun firstCode.tail standsBegun
        fitsBegun
      rw [Nat.add_right_comm, Nat.add_assoc] at followed
      apply followed.andThen (Nat.le_refl _) (Nat.le_add_right _ _)
      intro middle _ later added' extension' standsLater
      refine induction _ _ middle later ends restCode standsLater
        (fitsBegun.of_extends extension').groups ?_
      rw [extension'.size_registers, (extension 0).size_registers]
      exact registers

theorem follows_unchecked (register : Nat) (greedy : Bool) (address : Nat) (path : Path)
    (state : State) (takesText : 0 < body.minBytes attempt.program.utf8)
    (hasCode : attempt.HasCode address
      (Node.choice greedy (address + 1) (address + body.codeSize attempt.program.utf8 + 2)
        :: body.code attempt.program.utf8 (address + 1) register ++ [.jump address]))
    (stands : attempt.StandsAt address path state)
    (fits : Fits state attempt.program.utf8 body register) :
    attempt.Follows state (address + body.codeSize attempt.program.utf8 + 2) register
      state.touchedEnd
      (Search.unbounded attempt.subject.size (body.interpret attempt) greedy path)
      (.next state) := by
  have back := hasCode.tail.right.head
  rw [Node.length_code] at back
  fun_induction Search.unbounded attempt.subject.size (body.interpret attempt) greedy path
    generalizing state with
  | case1 path induction =>
      apply Follows.choice hasCode.head stands
      intro begun standsBegun extended
      rcases extended with ⟨added, extension⟩
      have fitsBegun := fits.of_extends (extension 0)
      have followed := simulates (address + 1) register path begun hasCode.tail.left standsBegun
        fitsBegun
      apply followed.andThen (Nat.le_refl _) (Nat.le_refl _)
      intro next member later added' extension' standsLater
      have progress := Node.position_lt_of_minBytes_pos takesText member
      rw [if_pos ⟨progress, standsLater.inside⟩]
      apply Follows.jump (leads_of_fetched back standsLater rfl) standsLater
      intro resumed standsResumed agrees
      exact induction next ⟨progress, standsLater.inside⟩ resumed standsResumed
        ((fitsBegun.of_extends extension').of_agrees agrees)

/-- A loop whose body may match nothing keeps the start of each iteration in a register. -/
theorem follows_checked (register : Nat) (greedy : Bool) (head : Nat) (path : Path)
    (state : State)
    (hasCode : attempt.HasCode head
      (Node.choice greedy (head + 1) (head + body.codeSize attempt.program.utf8 + 2)
        :: body.code attempt.program.utf8 (head + 1) (register + 1)
          ++ [.loopCheck register (head + body.codeSize attempt.program.utf8 + 2) head]))
    (stands : attempt.StandsAt head path state)
    (stored : state.registers[register]? = some path.position)
    (fits : Fits state attempt.program.utf8 body (register + 1)) :
    attempt.Follows state (head + body.codeSize attempt.program.utf8 + 2) register
      state.touchedEnd
      (Search.unbounded attempt.subject.size (body.interpret attempt) greedy path)
      (.next state) := by
  have check := hasCode.tail.right.head
  rw [Node.length_code] at check
  fun_induction Search.unbounded attempt.subject.size (body.interpret attempt) greedy path
    generalizing state with
  | case1 path induction =>
      apply Follows.choice hasCode.head stands
      intro begun standsBegun extended
      rcases extended with ⟨added, extension⟩
      have fitsBegun := fits.of_extends (extension 0)
      have followed := simulates (head + 1) (register + 1) path begun hasCode.tail.left standsBegun
        fitsBegun
      apply followed.andThen (Nat.le_succ _) (Nat.le_refl _)
      intro next member later added' extension' standsLater
      have fitsLater := fitsBegun.of_extends extension'
      -- The body has left the register alone, so it still says where the iteration began.
      have storedLater : later.registers[register]? = some path.position := by
        rw [extension'.kept register (Nat.lt_succ_self _),
          (extension (register + 1)).kept register (Nat.lt_succ_self _), stored]
      have leads := leads_of_fetched check standsLater rfl
      rw [execute, storedLater] at leads
      dsimp only at leads
      split at leads
      · rename_i same
        have noProgress : ¬ path.position < next.position := by
          rw [same, standsLater.position]
          exact Nat.lt_irrefl _
        rw [if_neg fun progress => noProgress progress.1]
        exact .jump leads standsLater fun resumed standsResumed _ =>
          .single standsResumed (.of_agrees (.refl resumed)) (by simp)
      · rename_i moved
        have forward := (Node.advances_of_mem_results member).forward
        rw [standsLater.position] at moved
        have progress : path.position < next.position := Nat.lt_of_le_of_ne forward moved
        rw [if_pos ⟨progress, standsLater.inside⟩]
        have existing := (Array.getElem?_eq_some_iff.mp storedLater).1
        refine .mark leads standsLater existing (Nat.le_refl _) (Nat.le_refl _)
          fun resumed standsResumed extended storedResumed => ?_
        rcases extended with ⟨_, extension''⟩
        exact induction next ⟨progress, standsLater.inside⟩ resumed standsResumed storedResumed
          (fitsLater.of_extends extension'')

end Repetitions

/-! ## All trees -/

section Trees

variable {attempt : Attempt} {body first second : Node (List Nat)}

theorem simulates_capture (number : Nat) (simulates : attempt.Simulates body) :
    attempt.Simulates (.capture number body) := by
  intro address register path state hasCode stands fits
  have fitting := fits.registers
  have close := hasCode.tail.right.head
  simp only [Node.registerCount] at fitting
  rw [Node.length_code] at close
  rw [Node.interpret, Node.codeSize, ← Nat.add_assoc]
  refine .mark (leads_of_fetched hasCode.head stands rfl) (stands.address ▸ stands)
    (by omega) (Nat.le_refl _) (Nat.le_refl _) fun begun standsBegun extended stored => ?_
  rcases extended with ⟨_, extension⟩
  rw [stands.address] at standsBegun
  have fitsBegun : Fits begun attempt.program.utf8 body (register + 1) :=
    ⟨extension.size_slots ▸ fits.groups.2, by rw [extension.size_registers]; omega⟩
  have followed := simulates (address + 1) (register + 1) path begun hasCode.tail.left standsBegun
    fitsBegun
  refine (followed.andThen (Nat.le_succ _) (Nat.le_refl _)
    fun inner _ later added extension' standsLater => ?_)
  have storedLater : later.registers[register]? = some path.position := by
    rw [extension'.kept register (Nat.lt_succ_self _), stored]
  have existing : number < inner.captures.length := by
    have size := standsLater.captures.size
    have below : number < state.slots.size / 2 := fits.groups.1
    rw [extension'.size_slots, extension.size_slots] at size
    omega
  rw [Nat.add_right_comm] at close standsLater
  exact .closeGroup close standsLater existing storedLater

theorem simulates_sequence (simulatesFirst : attempt.Simulates first)
    (simulatesSecond : attempt.Simulates second) : attempt.Simulates (.sequence first second) := by
  intro address register path state hasCode stands fits
  have fitting := fits.registers
  simp only [Node.registerCount] at fitting
  have secondCode := hasCode.right
  rw [Node.length_code] at secondCode
  have followed := simulatesFirst address register path state hasCode.left stands
    ⟨fits.groups.1, by omega⟩
  rw [Node.interpret, Node.codeSize, ← Nat.add_assoc]
  apply followed.andThen (Nat.le_refl _)
    (Nat.le_add_right register (first.registerCount attempt.program.utf8))
  intro middle _ later added extension standsLater
  exact simulatesSecond _ _ middle later secondCode standsLater
    ⟨extension.size_slots ▸ fits.groups.2, by rw [extension.size_registers]; omega⟩

theorem simulates_alternation (simulatesFirst : attempt.Simulates first)
    (simulatesSecond : attempt.Simulates second) :
    attempt.Simulates (.alternation first second) := by
  intro address register path state hasCode stands fits
  have fitting := fits.registers
  simp only [Node.registerCount] at fitting
  have behind := hasCode.tail.right
  rw [Node.length_code] at behind
  have ends : address + 1 + first.codeSize attempt.program.utf8 + 1 =
      address + first.codeSize attempt.program.utf8 + 2 := by omega
  have exit : address + (Node.alternation first second).codeSize attempt.program.utf8 =
      address + first.codeSize attempt.program.utf8 + 2
        + second.codeSize attempt.program.utf8 := by
    simp only [Node.codeSize]
    omega
  rw [Node.interpret, exit]
  refine .split hasCode.head stands ?_ ?_
  · intro begun standsBegun extension
    have followed := simulatesFirst (address + 1) register path begun hasCode.tail.left standsBegun
      ⟨(extension 0).size_slots ▸ fits.groups.1, by rw [(extension 0).size_registers]; omega⟩
    rw [← Search.andThen_found (first.interpret attempt path)]
    apply followed.andThen (Nat.le_refl _) (Nat.le_refl _)
    intro middle _ later added extension' standsLater
    exact .jump (leads_of_fetched behind.head standsLater rfl) standsLater
      fun left standsLeft _ => .single standsLeft (.of_agrees (.refl left)) (by simp)
  · intro resumed standsResumed agrees
    have secondCode := behind.tail
    rw [ends] at secondCode
    have followed := simulatesSecond _ _ path resumed secondCode standsResumed
      ⟨agrees.slots ▸ fits.groups.2, by rw [agrees.registers]; omega⟩
    exact followed.retract (.of_agrees (.refl resumed)) (Nat.le_add_right _ _) (by simp)

theorem simulates_repetition (least : Nat) (greatest : Option Nat) (greedy : Bool)
    (simulates : attempt.Simulates body) :
    attempt.Simulates (.repetition body least greatest greedy) := by
  intro address register path state hasCode stands fits
  have fitting := fits.registers
  simp only [Node.registerCount] at fitting
  have mandatory := follows_exactly simulates register least address path state hasCode.left stands
    fits.groups (by omega)
  have optionalCode := hasCode.right
  rw [Node.length_flatMap_range _ (body.codeSize attempt.program.utf8) _
    fun _ => Node.length_code _ _ _ _] at optionalCode
  rw [Node.interpret]
  apply mandatory.andThen (Nat.le_refl _)
    (Nat.le_add_right register (least * body.registerCount attempt.program.utf8))
  intro middle _ later added extension standsLater
  have groupsLater : body.GroupsBelow (later.slots.size / 2) := extension.size_slots ▸ fits.groups
  rw [← extension.size_registers] at fitting
  cases greatest with
  | some greatest =>
      dsimp only at fitting
      rw [Node.codeSize, ← Nat.add_assoc]
      exact follows_upTo simulates _ greedy _ (greatest - least) _ middle later rfl optionalCode
        standsLater groupsLater (by omega)
  | none =>
      rw [Node.codeSize, ← Nat.add_assoc]
      dsimp only at optionalCode fitting
      by_cases check : body.needsCheck attempt.program.utf8 = true
      · simp only [check, if_true] at fitting optionalCode ⊢
        refine .mark (leads_of_fetched optionalCode.head standsLater rfl) standsLater (by omega)
          (Nat.le_refl _) (Nat.le_refl _) fun begun standsBegun extended stored => ?_
        rcases extended with ⟨_, extension'⟩
        rw [standsLater.address] at standsBegun
        have followed := follows_checked simulates _ greedy _ middle begun
          optionalCode.tail standsBegun stored
          ⟨extension'.size_slots ▸ groupsLater, by rw [extension'.size_registers]; omega⟩
        have exit : address + least * body.codeSize attempt.program.utf8 + 1
            + body.codeSize attempt.program.utf8 + 2 =
            address + least * body.codeSize attempt.program.utf8
              + (body.codeSize attempt.program.utf8 + 3) := by omega
        rw [exit] at followed
        exact followed
      · simp only [check] at fitting optionalCode ⊢
        have takesText : 0 < body.minBytes attempt.program.utf8 := by
          rw [Node.needsCheck, beq_iff_eq] at check
          exact Nat.pos_of_ne_zero check
        exact follows_unchecked simulates _ greedy _ middle later takesText optionalCode
          standsLater ⟨groupsLater, by omega⟩

theorem follows_enterBody (purpose : Purpose) (address register start next : Nat) (path : Path)
    (state : State) (simulates : attempt.Simulates body)
    (hasCode : attempt.HasCode (address + 1)
      (body.code attempt.program.utf8 (address + 1) register))
    (stands : attempt.StandsAt address path state)
    (fits : Fits state attempt.program.utf8 body register)
    (inside : start ≤ attempt.subject.size) :
    ∃ inner : State, state.enterBody purpose next start = .next inner
      ∧ state.Awaits ⟨purpose, next, state.position, state.frames⟩ inner
      ∧ attempt.Follows inner (address + 1 + body.codeSize attempt.program.utf8) register
        state.touchedEnd (body.interpret attempt { path with position := start })
        (.next inner) := by
  refine ⟨_, rfl, ⟨rfl, rfl, rfl, rfl, rfl, rfl⟩, ?_⟩
  exact simulates (address + 1) register _ _ hasCode
    ⟨by rw [stands.address], rfl, stands.captures, inside⟩ ⟨fits.groups, fits.registers⟩

theorem look_eq (state : State) (direction : LookDirection) (negated : Bool) (next : Nat) :
    attempt.look state direction negated next =
      match attempt.lookFrom direction state.position with
      | some start => state.enterBody (.look negated) next start
      | none => if negated then state.jump next else state.fail := by
  cases direction with
  | ahead => rfl
  | behind width =>
      cases room : attempt.back state.position width <;> simp [look, lookFrom, room]

theorem simulates_look (direction : LookDirection) (negated : Bool)
    (simulates : attempt.Simulates body) :
    attempt.Simulates (.look direction negated body) := by
  intro address register path state hasCode stands fits
  have ends := hasCode.tail.right.head
  rw [Node.length_code] at ends
  have leads := leads_of_fetched hasCode.head stands (look_withFrameLimit _ _ _ _ _ _)
  rw [look_eq, stands.position] at leads
  rw [Node.interpret, Node.codeSize, ← Nat.add_assoc]
  cases room : attempt.lookFrom direction path.position with
  | none =>
      rw [room] at leads
      dsimp only at leads ⊢
      cases negated with
      | true =>
          exact .jump leads stands fun left standsLeft _ =>
            .single standsLeft (.of_agrees (.refl left)) (by simp)
      | false => exact .nothing leads
  | some start =>
      rw [room] at leads
      dsimp only at leads ⊢
      have inside := Nat.le_trans (le_of_lookFrom room) stands.inside
      rcases follows_enterBody (.look negated) address register start
        (address + body.codeSize attempt.program.utf8 + 2) path state simulates hasCode.tail.left
        stands ⟨fits.groups, fits.registers⟩ inside with ⟨inner, entered, awaits, followed⟩
      rw [entered] at leads
      cases negated with
      | true =>
          exact (Follows.negatedBody ends awaits rfl stands stands.position followed).of_leads
            leads
      | false =>
          rw [← stands.position]
          exact (Follows.lookBody ends awaits rfl (stands.position ▸ stands.inside)
            followed).of_leads leads

theorem simulates_atomic (simulates : attempt.Simulates body) :
    attempt.Simulates (.atomic body) := by
  intro address register path state hasCode stands fits
  have ends := hasCode.tail.right.head
  rw [Node.length_code] at ends
  have leads := leads_of_fetched hasCode.head stands rfl
  rw [execute, stands.position] at leads
  rcases follows_enterBody .atomic address register path.position
    (address + body.codeSize attempt.program.utf8 + 2) path state simulates hasCode.tail.left
    stands ⟨fits.groups, fits.registers⟩ stands.inside with ⟨inner, entered, awaits, followed⟩
  rw [entered] at leads
  rw [Node.interpret, Node.codeSize, ← Nat.add_assoc]
  exact (Follows.atomicBody ends awaits rfl followed).of_leads leads

end Trees

/-- The machine follows the search for every tree. -/
theorem simulates (attempt : Attempt) (node : Node (List Nat)) : attempt.Simulates node := by
  induction node with
  | empty =>
      intro address register path state _ stands _
      exact .single stands (.of_agrees (.refl state)) (by simp)
  | literal character caseless =>
      intro address register path state hasCode stands _
      exact .consume stands (leads_of_fetched hasCode.head stands
        (execute_literalInstruction _ state _ character caseless))
  | anyCharacter =>
      intro address register path state hasCode stands _
      exact .consume stands (leads_of_fetched hasCode.head stands rfl)
  | notNewline =>
      intro address register path state hasCode stands _
      exact .notNewline stands hasCode.head
  | lineBreak =>
      intro address register path state hasCode stands _
      exact .takeLineBreak stands hasCode.head
  | charSet set =>
      intro address register path state hasCode stands _
      exact .consume stands (leads_of_fetched hasCode.head stands rfl)
  | assertion condition =>
      intro address register path state hasCode stands _
      exact .test stands hasCode.head
  | group body induction =>
      intro address register path state hasCode stands fits
      exact induction address register path state hasCode stands ⟨fits.groups, fits.registers⟩
  | capture number body induction => exact simulates_capture number induction
  | sequence first second firstInduction secondInduction =>
      exact simulates_sequence firstInduction secondInduction
  | alternation first second firstInduction secondInduction =>
      exact simulates_alternation firstInduction secondInduction
  | repetition body least greatest greedy induction =>
      exact simulates_repetition least greatest greedy induction
  | backreference groups caseless =>
      intro address register path state hasCode stands fits
      have size := stands.captures.size
      exact .matchReference stands hasCode.head fun group member => by
        have := fits.groups group member
        omega
  | look direction negated body induction => exact simulates_look direction negated induction
  | atomic body induction => exact simulates_atomic induction

end Attempt

end PerlRegex.Machine
