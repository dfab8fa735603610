import PerlRegex.Proofs.Machine.Targets
namespace PerlRegex.Machine

/-! No machine that runs a compiled program comes to a state in which it cannot execute its next
instruction, and no position that it holds, wherever it holds it, lies behind the end of the
subject. -/

/-! ## States on the way -/

/-- The states that an attempt comes to. With a smaller budget it comes to fewer of them. -/
inductive Attempt.Reaches (attempt : Attempt) : State → Prop
  | initial : Reaches attempt (.initial attempt.program attempt.start)
  | next {state following : State} :
      Reaches attempt state → attempt.step state = .next following → Reaches attempt following

namespace Attempt.Reaches

variable {attempt : Attempt} {state : State}

theorem exists_run_eq (reaches : attempt.Reaches state) :
    ∃ taken, ∀ budget, run attempt (.initial attempt.program attempt.start) (taken + budget) =
      run attempt state budget := by
  induction reaches with
  | initial => exact ⟨0, fun budget => by rw [Nat.zero_add]⟩
  | @next state following _ stepped induction =>
      rcases induction with ⟨taken, same⟩
      refine ⟨taken + 1, fun budget => ?_⟩
      rw [Nat.add_right_comm, Nat.add_assoc, same, run, stepped]

/-- The next instruction exists, and so do the registers and the slots that it uses. A body that
ends has a run that waits for it. -/
theorem step_ne_fault (compiled : Compiled attempt.program)
    (inside : attempt.start ≤ attempt.subject.size) (reaches : attempt.Reaches state)
    (final : State) : attempt.step state ≠ .halt .fault final := by
  intro stepped
  rcases reaches.exists_run_eq with ⟨taken, same⟩
  have unfolded : run attempt state 1 = ⟨.fault, final, 0⟩ := by rw [run, stepped]
  have halted := (same 1).trans unfolded
  rcases run_initial compiled inside (taken + 1) with exhausted | describes
  · rw [halted] at exhausted
    rcases exhausted with impossible | impossible <;> cases impossible
  · rw [halted] at describes
    cases decided : attempt.decide false attempt.search <;> rw [decided] at describes
    · cases describes.1
    · cases describes.1
    · cases describes

theorem address_lt (compiled : Compiled attempt.program)
    (inside : attempt.start ≤ attempt.subject.size) (reaches : attempt.Reaches state) :
    state.address < attempt.program.instructions.size := by
  apply Nat.lt_of_not_le
  intro beyond
  apply reaches.step_ne_fault compiled inside state
  rw [Attempt.step, Array.getElem?_eq_none beyond]

end Attempt.Reaches

/-! ## Slots and registers -/

/-- There is a slot for both ends of every group and each of the registers, all positions in them
lie in a subject of the given size, and both ends of a group are set together. -/
structure StoresSound (program : Program) (size : Nat) (slots : Array (Option Nat))
    (registers : Array Nat) : Prop where
  slotCount : slots.size = program.slotCount
  registerCount : registers.size = program.registers
  slotsInside : ∀ position, some position ∈ slots → position ≤ size
  paired : ∀ group, slots[2 * group]?.join.isSome = slots[2 * group + 1]?.join.isSome
  registersInside : ∀ position ∈ registers, position ≤ size

namespace StoresSound

variable {program : Program} {size : Nat} {slots : Array (Option Nat)} {registers : Array Nat}

theorem initial (program : Program) (size : Nat) :
    StoresSound program size (.replicate program.slotCount none)
      (.replicate program.registers 0) where
  slotCount := Array.size_replicate
  registerCount := Array.size_replicate
  slotsInside := fun position member => by
    have := (Array.mem_replicate.mp member).2
    cases this
  paired := fun group => by
    simp only [Array.getElem?_replicate]
    split <;> split <;> rfl
  registersInside := fun position member => by
    rw [(Array.mem_replicate.mp member).2]
    exact Nat.zero_le size

theorem setRegister (sound : StoresSound program size slots registers) (register : Nat)
    {position : Nat} (inside : position ≤ size) :
    StoresSound program size slots (registers.setIfInBounds register position) :=
  { sound with
    registerCount := by rw [Array.size_setIfInBounds, sound.registerCount]
    registersInside := fun other member => by
      rcases Array.mem_or_eq_of_mem_setIfInBounds member with member | same
      · exact sound.registersInside other member
      · rw [same]
        exact inside }

theorem setGroup (sound : StoresSound program size slots registers) {group : Nat}
    (existing : group < program.pattern.captures + 1) {start stop : Option Nat}
    (together : start.isSome = stop.isSome) (startInside : ∀ position ∈ start, position ≤ size)
    (stopInside : ∀ position ∈ stop, position ≤ size) :
    StoresSound program size
      ((slots.setIfInBounds (2 * group) start).setIfInBounds (2 * group + 1) stop) registers where
  slotCount := by rw [Array.size_setIfInBounds, Array.size_setIfInBounds, sound.slotCount]
  registerCount := sound.registerCount
  registersInside := sound.registersInside
  slotsInside := fun position member => by
    rcases Array.mem_or_eq_of_mem_setIfInBounds member with member | same
    · rcases Array.mem_or_eq_of_mem_setIfInBounds member with member | same
      · exact sound.slotsInside position member
      · exact startInside position same.symm
    · exact stopInside position same.symm
  paired := fun other => by
    have count := sound.slotCount
    rw [Program.slotCount] at count
    by_cases same : other = group
    · subst other
      have startSlot : 2 * group < slots.size := by omega
      have stopSlot : 2 * group + 1 < slots.size := by omega
      simpa [startSlot, stopSlot] using together
    · have apart : ∀ index, index ≠ 2 * group → index ≠ 2 * group + 1 →
          ((slots.setIfInBounds (2 * group) start).setIfInBounds (2 * group + 1) stop)[index]?
            = slots[index]? := fun index notStart notStop => by
        rw [Array.getElem?_setIfInBounds_ne (Ne.symm notStop),
          Array.getElem?_setIfInBounds_ne (Ne.symm notStart)]
      rw [apart _ (by omega) (by omega), apart _ (by omega) (by omega)]
      exact sound.paired other

/-- Giving back the two slots of a group, in the order of their frames. -/
theorem giveBackGroup (sound : StoresSound program size slots registers) {group : Nat}
    (existing : group < program.pattern.captures + 1) {start stop : Option Nat}
    (together : start.isSome = stop.isSome) (startInside : ∀ position ∈ start, position ≤ size)
    (stopInside : ∀ position ∈ stop, position ≤ size) :
    StoresSound program size
      ((slots.setIfInBounds (2 * group + 1) stop).setIfInBounds (2 * group) start) registers := by
  rw [Array.setIfInBounds_comm _ _ (by omega)]
  exact sound.setGroup existing together startInside stopInside

end StoresSound

/-! ## Frames -/

/-- Frames that only hold what there is. The two slots of a group are given back together. -/
inductive FramesSound (program : Program) (size : Nat) : List Frame → Prop
  | nil : FramesSound program size []
  | choice {address position : Nat} {rest : List Frame} :
      address < program.instructions.size → position ≤ size → FramesSound program size rest →
      FramesSound program size (.choice address position :: rest)
  | register {register former : Nat} {rest : List Frame} :
      register < program.registers → former ≤ size → FramesSound program size rest →
      FramesSound program size (.register register former :: rest)
  | group {group : Nat} {start stop : Option Nat} {rest : List Frame} :
      group < program.pattern.captures + 1 → start.isSome = stop.isSome →
      (∀ position ∈ start, position ≤ size) → (∀ position ∈ stop, position ≤ size) →
      FramesSound program size rest →
      FramesSound program size (.slot (2 * group + 1) stop :: .slot (2 * group) start :: rest)

namespace FramesSound

variable {program : Program} {size : Nat} {frames outer : List Frame}

theorem append (sound : FramesSound program size frames)
    (outerSound : FramesSound program size outer) :
    FramesSound program size (frames ++ outer) := by
  induction sound with
  | nil => exact outerSound
  | choice existing inside _ induction => exact .choice existing inside induction
  | register existing inside _ induction => exact .register existing inside induction
  | group existing together startInside stopInside _ induction =>
      exact .group existing together startInside stopInside induction

theorem withoutChoices (sound : FramesSound program size frames) :
    FramesSound program size (frames.filter fun frame => !frame.isChoice) := by
  induction sound with
  | nil => exact .nil
  | choice _ _ _ induction => exact induction
  | register existing inside _ induction => exact .register existing inside induction
  | group existing together startInside stopInside _ induction =>
      exact .group existing together startInside stopInside induction

theorem undo (sound : FramesSound program size frames) {slots : Array (Option Nat)}
    {registers : Array Nat} (stores : StoresSound program size slots registers) :
    StoresSound program size (slotsBefore frames slots) (registersBefore frames registers) := by
  induction sound generalizing slots registers with
  | nil => exact stores
  | choice _ _ _ induction => exact induction stores
  | @register register _ _ _ inside _ induction =>
      exact induction (stores.setRegister register inside)
  | group existing together startInside stopInside _ induction =>
      exact induction (stores.giveBackGroup existing together startInside stopInside)

end FramesSound

/-! ## States -/

structure Waiting.Sound (program : Program) (size : Nat) (waiting : Waiting) : Prop where
  next : waiting.next < program.instructions.size
  position : waiting.position ≤ size
  frames : FramesSound program size waiting.frames

/-- All that a state holds exists, in the program and in a subject of the given size. -/
structure State.Sound (program : Program) (size : Nat) (state : State) : Prop where
  position : state.position ≤ size
  stores : StoresSound program size state.slots state.registers
  frames : FramesSound program size state.frames
  waiting : ∀ waiting ∈ state.waiting, waiting.Sound program size

def Step.Sound (program : Program) (size : Nat) : Step → Prop
  | .next state => state.Sound program size
  | .halt _ _ => True

namespace State.Sound

variable {program : Program} {size : Nat} {state : State}

theorem initial (program : Program) {start : Nat} (inside : start ≤ size) :
    (State.initial program start).Sound program size where
  position := inside
  stores := .initial program size
  frames := .nil
  waiting := fun _ member => by cases member

theorem move (sound : state.Sound program size) (address : Nat) {position : Nat}
    (inside : position ≤ size) :
    ({ state with address := address, position := position } : State).Sound program size :=
  { sound with position := inside }

theorem backtrack {frames : List Frame} (framesSound : FramesSound program size frames)
    (stores : StoresSound program size state.slots state.registers)
    (waiting : ∀ waiting ∈ state.waiting, waiting.Sound program size) :
    (∃ resumed, state.backtrack frames = (true, resumed) ∧ resumed.Sound program size)
      ∨ ∃ exhausted, state.backtrack frames = (false, exhausted)
        ∧ StoresSound program size exhausted.slots exhausted.registers := by
  induction framesSound generalizing state with
  | nil => exact .inr ⟨_, rfl, stores⟩
  | choice existing inside rest _ => exact .inl ⟨_, rfl, inside, stores, rest, waiting⟩
  | @register register former rest _ inside _ induction =>
      exact @induction { state with
        registers := state.registers.setIfInBounds register former
        frameCount := state.frameCount - 1 } (stores.setRegister register inside) waiting
  | @group group start stop rest existing together startInside stopInside _ induction =>
      exact @induction { state with
        slots := (state.slots.setIfInBounds (2 * group + 1) stop).setIfInBounds (2 * group) start
        frameCount := state.frameCount - 1 - 1 }
        (stores.giveBackGroup existing together startInside stopInside) waiting

theorem failIn {frames : List Frame} {waiting : List Waiting}
    (framesSound : FramesSound program size frames)
    (stores : StoresSound program size state.slots state.registers)
    (here : ∀ waiting ∈ state.waiting, waiting.Sound program size)
    (sound : ∀ run ∈ waiting, run.Sound program size) :
    (state.failIn frames waiting).Sound program size := by
  induction waiting generalizing state frames with
  | nil =>
      rw [State.failIn]
      rcases backtrack framesSound stores here with ⟨resumed, same, resumedSound⟩ | ⟨_, same, _⟩
      · rw [same]
        exact resumedSound
      · rw [same]
        trivial
  | cons run rest induction =>
      have runSound := sound run List.mem_cons_self
      have restSound := fun other member => sound other (List.mem_cons_of_mem run member)
      rw [State.failIn]
      rcases backtrack framesSound stores here with
        ⟨resumed, same, resumedSound⟩ | ⟨exhausted, same, exhaustedStores⟩
      · rw [same]
        exact resumedSound
      · rw [same]
        dsimp only
        split
        · exact ⟨runSound.position, exhaustedStores, runSound.frames, restSound⟩
        · exact @induction { exhausted with waiting := rest } _ runSound.frames exhaustedStores
            restSound restSound

theorem fail (sound : state.Sound program size) : state.fail.Sound program size :=
  failIn sound.frames sound.stores sound.waiting sound.waiting

theorem enterBody (sound : state.Sound program size) (purpose : Purpose) {next start : Nat}
    (existing : next < program.instructions.size) (inside : start ≤ size) :
    (state.enterBody purpose next start).Sound program size where
  position := inside
  stores := sound.stores
  frames := .nil
  waiting := fun waiting member => by
    rcases List.mem_cons.mp member with rfl | member
    · exact ⟨existing, sound.position, sound.frames⟩
    · exact sound.waiting waiting member

theorem leaveBody (sound : state.Sound program size) : state.leaveBody.Sound program size := by
  rw [State.leaveBody]
  split
  · trivial
  · rename_i waiting rest waits
    have runSound := sound.waiting waiting (by rw [waits]; exact List.mem_cons_self)
    have restSound : ∀ other ∈ rest, other.Sound program size := fun other member =>
      sound.waiting other (by rw [waits]; exact List.mem_cons_of_mem waiting member)
    have kept := sound.frames.withoutChoices.append runSound.frames
    split
    · exact ⟨runSound.position, sound.stores, kept, restSound⟩
    · apply State.Sound.fail
      rw [State.undoAll_eq]
      exact ⟨sound.position, sound.frames.undo sound.stores, runSound.frames, restSound⟩
    · exact ⟨sound.position, sound.stores, kept, restSound⟩

end State.Sound

/-! ## Steps -/

namespace Attempt

variable {attempt : Attempt} {state : State}

section Instructions

variable (sound : state.Sound attempt.program attempt.subject.size)
include sound

theorem failAtEnd_sound (position : Nat) :
    (attempt.failAtEnd state position).Sound attempt.program attempt.subject.size := by
  rw [failAtEnd]
  split
  · exact sound.fail
  · exact State.Sound.fail { sound with }
  · trivial

theorem consume_sound (accepts : Nat → Bool) :
    (attempt.consume state accepts).Sound attempt.program attempt.subject.size := by
  rw [consume]
  split
  · rename_i character length found
    split
    · exact sound.move _ (length_of_characterAt found).2
    · exact sound.fail
  · exact failAtEnd_sound sound _

theorem takeLineBreak_sound :
    (attempt.takeLineBreak state).Sound attempt.program attempt.subject.size := by
  rw [takeLineBreak]
  split
  · rename_i length found
    exact sound.move _ (LineRules.lineBreakAt_length found).2
  · split
    · exact failAtEnd_sound sound _
    · exact sound.fail

theorem test_sound (condition : Assertion) :
    (attempt.test state condition).Sound attempt.program attempt.subject.size := by
  have decided : ∀ noted : Bool,
      (if attempt.holds state.position condition then
        State.advance { state with touchedEnd := noted } state.position
      else State.fail { state with touchedEnd := noted }).Sound attempt.program
        attempt.subject.size := by
    intro noted
    have notedSound : State.Sound attempt.program attempt.subject.size
        { state with touchedEnd := noted } := { sound with }
    split
    · exact notedSound.move _ sound.position
    · exact notedSound.fail
  rw [test]
  dsimp only
  split
  · exact decided state.touchedEnd
  · exact decided true
  · trivial

theorem matchReference_sound (groups : List Nat) (caseless : Bool) :
    (attempt.matchReference state groups caseless).Sound attempt.program
      attempt.subject.size := by
  rw [matchReference]
  split
  · trivial
  · split
    · split
      · exact sound.move _ sound.position
      · exact sound.fail
    · split
      · rename_i stop repeated
        exact sound.move _ ((stop_of_repeats repeated).2 sound.position)
      · exact sound.fail
      · exact failAtEnd_sound sound _

theorem look_sound (direction : LookDirection) (negated : Bool) {next : Nat}
    (existing : next < attempt.program.instructions.size) :
    (attempt.look state direction negated next).Sound attempt.program attempt.subject.size := by
  rw [look_eq]
  split
  · rename_i start room
    exact sound.enterBody _ existing (Nat.le_trans (le_of_lookFrom room) sound.position)
  · split
    · exact sound.move next sound.position
    · exact sound.fail

theorem mark_sound (register address : Nat) :
    (attempt.mark state register address).Sound attempt.program attempt.subject.size := by
  rw [mark]
  split
  · trivial
  · rename_i former stored
    rcases Array.getElem?_eq_some_iff.mp stored with ⟨existing, same⟩
    rw [push]
    split
    · trivial
    · refine ⟨sound.position, sound.stores.setRegister register sound.position, ?_,
        sound.waiting⟩
      exact .register (sound.stores.registerCount ▸ existing)
        (sound.stores.registersInside former (same ▸ Array.getElem_mem existing)) sound.frames

theorem closeGroup_sound {group : Nat} (named : group < attempt.program.pattern.captures + 1)
    (register : Nat) :
    (attempt.closeGroup state group register).Sound attempt.program attempt.subject.size := by
  have count := sound.stores.slotCount
  rw [Program.slotCount] at count
  have startSlot : 2 * group < state.slots.size := by omega
  have stopSlot : 2 * group + 1 < state.slots.size := by omega
  have together := sound.stores.paired group
  have former : ∀ {slot : Nat} (existing : slot < state.slots.size),
      ∀ position ∈ state.slots[slot], position ≤ attempt.subject.size := by
    intro slot existing position holds
    exact sound.stores.slotsInside position (holds ▸ Array.getElem_mem existing)
  rw [closeGroup]
  split
  · trivial
  · rename_i start stored
    rcases Array.getElem?_eq_some_iff.mp stored with ⟨existing, same⟩
    have startInside := sound.stores.registersInside start (same ▸ Array.getElem_mem existing)
    rw [Array.getElem?_eq_getElem startSlot, Array.getElem?_eq_getElem stopSlot] at together
    rw [save, Array.getElem?_eq_getElem startSlot]
    dsimp only
    rw [push]
    split
    · trivial
    · rw [save]
      dsimp only
      rw [Array.getElem?_setIfInBounds_ne (by omega), Array.getElem?_eq_getElem stopSlot]
      dsimp only
      rw [push]
      split
      · trivial
      · refine ⟨sound.position, ?_, ?_, sound.waiting⟩
        · exact @StoresSound.setGroup _ _ _ _ sound.stores _ named (some start)
            (some state.position) rfl (by simpa using startInside) (by simpa using sound.position)
        · exact .group named together (former startSlot) (former stopSlot) sound.frames

theorem execute_sound {instruction : Instruction}
    (within : instruction.Within attempt.program.instructions.size attempt.program.registers
      (attempt.program.pattern.captures + 1)) :
    (attempt.execute state instruction).Sound attempt.program attempt.subject.size := by
  cases instruction with
  | accept =>
      rw [execute]
      split
      · exact sound.fail
      · trivial
  | endBody => exact sound.leaveBody
  | character | oneOf | anyCharacter | charSet => exact consume_sound sound _
  | notNewline =>
      rw [execute]
      split
      · exact sound.fail
      · exact consume_sound sound _
  | lineBreak => exact takeLineBreak_sound sound
  | assertion condition => exact test_sound sound condition
  | split first second =>
      rw [execute, push]
      split
      · trivial
      · exact ⟨sound.position, sound.stores, .choice within.2 sound.position sound.frames,
          sound.waiting⟩
  | jump target => exact sound.move target sound.position
  | openGroup register => exact mark_sound sound register _
  | closeGroup group register => exact closeGroup_sound sound within.1 register
  | backreference groups caseless => exact matchReference_sound sound groups caseless
  | look direction negated next => exact look_sound sound direction negated within
  | atomic next => exact sound.enterBody .atomic within sound.position
  | loopStart register => exact mark_sound sound register _
  | loopCheck register exit head =>
      rw [execute]
      split
      · trivial
      · split
        · exact sound.move exit sound.position
        · exact mark_sound sound register head

end Instructions

theorem step_sound (compiled : Compiled attempt.program)
    (sound : state.Sound attempt.program attempt.subject.size) :
    (attempt.step state).Sound attempt.program attempt.subject.size := by
  rw [step]
  split
  · trivial
  · rename_i instruction fetched
    exact execute_sound sound (compiled.within (Array.mem_of_getElem? fetched))

theorem Reaches.sound (compiled : Compiled attempt.program)
    (inside : attempt.start ≤ attempt.subject.size) (reaches : attempt.Reaches state) :
    state.Sound attempt.program attempt.subject.size := by
  induction reaches with
  | initial => exact .initial attempt.program inside
  | next _ stepped induction =>
      have sound := step_sound compiled induction
      rw [stepped] at sound
      exact sound

end Attempt

end PerlRegex.Machine
