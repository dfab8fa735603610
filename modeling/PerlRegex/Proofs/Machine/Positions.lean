import PerlRegex.Proofs.Keeping
import PerlRegex.Proofs.Machine.Safety
namespace PerlRegex.Machine

/-! A condition on positions that single steps keep holds of every position that a machine comes to.
It has to hold of all positions that the machine keeps for later too, in its slots, in its registers
and on its stacks, since the machine comes back to them. -/

/-! ## What a state holds -/

def Frame.All (holds : Nat → Prop) : Frame → Prop
  | .choice _ position => holds position
  | .slot _ former => ∀ position ∈ former, holds position
  | .register _ former => holds former

structure StoresAll (holds : Nat → Prop) (slots : Array (Option Nat)) (registers : Array Nat) :
    Prop where
  slots : ∀ position, some position ∈ slots → holds position
  registers : ∀ position ∈ registers, holds position

structure Waiting.All (holds : Nat → Prop) (waiting : Waiting) : Prop where
  position : holds waiting.position
  frames : ∀ frame ∈ waiting.frames, frame.All holds

/-- All positions that a state holds satisfy a condition. -/
structure State.All (holds : Nat → Prop) (state : State) : Prop where
  position : holds state.position
  stores : StoresAll holds state.slots state.registers
  frames : ∀ frame ∈ state.frames, frame.All holds
  waiting : ∀ waiting ∈ state.waiting, waiting.All holds

def Step.All (holds : Nat → Prop) : Step → Prop
  | .next state => state.All holds
  | .halt _ _ => True

/-! ## Slots and registers -/

namespace StoresAll

variable {holds : Nat → Prop} {slots : Array (Option Nat)} {registers : Array Nat}

theorem initial (slotCount registerCount : Nat) (zero : holds 0) :
    StoresAll holds (.replicate slotCount none) (.replicate registerCount 0) where
  slots := fun position member => by cases (Array.mem_replicate.mp member).2
  registers := fun position member => (Array.mem_replicate.mp member).2 ▸ zero

theorem setRegister (all : StoresAll holds slots registers) (register : Nat) {position : Nat}
    (there : holds position) :
    StoresAll holds slots (registers.setIfInBounds register position) where
  slots := all.slots
  registers := fun other member => by
    rcases Array.mem_or_eq_of_mem_setIfInBounds member with member | same
    · exact all.registers other member
    · exact same ▸ there

theorem setSlot (all : StoresAll holds slots registers) (slot : Nat) {content : Option Nat}
    (there : ∀ position ∈ content, holds position) :
    StoresAll holds (slots.setIfInBounds slot content) registers where
  slots := fun other member => by
    rcases Array.mem_or_eq_of_mem_setIfInBounds member with member | same
    · exact all.slots other member
    · exact there other same.symm
  registers := all.registers

theorem slot (all : StoresAll holds slots registers) {slot : Nat} {content : Option Nat}
    (stored : slots[slot]? = some content) : ∀ position ∈ content, holds position := by
  intro position member
  rw [Option.mem_def.mp member] at stored
  exact all.slots position (Array.mem_of_getElem? stored)

theorem register (all : StoresAll holds slots registers) {register position : Nat}
    (stored : registers[register]? = some position) : holds position :=
  all.registers position (Array.mem_of_getElem? stored)

theorem groupSpan (all : StoresAll holds slots registers) {group : Nat} {span : Span}
    (captured : groupSpan? slots group = some span) : holds span.start ∧ holds span.stop := by
  simp only [groupSpan?, Option.bind_eq_bind, Option.bind_eq_some_iff, Option.pure_def,
    Option.some.injEq] at captured
  rcases captured with ⟨_, startStored, _, stopStored, start, rfl, stop, rfl, rfl⟩
  exact ⟨all.slot startStored start rfl, all.slot stopStored stop rfl⟩

theorem undo (all : StoresAll holds slots registers) {frames : List Frame}
    (framesAll : ∀ frame ∈ frames, frame.All holds) :
    StoresAll holds (slotsBefore frames slots) (registersBefore frames registers) := by
  induction frames generalizing slots registers with
  | nil => exact all
  | cons frame frames induction =>
      have here := framesAll frame List.mem_cons_self
      have rest := fun other member => framesAll other (List.mem_cons_of_mem frame member)
      cases frame with
      | choice => exact induction all rest
      | slot index former => exact induction (all.setSlot index here) rest
      | register index former => exact induction (all.setRegister index here) rest

end StoresAll

/-! ## States -/

namespace State.All

variable {holds : Nat → Prop} {state : State}

theorem initial (program : Program) {start : Nat} (there : holds start) (zero : holds 0) :
    (State.initial program start).All holds where
  position := there
  stores := .initial program.slotCount program.registers zero
  frames := by simp [State.initial]
  waiting := by simp [State.initial]

theorem move (all : state.All holds) (address : Nat) {position : Nat} (there : holds position) :
    ({ state with address := address, position := position } : State).All holds :=
  { all with position := there }

theorem hold (all : state.All holds) (frame : Frame) (there : frame.All holds) (count : Nat) :
    ({ state with frames := frame :: state.frames, frameCount := count } : State).All holds :=
  { all with frames := List.forall_mem_cons.mpr ⟨there, all.frames⟩ }

theorem backtrack {frames : List Frame} (framesAll : ∀ frame ∈ frames, frame.All holds)
    (stores : StoresAll holds state.slots state.registers)
    (waiting : ∀ waiting ∈ state.waiting, waiting.All holds) :
    (∃ resumed, state.backtrack frames = (true, resumed) ∧ resumed.All holds)
      ∨ ∃ exhausted, state.backtrack frames = (false, exhausted)
        ∧ StoresAll holds exhausted.slots exhausted.registers := by
  induction frames generalizing state with
  | nil => exact .inr ⟨_, rfl, stores⟩
  | cons frame frames induction =>
      have here := framesAll frame List.mem_cons_self
      have rest := fun other member => framesAll other (List.mem_cons_of_mem frame member)
      cases frame with
      | choice address position => exact .inl ⟨_, rfl, here, stores, rest, waiting⟩
      | slot index former =>
          exact @induction { state with
            slots := state.slots.setIfInBounds index former
            frameCount := state.frameCount - 1 } rest (stores.setSlot index here) waiting
      | register index former =>
          exact @induction { state with
            registers := state.registers.setIfInBounds index former
            frameCount := state.frameCount - 1 } rest (stores.setRegister index here) waiting

theorem failIn {frames : List Frame} {waiting : List Waiting}
    (framesAll : ∀ frame ∈ frames, frame.All holds)
    (stores : StoresAll holds state.slots state.registers)
    (here : ∀ waiting ∈ state.waiting, waiting.All holds)
    (all : ∀ run ∈ waiting, run.All holds) : (state.failIn frames waiting).All holds := by
  induction waiting generalizing state frames with
  | nil =>
      rw [State.failIn]
      rcases backtrack framesAll stores here with ⟨resumed, same, resumedAll⟩ | ⟨_, same, _⟩
      · rw [same]
        exact resumedAll
      · rw [same]
        trivial
  | cons run rest induction =>
      have runAll := all run List.mem_cons_self
      have restAll := fun other member => all other (List.mem_cons_of_mem run member)
      rw [State.failIn]
      rcases backtrack framesAll stores here with
        ⟨resumed, same, resumedAll⟩ | ⟨exhausted, same, exhaustedStores⟩
      · rw [same]
        exact resumedAll
      · rw [same]
        dsimp only
        split
        · exact ⟨runAll.position, exhaustedStores, runAll.frames, restAll⟩
        · exact @induction { exhausted with waiting := rest } _ runAll.frames exhaustedStores
            restAll restAll

theorem fail (all : state.All holds) : state.fail.All holds :=
  failIn all.frames all.stores all.waiting all.waiting

theorem enterBody (all : state.All holds) (purpose : Purpose) (next : Nat) {start : Nat}
    (there : holds start) : (state.enterBody purpose next start).All holds where
  position := there
  stores := all.stores
  frames := by simp
  waiting := List.forall_mem_cons.mpr ⟨⟨all.position, all.frames⟩, all.waiting⟩

theorem leaveBody (all : state.All holds) : state.leaveBody.All holds := by
  rw [State.leaveBody]
  split
  · trivial
  · rename_i waiting rest waits
    have runAll := all.waiting waiting (by rw [waits]; exact List.mem_cons_self)
    have restAll : ∀ other ∈ rest, other.All holds := fun other member =>
      all.waiting other (by rw [waits]; exact List.mem_cons_of_mem waiting member)
    have kept : ∀ frame ∈ (state.frames.filter fun frame => !frame.isChoice) ++ waiting.frames,
        frame.All holds := by
      intro frame member
      rcases List.mem_append.mp member with member | member
      · exact all.frames frame (List.mem_filter.mp member).1
      · exact runAll.frames frame member
    split
    · exact ⟨runAll.position, all.stores, kept, restAll⟩
    · apply State.All.fail
      rw [State.undoAll_eq]
      exact ⟨all.position, all.stores.undo all.frames, runAll.frames, restAll⟩
    · exact ⟨all.position, all.stores, kept, restAll⟩

end State.All

/-! ## Steps -/

namespace Attempt

variable {attempt : Attempt} {holds : Nat → Prop} {state : State}

section Instructions

variable (all : state.All holds)
include all

theorem failAtEnd_all (position : Nat) : (attempt.failAtEnd state position).All holds := by
  rw [failAtEnd]
  split
  · exact all.fail
  · exact State.All.fail { all with }
  · trivial

theorem mark_all (register address : Nat) : (attempt.mark state register address).All holds := by
  rw [mark]
  split
  · trivial
  · rename_i former stored
    rw [push]
    split
    · trivial
    · have held := all.hold (.register register former) (all.stores.register stored)
        (state.frameCount + 1)
      exact { held with stores := all.stores.setRegister register all.position }

theorem save_all {slot position : Nat} (there : holds position) {next : State → Step}
    (onward : ∀ saved : State, saved.All holds → (next saved).All holds) :
    (attempt.save state slot position next).All holds := by
  rw [save]
  split
  · trivial
  · rename_i former stored
    rw [push]
    split
    · trivial
    · have held := all.hold (.slot slot former) (all.stores.slot stored)
        (state.frameCount + 1)
      apply onward
      exact { held with stores := all.stores.setSlot slot (by simpa using there) }

theorem closeGroup_all (group register : Nat) :
    (attempt.closeGroup state group register).All holds := by
  rw [closeGroup]
  split
  · trivial
  · rename_i start stored
    apply save_all all (all.stores.register stored)
    intro saved savedAll
    apply save_all savedAll savedAll.position
    intro closed closedAll
    exact closedAll.move _ closedAll.position

theorem test_all (condition : Assertion) : (attempt.test state condition).All holds := by
  have decided : ∀ noted : Bool,
      (if attempt.holds state.position condition then
        State.advance { state with touchedEnd := noted } state.position
      else State.fail { state with touchedEnd := noted }).All holds := by
    intro noted
    have notedAll : State.All holds { state with touchedEnd := noted } := { all with }
    split
    · exact notedAll.move _ all.position
    · exact notedAll.fail
  rw [test]
  dsimp only
  split
  · exact decided state.touchedEnd
  · exact decided true
  · trivial

variable (keeps : attempt.Keeps holds)
include keeps

theorem consume_all (accepts : Nat → Bool) : (attempt.consume state accepts).All holds := by
  rw [consume]
  split
  · rename_i character length found
    split
    · exact all.move _ (keeps.character all.position found)
    · exact all.fail
  · exact failAtEnd_all all _

theorem takeLineBreak_all : (attempt.takeLineBreak state).All holds := by
  rw [takeLineBreak]
  split
  · rename_i length found
    exact all.move _ (keeps.lineBreak all.position found)
  · split
    · exact failAtEnd_all all _
    · exact all.fail

theorem matchReference_all (groups : List Nat) (caseless : Bool) :
    (attempt.matchReference state groups caseless).All holds := by
  rw [matchReference]
  split
  · trivial
  · split
    · split
      · exact all.move _ all.position
      · exact all.fail
    · rename_i span captured
      rcases List.exists_of_findSome?_eq_some captured with ⟨group, _, spanned⟩
      have ends := all.stores.groupSpan spanned
      split
      · rename_i stop repeated
        exact all.move _ (keeps.reference all.position ends.1 ends.2 repeated)
      · exact all.fail
      · exact failAtEnd_all all _

theorem look_all (direction : LookDirection) (negated : Bool) (next : Nat) :
    (attempt.look state direction negated next).All holds := by
  rw [look_eq]
  split
  · rename_i start room
    exact all.enterBody _ next (keeps.look all.position room)
  · split
    · exact all.move next all.position
    · exact all.fail

theorem execute_all (instruction : Instruction) :
    (attempt.execute state instruction).All holds := by
  cases instruction with
  | accept =>
      rw [execute]
      split
      · exact all.fail
      · trivial
  | endBody => exact all.leaveBody
  | character | oneOf | anyCharacter | charSet => exact consume_all all keeps _
  | notNewline =>
      rw [execute]
      split
      · exact all.fail
      · exact consume_all all keeps _
  | lineBreak => exact takeLineBreak_all all keeps
  | assertion condition => exact test_all all condition
  | split first second =>
      rw [execute, push]
      split
      · trivial
      · have held := all.hold (.choice second state.position) all.position
          (state.frameCount + 1)
        exact held.move first all.position
  | jump target => exact all.move target all.position
  | openGroup register => exact mark_all all register _
  | closeGroup group register => exact closeGroup_all all group register
  | backreference groups caseless => exact matchReference_all all keeps groups caseless
  | look direction negated next => exact look_all all keeps direction negated next
  | atomic next => exact all.enterBody .atomic next all.position
  | loopStart register => exact mark_all all register _
  | loopCheck register exit head =>
      rw [execute]
      split
      · trivial
      · split
        · exact all.move exit all.position
        · exact mark_all all register head

end Instructions

/-- All positions of all states that an attempt comes to satisfy a condition that its start
satisfies, and that single steps keep. Registers hold the front of the subject before they are
used. -/
theorem Reaches.all (keeps : attempt.Keeps holds) (there : holds attempt.start) (zero : holds 0)
    (reaches : attempt.Reaches state) : state.All holds := by
  induction reaches with
  | initial => exact .initial attempt.program there zero
  | @next state following _ stepped induction =>
      have stepAll : (attempt.step state).All holds := by
        rw [step]
        split
        · trivial
        · exact execute_all induction keeps _
      rw [stepped] at stepAll
      exact stepAll

end Attempt

end PerlRegex.Machine
