import PerlRegex.Machine.Storage
import PerlRegex.Proofs.Machine.Simulation
namespace PerlRegex.Machine

/-! What one step does to the frames of all runs, and to what they put back. Everything that holds
of these along a run follows from here. -/

/-! ## Stores -/

/-- The slots and the registers as they were before all of the frames were pushed. -/
def storesBefore (frames : List Frame) (stores : Array (Option Nat) × Array Nat) :
    Array (Option Nat) × Array Nat :=
  (slotsBefore frames stores.1, registersBefore frames stores.2)

theorem storesBefore_append (later earlier : List Frame)
    (stores : Array (Option Nat) × Array Nat) :
    storesBefore (later ++ earlier) stores = storesBefore earlier (storesBefore later stores) := by
  simp only [storesBefore, slotsBefore_append, registersBefore_append]

theorem storesBefore_filter (frames : List Frame) (stores : Array (Option Nat) × Array Nat) :
    storesBefore (frames.filter fun frame => !frame.isChoice) stores =
      storesBefore frames stores := by
  simp only [storesBefore, slotsBefore_filter, registersBefore_filter]

/-! ## Failing -/

namespace State

def stores (state : State) : Array (Option Nat) × Array Nat := (state.slots, state.registers)

theorem backtrack_cases (state : State) (frames : List Frame) :
    (∃ gone address position kept, frames = gone ++ .choice address position :: kept
      ∧ state.backtrack frames = (true, { state with
          address := address
          position := position
          frames := kept
          frameCount := state.frameCount - gone.length - 1
          slots := slotsBefore gone state.slots
          registers := registersBefore gone state.registers }))
      ∨ state.backtrack frames = (false, { state with
          frames := []
          frameCount := state.frameCount - frames.length
          slots := slotsBefore frames state.slots
          registers := registersBefore frames state.registers }) := by
  cases found : frames.find? Frame.isChoice with
  | none =>
      right
      have noChoice : ∀ frame ∈ frames, frame.isChoice = false := fun frame member =>
        Bool.eq_false_iff.mpr (List.find?_eq_none.mp found frame member)
      have back := backtrack_append state noChoice []
      rw [List.append_nil] at back
      exact back
  | some choice =>
      left
      rcases List.find?_eq_some_iff_append.mp found with ⟨isChoice, gone, kept, parts, noChoice⟩
      cases choice with
      | choice address position =>
          refine ⟨gone, address, position, kept, parts, ?_⟩
          rw [parts, backtrack_append state (fun frame member => by
            simpa using noChoice frame member)]
          rfl
      | slot => cases isChoice
      | register => cases isChoice

/-- A run that fails goes back to a choice of its own, or it has gone back over all of its frames
and is left to fail without any. -/
theorem fail_resumes_or_exhausts (state : State) :
    (∃ (gone : List Frame) (next : State), state.fail = .next next
      ∧ state.frames = gone ++ next.frames ∧ next.waiting = state.waiting
      ∧ next.frameCount = state.frameCount - gone.length
      ∧ next.stores = storesBefore gone state.stores)
    ∨ ∃ exhausted : State, state.fail = exhausted.fail ∧ exhausted.frames = []
      ∧ exhausted.waiting = state.waiting
      ∧ exhausted.frameCount = state.frameCount - state.frames.length
      ∧ exhausted.stores = storesBefore state.frames state.stores := by
  rcases backtrack_cases state state.frames with ⟨gone, address, position, kept, parts, back⟩ | back
  · let next : State := { state with
      address := address
      position := position
      frames := kept
      frameCount := state.frameCount - gone.length - 1
      slots := slotsBefore gone state.slots
      registers := registersBefore gone state.registers }
    refine .inl ⟨gone ++ [.choice address position], next, ?_, ?_, rfl, ?_, ?_⟩
    · rw [fail]
      cases state.waiting <;> rw [failIn, back]
    · rw [parts, List.append_assoc]
      rfl
    · rw [List.length_append, Nat.sub_add_eq]
      rfl
    · rw [storesBefore_append]
      rfl
  · let exhausted : State := { state with
      frames := []
      frameCount := state.frameCount - state.frames.length
      slots := slotsBefore state.frames state.slots
      registers := registersBefore state.frames state.registers }
    refine .inr ⟨exhausted, ?_, rfl, rfl, rfl, rfl⟩
    rw [fail, fail]
    change _ = exhausted.failIn [] state.waiting
    cases state.waiting <;> rw [failIn, failIn, back] <;> rfl

theorem held_of_goesBack {state next : State} {gone : List Frame}
    (frames : state.frames = gone ++ next.frames) (waiting : next.waiting = state.waiting) :
    state.held = gone ++ next.held := by
  rw [held, held, frames, waiting, List.append_assoc]

theorem fail_cases (state : State) :
    (∃ gone next, state.fail = .next next ∧ state.held = gone ++ next.held
      ∧ next.frameCount = state.frameCount - gone.length
      ∧ next.stores = storesBefore gone state.stores)
    ∨ ∃ final, state.fail = .halt .failed final
      ∧ final.stores = storesBefore state.held state.stores := by
  generalize waits : state.waiting = runs
  induction runs generalizing state with
  | nil =>
      rcases state.fail_resumes_or_exhausts with
        ⟨gone, next, failed, frames, waiting, count, stores⟩ |
        ⟨exhausted, failed, noFrames, waiting, _, stores⟩
      · exact .inl ⟨gone, next, failed, held_of_goesBack frames waiting, count, stores⟩
      · rw [fail_of_nothing noFrames (waiting.trans waits)] at failed
        refine .inr ⟨_, failed, ?_⟩
        rw [held, waits, List.flatMap_nil, List.append_nil]
        exact stores
  | cons run rest induction =>
      rcases state.fail_resumes_or_exhausts with
        ⟨gone, next, failed, frames, waiting, count, stores⟩ |
        ⟨exhausted, failed, noFrames, waiting, count, stores⟩
      · exact .inl ⟨gone, next, failed, held_of_goesBack frames waiting, count, stores⟩
      · have whole : state.held = state.frames ++ (run.frames ++ rest.flatMap (·.frames)) := by
          rw [held, waits, List.flatMap_cons]
        by_cases negated : run.purpose = .look true
        · rw [fail_of_negated noFrames (waiting.trans waits) negated] at failed
          exact .inl ⟨state.frames, _, failed, whole, count, stores⟩
        · rw [fail_of_body noFrames (waiting.trans waits) negated] at failed
          rcases induction { exhausted with frames := run.frames, waiting := rest } rfl with
            ⟨gone, next, same, parts, fewer, earlier⟩ | ⟨final, same, earlier⟩
          · refine .inl ⟨state.frames ++ gone, next, failed.trans same, ?_, ?_, ?_⟩
            · rw [whole, List.append_assoc, ← parts]
              rfl
            · rw [fewer, List.length_append, Nat.sub_add_eq, ← count]
            · rw [earlier, storesBefore_append, ← stores]
              rfl
          · refine .inr ⟨final, failed.trans same, ?_⟩
            rw [earlier, whole, storesBefore_append, ← stores]
            rfl

/-- A body that has matched leaves what undoes it to the run that waits for it, or that of a
negative lookaround goes back over all of its frames. -/
theorem leaveBody_commits_or_exhausts {state : State} {run : Waiting} {rest : List Waiting}
    (waits : state.waiting = run :: rest) :
    (run.purpose ≠ .look true ∧ ∃ next : State, state.leaveBody = .next next
      ∧ next.frames = (state.frames.filter fun frame => !frame.isChoice) ++ run.frames
      ∧ next.waiting = rest
      ∧ next.frameCount = state.frameCount
        - (state.frames.length - (state.frames.filter fun frame => !frame.isChoice).length)
      ∧ next.stores = state.stores)
    ∨ run.purpose = .look true ∧ ∃ exhausted : State,
      state.leaveBody = { exhausted with frames := run.frames, waiting := rest }.fail
      ∧ exhausted.frames = [] ∧ exhausted.waiting = state.waiting
      ∧ exhausted.frameCount = state.frameCount - state.frames.length
      ∧ exhausted.stores = storesBefore state.frames state.stores := by
  unfold leaveBody
  rw [waits]
  dsimp only
  split
  · rename_i purpose
    exact .inl ⟨by rw [purpose]; decide, _, rfl, rfl, rfl, rfl, rfl⟩
  · rename_i purpose
    let exhausted : State := { state with
      frames := []
      frameCount := state.frameCount - state.frames.length
      slots := slotsBefore state.frames state.slots
      registers := registersBefore state.frames state.registers }
    rw [undoAll_eq]
    exact .inr ⟨purpose, exhausted, rfl, rfl, waits, rfl, rfl⟩
  · rename_i purpose
    exact .inl ⟨by rw [purpose]; decide, _, rfl, rfl, rfl, rfl, rfl⟩

theorem leaveBody_cases (state : State) :
    state.leaveBody = .halt .fault state
      ∨ (∃ later next, state.leaveBody = .next next ∧ state.held = state.frames ++ later
        ∧ next.held = (state.frames.filter fun frame => !frame.isChoice) ++ later
        ∧ next.frameCount = state.frameCount
          - (state.frames.length - (state.frames.filter fun frame => !frame.isChoice).length)
        ∧ next.stores = state.stores)
      ∨ ∃ outer : State, state.leaveBody = outer.fail ∧ state.held = state.frames ++ outer.held
        ∧ outer.frameCount = state.frameCount - state.frames.length
        ∧ outer.stores = storesBefore state.frames state.stores := by
  cases waits : state.waiting with
  | nil =>
      left
      rw [leaveBody, waits]
  | cons run rest =>
      right
      have whole : state.held = state.frames ++ (run.frames ++ rest.flatMap (·.frames)) := by
        rw [held, waits, List.flatMap_cons]
      rcases leaveBody_commits_or_exhausts waits with
        ⟨_, next, left, frames, waiting, count, stores⟩ |
        ⟨_, exhausted, left, _, _, count, stores⟩
      · refine .inl ⟨_, next, left, whole, ?_, count, stores⟩
        rw [held, frames, waiting, List.append_assoc]
      · exact .inr ⟨_, left, whole, count, stores⟩

theorem Agrees.held {state other : State} (agrees : state.Agrees other) :
    state.held = other.held := by
  rw [State.held, State.held, agrees.frames, agrees.waiting]

theorem Extends.held {base state : State} {register : Nat} {added : List Frame}
    (extension : base.Extends register added state) : state.held = added ++ base.held := by
  rw [State.held, State.held, extension.frames, extension.waiting, List.append_assoc]

theorem Extends.of_frame {base state : State} (frame : Frame)
    (frames : state.frames = frame :: base.frames)
    (count : state.frameCount = base.frameCount + 1) (waiting : state.waiting = base.waiting)
    (slots : Frame.restoreSlots state.slots frame = base.slots)
    (registers : Frame.restoreRegisters state.registers frame = base.registers) :
    base.Extends 0 [frame] state :=
  ⟨frames, count, waiting, slots, registers, fun _ below => absurd below (Nat.not_lt_zero _)⟩

theorem Extends.push {base middle state : State} {added : List Frame} {frame : Frame}
    (begun : base.Extends 0 added middle) (pushed : middle.Extends 0 [frame] state) :
    base.Extends 0 (frame :: added) state :=
  begun.trans pushed (Nat.le_refl 0)

theorem Extends.stores {base state : State} {register : Nat} {added : List Frame}
    (extension : base.Extends register added state) :
    storesBefore added state.stores = base.stores :=
  Prod.ext extension.slots extension.registers

theorem held_enterBody {state next : State} {purpose : Purpose} {behind position : Nat}
    (entered : state.enterBody purpose behind position = .next next) :
    next.held = state.held ∧ next.frameCount = state.frameCount
      ∧ next.stores = state.stores := by
  injection entered with same
  rw [← same]
  exact ⟨rfl, rfl, rfl⟩

end State

/-! ## Steps -/

/-- What a step may do in a state: add frames that put back what it changes, fail, begin or end a
body, find a match, or halt for another reason. -/
inductive Attempt.Acts (attempt : Attempt) (state : State) : Step → Prop
  | adds {added : List Frame} {next : State} : state.Extends 0 added next →
      (added ≠ [] → next.frameCount ≤ attempt.frameLimit) → Acts attempt state (.next next)
  | fails {noted : State} : noted.Agrees state → Acts attempt state noted.fail
  | entersBody (purpose : Purpose) (next position : Nat) :
      Acts attempt state (state.enterBody purpose next position)
  | leavesBody : attempt.program.instructions[state.address]? = some .endBody →
      Acts attempt state state.leaveBody
  | accepts : attempt.program.instructions[state.address]? = some .accept →
      Acts attempt state (.halt .matched state)
  | halts {verdict : Verdict} {final : State} : verdict ≠ .failed ∧ verdict ≠ .matched →
      Acts attempt state (.halt verdict final)

namespace Attempt

variable {attempt : Attempt} {state base : State}

namespace Acts

theorem goesOn {next : State} (agrees : next.Agrees state) : attempt.Acts state (.next next) :=
  .adds (.of_agrees agrees) (absurd rfl)

theorem advance (position : Nat) : attempt.Acts state (state.advance position) :=
  goesOn ⟨rfl, rfl, rfl, rfl, rfl⟩

theorem fail : attempt.Acts state state.fail := .fails (.refl state)

theorem failAtEnd (position : Nat) : attempt.Acts state (attempt.failAtEnd state position) := by
  unfold Attempt.failAtEnd
  split
  · exact fail
  · exact .fails ⟨rfl, rfl, rfl, rfl, rfl⟩
  · exact .halts (by decide)

theorem consume (accepts : Nat → Bool) : attempt.Acts state (attempt.consume state accepts) := by
  unfold Attempt.consume
  split
  · split
    · exact advance _
    · exact fail
  · exact failAtEnd _

theorem takeLineBreak : attempt.Acts state (attempt.takeLineBreak state) := by
  unfold Attempt.takeLineBreak
  split
  · exact advance _
  · split
    · exact failAtEnd _
    · exact fail

theorem test (condition : Assertion) : attempt.Acts state (attempt.test state condition) := by
  have decides : ∀ noted : Bool,
      attempt.Acts state
        (if attempt.holds state.position condition then
          State.advance { state with touchedEnd := noted } state.position
        else State.fail { state with touchedEnd := noted }) := by
    intro noted
    split
    · exact goesOn ⟨rfl, rfl, rfl, rfl, rfl⟩
    · exact .fails ⟨rfl, rfl, rfl, rfl, rfl⟩
  rw [Attempt.test]
  dsimp only
  split
  · exact decides state.touchedEnd
  · exact decides true
  · exact .halts (by decide)

theorem matchReference (groups : List Nat) (caseless : Bool) :
    attempt.Acts state (attempt.matchReference state groups caseless) := by
  unfold Attempt.matchReference
  split
  · exact .halts (by decide)
  · split
    · split
      · exact advance _
      · exact fail
    · split
      · exact advance _
      · exact fail
      · exact failAtEnd _

theorem look (direction : LookDirection) (negated : Bool) (next : Nat) :
    attempt.Acts state (attempt.look state direction negated next) := by
  rw [look_eq]
  split
  · exact .entersBody _ _ _
  · split
    · exact goesOn ⟨rfl, rfl, rfl, rfl, rfl⟩
    · exact fail

theorem mark (register address : Nat) :
    attempt.Acts state (attempt.mark state register address) := by
  unfold Attempt.mark
  split
  · exact .halts (by decide)
  · rename_i former stored
    unfold push
    split
    · exact .halts (by decide)
    · rename_i room
      rcases Array.getElem?_eq_some_iff.mp stored with ⟨existing, same⟩
      refine .adds (.of_frame (.register register former) rfl rfl rfl rfl ?_) fun _ =>
        Nat.lt_of_not_le room
      simp [Frame.restoreRegisters, Array.setIfInBounds, existing, ← same]

theorem save {added : List Frame} (extension : base.Extends 0 added state) (slot position : Nat)
    {next : State → Step}
    (acts : ∀ saved frame, base.Extends 0 (frame :: added) saved →
      saved.frameCount ≤ attempt.frameLimit → attempt.Acts base (next saved)) :
    attempt.Acts base (attempt.save state slot position next) := by
  unfold Attempt.save
  split
  · exact .halts (by decide)
  · rename_i former stored
    unfold push
    split
    · exact .halts (by decide)
    · rename_i room
      refine acts _ (.slot slot former) ?_ (Nat.lt_of_not_le room)
      rcases Array.getElem?_eq_some_iff.mp stored with ⟨existing, same⟩
      refine extension.push (.of_frame _ rfl rfl rfl ?_ rfl)
      simp [Frame.restoreSlots, Array.setIfInBounds, existing, ← same]

theorem closeGroup (group register : Nat) :
    attempt.Acts state (attempt.closeGroup state group register) := by
  unfold Attempt.closeGroup
  split
  · exact .halts (by decide)
  · refine save (.of_agrees (.refl state)) _ _ fun saved frame extension _ => ?_
    refine save extension _ _ fun closed second extension room => ?_
    exact .adds ⟨extension.frames, extension.frameCount, extension.waiting, extension.slots,
      extension.registers, extension.kept⟩ fun _ => room

end Acts

theorem acts_execute {instruction : Instruction}
    (fetched : attempt.program.instructions[state.address]? = some instruction) :
    attempt.Acts state (attempt.execute state instruction) := by
  cases instruction with
  | accept =>
      rw [execute]
      split
      · exact .fail
      · exact .accepts fetched
  | endBody => exact .leavesBody fetched
  | character | oneOf | anyCharacter | charSet => exact .consume _
  | notNewline =>
      rw [execute]
      split
      · exact .fail
      · exact .consume _
  | lineBreak => exact .takeLineBreak
  | assertion condition => exact .test condition
  | split first second =>
      rw [execute]
      unfold push
      split
      · exact .halts (by decide)
      · rename_i room
        exact .adds (.of_frame (.choice second state.position) rfl rfl rfl rfl rfl) fun _ =>
          Nat.lt_of_not_le room
  | jump target => exact .goesOn ⟨rfl, rfl, rfl, rfl, rfl⟩
  | openGroup register => exact .mark _ _
  | closeGroup group register => exact .closeGroup _ _
  | backreference groups caseless => exact .matchReference _ _
  | look direction negated next => exact .look _ _ _
  | atomic next => exact .entersBody _ _ _
  | loopStart register => exact .mark _ _
  | loopCheck register exit head =>
      rw [execute]
      split
      · exact .halts (by decide)
      · split
        · exact .goesOn ⟨rfl, rfl, rfl, rfl, rfl⟩
        · exact .mark _ _

theorem acts_step (attempt : Attempt) (state : State) :
    attempt.Acts state (attempt.step state) := by
  unfold step
  split
  · exact .halts (by decide)
  · rename_i fetched
    exact acts_execute fetched

end Attempt

/-! ## Counting -/

/-- The frames of all runs are counted right, and are no more than a limit. -/
structure State.Counted (state : State) (limit : Nat) : Prop where
  count : state.frameCount = state.held.length
  within : state.held.length ≤ limit

theorem State.Counted.of_fail {state next : State} {limit : Nat} (counted : state.Counted limit)
    (failed : state.fail = .next next) : next.Counted limit := by
  rcases state.fail_cases with ⟨gone, other, same, parts, count, _⟩ | ⟨final, same, _⟩
  · rw [failed] at same
    injection same with same
    have lengths := congrArg List.length parts
    rw [List.length_append] at lengths
    have := counted.count
    have := counted.within
    rw [same]
    exact ⟨by omega, by omega⟩
  · rw [failed] at same
    cases same

theorem Attempt.Acts.counted {attempt : Attempt} {state next : State} {step : Step}
    (acts : attempt.Acts state step) (leads : step = .next next)
    (counted : state.Counted attempt.frameLimit) : next.Counted attempt.frameLimit := by
  have count := counted.count
  have within := counted.within
  cases acts with
  | adds extension room =>
      injection leads with same
      rw [← same]
      rename_i added _
      have lengths := congrArg List.length extension.held
      rw [List.length_append] at lengths
      have counts := extension.frameCount
      refine ⟨by omega, ?_⟩
      by_cases none : added = []
      · rw [none, List.length_nil] at lengths
        omega
      · have := room none
        omega
  | fails agrees =>
      exact State.Counted.of_fail ⟨by rw [agrees.frameCount, agrees.held, count],
        by rw [agrees.held]; exact within⟩ leads
  | entersBody purpose behind position =>
      rcases State.held_enterBody leads with ⟨held, same, _⟩
      exact ⟨by rw [same, held, count], by rw [held]; exact within⟩
  | leavesBody =>
      rcases state.leaveBody_cases with
        same | ⟨later, other, same, parts, held, counts, _⟩ | ⟨outer, same, parts, counts, _⟩
      · rw [leads] at same
        cases same
      · rw [leads] at same
        injection same with same
        have lengths := congrArg List.length parts
        have kept := congrArg List.length held
        have fewer := List.length_filter_le (fun frame => !frame.isChoice) state.frames
        rw [List.length_append] at lengths kept
        rw [same]
        exact ⟨by omega, by omega⟩
      · have lengths := congrArg List.length parts
        rw [List.length_append] at lengths
        exact State.Counted.of_fail ⟨by omega, by omega⟩ (same.symm.trans leads)
  | accepts => cases leads
  | halts => cases leads

/-! ## Giving back -/

/-- What the slots and the registers held when the attempt began. -/
def State.storesAtStart (state : State) : Array (Option Nat) × Array Nat :=
  storesBefore state.held state.stores

theorem State.Agrees.storesAtStart {state other : State} (agrees : state.Agrees other) :
    state.storesAtStart = other.storesAtStart := by
  have same : state.stores = other.stores := Prod.ext agrees.slots agrees.registers
  rw [State.storesAtStart, State.storesAtStart, agrees.held, same]

theorem State.storesAtStart_of_fail {state next : State} (failed : state.fail = .next next) :
    next.storesAtStart = state.storesAtStart := by
  rcases state.fail_cases with ⟨gone, other, same, parts, _, stores⟩ | ⟨final, same, _⟩
  · rw [failed] at same
    injection same with same
    rw [State.storesAtStart, State.storesAtStart, parts, storesBefore_append, same, stores]
  · rw [failed] at same
    cases same

theorem State.stores_of_fail {state final : State} (failed : state.fail = .halt .failed final) :
    final.stores = state.storesAtStart := by
  rcases state.fail_cases with ⟨_, other, same, _⟩ | ⟨other, same, stores⟩
  · rw [failed] at same
    cases same
  · rw [failed] at same
    injection same with _ same
    rw [same]
    exact stores

namespace Attempt.Acts

variable {attempt : Attempt} {state next final : State} {step : Step}

theorem storesAtStart (acts : attempt.Acts state step) (leads : step = .next next) :
    next.storesAtStart = state.storesAtStart := by
  cases acts with
  | adds extension =>
      injection leads with same
      rw [← same, State.storesAtStart, extension.held, storesBefore_append, extension.stores]
      rfl
  | fails agrees =>
      rw [State.storesAtStart_of_fail leads]
      exact agrees.storesAtStart
  | entersBody =>
      rcases State.held_enterBody leads with ⟨held, _, stores⟩
      rw [State.storesAtStart, held, stores]
      rfl
  | leavesBody =>
      rcases state.leaveBody_cases with
        same | ⟨later, other, same, parts, held, _, stores⟩ | ⟨outer, same, parts, _, stores⟩
      · rw [leads] at same
        cases same
      · rw [leads] at same
        injection same with same
        rw [same, State.storesAtStart, State.storesAtStart, held, stores, parts,
          storesBefore_append, storesBefore_append, storesBefore_filter]
      · rw [State.storesAtStart_of_fail (same.symm.trans leads), State.storesAtStart,
          State.storesAtStart, parts, storesBefore_append, stores]
  | accepts => cases leads
  | halts => cases leads

theorem stores_of_failed (acts : attempt.Acts state step)
    (failed : step = .halt .failed final) : final.stores = state.storesAtStart := by
  cases acts with
  | adds => cases failed
  | fails agrees =>
      rw [State.stores_of_fail failed]
      exact agrees.storesAtStart
  | entersBody => cases failed
  | leavesBody =>
      rcases state.leaveBody_cases with same | ⟨_, _, same, _⟩ | ⟨outer, same, parts, _, stores⟩
      · rw [failed] at same
        cases same
      · rw [failed] at same
        cases same
      · rw [State.stores_of_fail (same.symm.trans failed), State.storesAtStart,
          State.storesAtStart, parts, storesBefore_append, stores]
  | accepts => cases failed
  | halts other =>
      injection failed with same
      exact absurd same other.1

end Attempt.Acts

end PerlRegex.Machine
