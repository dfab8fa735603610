import PerlRegex.Proofs.Machine.Stepping
namespace PerlRegex.Machine

/-! Bodies of lookarounds and of atomic groups run with a stack of their own. What the run around a
body sees of it is its first path, or the absence of one. -/

/-! ## Runs that wait -/

/-- A run that stands in `outer` waits for a body that begins in `inner`. -/
structure State.Awaits (outer : State) (waiting : Waiting) (inner : State) : Prop where
  frames : inner.frames = []
  outerFrames : waiting.frames = outer.frames
  frameCount : inner.frameCount = outer.frameCount
  waiting : inner.waiting = waiting :: outer.waiting
  slots : inner.slots = outer.slots
  registers : inner.registers = outer.registers

namespace State.Awaits

variable {outer inner state : State} {waiting : Waiting} {register : Nat} {added : List Frame}

/-- Leaving a body keeps what it has stored, as frames of the run around it, and none of its
choices. -/
theorem extends_commit (awaits : outer.Awaits waiting inner)
    (extension : inner.Extends register added state) {left : State}
    (agrees : left.Agrees { state.commit waiting.frames with waiting := outer.waiting }) :
    outer.Extends register (added.filter fun frame => !frame.isChoice) left := by
  have listed : state.frames = added := by
    rw [extension.frames, awaits.frames, List.append_nil]
  refine ⟨?_, ?_, agrees.waiting, ?_, ?_, fun index below => ?_⟩
  · rw [agrees.frames, State.commit, listed, awaits.outerFrames]
  · have fewer := List.length_filter_le (fun frame : Frame => !frame.isChoice) added
    rw [agrees.frameCount, State.commit, listed, extension.frameCount, awaits.frameCount]
    dsimp only
    omega
  · rw [agrees.slots, slotsBefore_filter]
    exact extension.slots.trans awaits.slots
  · rw [agrees.registers, registersBefore_filter]
    exact extension.registers.trans awaits.registers
  · rw [agrees.registers, ← awaits.registers]
    exact extension.kept index below

theorem agrees_undoAll (awaits : outer.Awaits waiting inner)
    (extension : inner.Extends register added state) :
    ({ state.undoAll state.frames with
      frames := waiting.frames
      frameCount := state.frameCount - state.frames.length
      waiting := outer.waiting } : State).Agrees outer := by
  have listed : state.frames = added := by
    rw [extension.frames, awaits.frames, List.append_nil]
  rw [State.undoAll_eq, listed]
  refine ⟨awaits.outerFrames, ?_, rfl, extension.slots.trans awaits.slots,
    extension.registers.trans awaits.registers⟩
  rw [← awaits.frameCount]
  exact Nat.sub_eq_of_eq_add extension.frameCount

theorem agrees_of_agrees (awaits : outer.Awaits waiting inner) (agrees : state.Agrees inner)
    {later : State}
    (back : later.Agrees { state with frames := waiting.frames, waiting := outer.waiting }) :
    later.Agrees outer :=
  back.trans ⟨awaits.outerFrames, agrees.frameCount.trans awaits.frameCount, rfl,
    agrees.slots.trans awaits.slots, agrees.registers.trans awaits.registers⟩

end State.Awaits

/-! ## What the run around a body follows -/

namespace Attempt.Follows

variable {attempt : Attempt} {outer inner : State} {waiting : Waiting} {bodyEnd register : Nat}
  {touched : Bool} {search : Search} {step : Step}

theorem leads_of_endBody {state : State} {path : Path} {added : List Frame}
    (fetched : attempt.program.instructions[bodyEnd]? = some .endBody)
    (awaits : outer.Awaits waiting inner) (stands : attempt.StandsAt bodyEnd path state)
    (extension : inner.Extends register added state) :
    state.waiting = waiting :: outer.waiting
      ∧ attempt.Leads (.next state) state.leaveBody :=
  ⟨extension.waiting.trans awaits.waiting, leads_of_fetched fetched stands rfl⟩

/-- Commit to the first path of a body, and go on with what becomes of that path outside. -/
theorem commitBody (awaits : outer.Awaits waiting inner)
    (notNegated : waiting.purpose ≠ .look true) {resume : Path → Path}
    (leave : ∀ (path : Path) (state : State) (added : List Frame),
      attempt.StandsAt bodyEnd path state → inner.Extends register added state →
      ∃ left : State, attempt.Leads (.next state) (.next left)
        ∧ left.touchedEnd = state.touchedEnd
        ∧ attempt.StandsAt waiting.next (resume path) left
        ∧ left.Agrees { state.commit waiting.frames with waiting := outer.waiting })
    (follows : attempt.Follows inner bodyEnd register touched search step) :
    attempt.Follows outer waiting.next register touched
      (search.first.andThen fun seen => [.found (resume seen)]) step := by
  induction search generalizing touched with
  | nil =>
      rcases follows with ⟨state, leads, agrees, same⟩
      rw [State.fail_of_body (agrees.frames.trans awaits.frames)
        (agrees.waiting.trans awaits.waiting) notNegated] at leads
      exact ⟨_, leads, awaits.agrees_of_agrees agrees ⟨rfl, rfl, rfl, rfl, rfl⟩, same⟩
  | cons event search induction =>
      cases event with
      | found path =>
          rcases follows with ⟨state, added, leads, same, stands, extension, _⟩
          rcases leave path state added stands extension with
            ⟨left, leaves, sameLeft, standsLeft, agrees⟩
          rw [Search.first, Search.found_andThen, Search.nil_andThen, List.append_nil, ← same,
            ← sameLeft]
          exact (single standsLeft (awaits.extends_commit extension agrees) (by simp)).of_leads
            (leads.trans leaves)
      | ended => exact ended (.refl step) (fun _ => induction) follows

section Ends

variable (fetched : attempt.program.instructions[bodyEnd]? = some .endBody)
  (awaits : outer.Awaits waiting inner)
include fetched awaits

theorem atomicBody (purpose : waiting.purpose = .atomic)
    (follows : attempt.Follows inner bodyEnd register touched search step) :
    attempt.Follows outer waiting.next register touched search.first step := by
  rw [← Search.andThen_found search.first]
  apply commitBody awaits (by simp [purpose]) _ follows
  intro path state added stands extension
  rcases leads_of_endBody fetched awaits stands extension with ⟨waits, ends⟩
  rw [State.leaveBody, waits] at ends
  simp only [purpose] at ends
  exact ⟨_, ends, rfl, ⟨rfl, stands.position, stands.captures, stands.inside⟩,
    ⟨rfl, rfl, rfl, rfl, rfl⟩⟩

theorem lookBody (purpose : waiting.purpose = .look false)
    (inside : waiting.position ≤ attempt.subject.size)
    (follows : attempt.Follows inner bodyEnd register touched search step) :
    attempt.Follows outer waiting.next register touched
      (search.first.andThen fun seen => [.found { seen with position := waiting.position }])
      step := by
  refine commitBody awaits (by simp [purpose]) ?_ follows
  intro path state added stands extension
  rcases leads_of_endBody fetched awaits stands extension with ⟨waits, ends⟩
  rw [State.leaveBody, waits] at ends
  simp only [purpose] at ends
  exact ⟨_, ends, rfl, ⟨rfl, rfl, stands.captures, inside⟩, ⟨rfl, rfl, rfl, rfl, rfl⟩⟩

theorem negatedBody {address : Nat} {path : Path} (purpose : waiting.purpose = .look true)
    (stands : attempt.StandsAt address path outer) (position : waiting.position = path.position)
    (follows : attempt.Follows inner bodyEnd register touched search step) :
    attempt.Follows outer waiting.next register touched (search.absence path) step := by
  induction search generalizing touched with
  | nil =>
      rcases follows with ⟨state, leads, agrees, same⟩
      rw [State.fail_of_negated (agrees.frames.trans awaits.frames)
        (agrees.waiting.trans awaits.waiting) purpose] at leads
      have back : ({ state with
          address := waiting.next
          position := waiting.position
          frames := waiting.frames
          waiting := outer.waiting } : State).Agrees outer :=
        awaits.agrees_of_agrees agrees ⟨rfl, rfl, rfl, rfl, rfl⟩
      have standsOutside : attempt.StandsAt waiting.next path { state with
          address := waiting.next
          position := waiting.position
          frames := waiting.frames
          waiting := outer.waiting } :=
        ⟨rfl, position, back.slots ▸ stands.captures, stands.inside⟩
      rw [Search.absence, ← same]
      exact (single standsOutside (.of_agrees back) (by simp)).of_leads leads
  | cons event search induction =>
      cases event with
      | found path =>
          rcases follows with ⟨state, added, leads, same, stands, extension, _⟩
          rcases leads_of_endBody fetched awaits stands extension with ⟨waits, ends⟩
          rw [State.leaveBody, waits] at ends
          simp only [purpose] at ends
          refine ⟨_, leads.trans ends, awaits.agrees_undoAll extension, ?_⟩
          rw [State.undoAll_eq]
          exact same
      | ended => exact ended (.refl step) (fun _ => induction) follows

end Ends

end Attempt.Follows

end PerlRegex.Machine
