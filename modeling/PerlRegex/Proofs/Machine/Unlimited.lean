import PerlRegex.Machine.Step
namespace PerlRegex.Machine

/-! The machine without its limits. Where a run goes does not depend on how many instructions and
frames it may use: with less of either it only halts earlier, and says so. -/

namespace Attempt

/-! ## The text alone -/

section SameText

variable {attempt other : Attempt} (program : other.program = attempt.program)
  (subject : other.subject = attempt.subject)
include program subject

theorem back_congr (position count : Nat) :
    other.back position count = attempt.back position count := by
  induction count generalizing position with
  | zero => rfl
  | succ count induction => simp only [back, characterBefore, program, subject, induction]

theorem repeatFolded_congr (stop budget captured position : Nat) :
    other.repeatFolded stop budget captured position =
      attempt.repeatFolded stop budget captured position := by
  induction budget generalizing captured position with
  | zero => rfl
  | succ budget induction => simp only [repeatFolded, characterAt, program, subject, induction]

theorem repeats_congr (span : Span) (caseless : Bool) (position : Nat) :
    other.repeats span caseless position = attempt.repeats span caseless position := by
  simp only [repeats, subject, repeatFolded_congr program subject]

end SameText

end Attempt

/-! ## Steps with room for all frames -/

/-- A step leads to a state with at least so many frames, if it is defined. -/
def Step.HoldsAtLeast (least : Nat) : Step → Prop
  | .next following => least ≤ following.frameCount
  | .halt verdict _ => verdict = .fault

theorem Step.HoldsAtLeast.mono {step : Step} {least less : Nat} (holds : step.HoldsAtLeast least)
    (le : less ≤ least) : step.HoldsAtLeast less := by
  cases step with
  | next => exact Nat.le_trans le holds
  | halt => exact holds

/-- A step under a limit is the same as without it, or says that there are too many frames where
the step would hold more than the limit. -/
def Step.RefinedBy (limit : Nat) (limited free : Step) : Prop :=
  limited = free
    ∨ (∃ final, limited = .halt .tooManyFrames final) ∧ free.HoldsAtLeast (limit + 1)

namespace Attempt

def withFrameLimit (attempt : Attempt) (limit : Nat) : Attempt :=
  { attempt with frameLimit := limit }

section WithFrameLimit

variable (attempt : Attempt) (limit : Nat)

@[simp] theorem look_withFrameLimit (state : State) (direction : LookDirection) (negated : Bool)
    (next : Nat) :
    (attempt.withFrameLimit limit).look state direction negated next =
      attempt.look state direction negated next := by
  have sameRoom := @back_congr attempt (attempt.withFrameLimit limit) rfl rfl
  simp only [look, sameRoom]

@[simp] theorem matchReference_withFrameLimit (state : State) (groups : List Nat)
    (caseless : Bool) :
    (attempt.withFrameLimit limit).matchReference state groups caseless =
      attempt.matchReference state groups caseless := by
  have sameText := @repeats_congr attempt (attempt.withFrameLimit limit) rfl rfl
  simp only [matchReference, sameText]
  rfl

end WithFrameLimit

/-- One instruction, given room for the frames that it may need. No instruction needs more than
two. -/
def freeStep (attempt : Attempt) (state : State) : Step :=
  (attempt.withFrameLimit (state.frameCount + 2)).step state

theorem push_of_lt {attempt : Attempt} {state : State}
    (room : state.frameCount < attempt.frameLimit)
    (frame : Frame) (next : State → Step) :
    attempt.push state frame next = next { state with
      frames := frame :: state.frames
      frameCount := state.frameCount + 1 } := by
  rw [push, if_neg (Nat.not_le_of_lt room)]

theorem push_refinedBy (attempt : Attempt) {limit : Nat} (state : State) (frame : Frame)
    {limitedNext freeNext : State → Step} (room : state.frameCount < limit)
    (next : ∀ pushed : State, pushed.frameCount = state.frameCount + 1 →
      Step.RefinedBy attempt.frameLimit (limitedNext pushed) (freeNext pushed)
        ∧ (freeNext pushed).HoldsAtLeast (state.frameCount + 1)) :
    Step.RefinedBy attempt.frameLimit (attempt.push state frame limitedNext)
        ((attempt.withFrameLimit limit).push state frame freeNext)
      ∧ ((attempt.withFrameLimit limit).push state frame freeNext).HoldsAtLeast
        (state.frameCount + 1) := by
  have free : (attempt.withFrameLimit limit).push state frame freeNext = _ := push_of_lt room _ _
  rcases next { state with
    frames := frame :: state.frames
    frameCount := state.frameCount + 1 } rfl with ⟨refined, holds⟩
  rw [free]
  refine ⟨?_, holds⟩
  rw [push]
  split
  · rename_i full
    exact .inr ⟨⟨state, rfl⟩, holds.mono (Nat.succ_le_succ full)⟩
  · exact refined

theorem mark_refinedBy (attempt : Attempt) {limit : Nat} (state : State) (register address : Nat)
    (room : state.frameCount < limit) :
    Step.RefinedBy attempt.frameLimit (attempt.mark state register address)
      ((attempt.withFrameLimit limit).mark state register address) := by
  unfold mark
  split
  · exact .inl rfl
  · refine (attempt.push_refinedBy state _ room ?_).1
    exact fun _ counted => ⟨.inl rfl, Nat.le_of_eq counted.symm⟩

theorem save_refinedBy (attempt : Attempt) {limit : Nat} (state : State) (slot position : Nat)
    {limitedNext freeNext : State → Step} (room : state.frameCount < limit)
    (next : ∀ saved : State, saved.frameCount = state.frameCount + 1 →
      Step.RefinedBy attempt.frameLimit (limitedNext saved) (freeNext saved)
        ∧ (freeNext saved).HoldsAtLeast (state.frameCount + 1)) :
    Step.RefinedBy attempt.frameLimit (attempt.save state slot position limitedNext)
        ((attempt.withFrameLimit limit).save state slot position freeNext)
      ∧ ((attempt.withFrameLimit limit).save state slot position freeNext).HoldsAtLeast
        (state.frameCount + 1) := by
  unfold save
  split
  · exact ⟨.inl rfl, rfl⟩
  · exact attempt.push_refinedBy state _ room fun _ counted => next _ counted

theorem closeGroup_refinedBy (attempt : Attempt) {limit : Nat} (state : State)
    (group register : Nat) (roomForTwo : state.frameCount + 2 ≤ limit) :
    Step.RefinedBy attempt.frameLimit (attempt.closeGroup state group register)
      ((attempt.withFrameLimit limit).closeGroup state group register) := by
  unfold closeGroup
  split
  · exact .inl rfl
  · refine (attempt.save_refinedBy state _ _ (by omega) fun saved counted => ?_).1
    have roomForOne : saved.frameCount < limit := by omega
    refine (attempt.save_refinedBy saved _ _ roomForOne ?_).imp id fun holds =>
      holds.mono (by omega)
    exact fun _ counted => ⟨.inl rfl, Nat.le_of_eq counted.symm⟩

theorem execute_refinedBy (attempt : Attempt) {limit : Nat} (state : State)
    (roomForTwo : state.frameCount + 2 ≤ limit) (instruction : Instruction) :
    Step.RefinedBy attempt.frameLimit (attempt.execute state instruction)
      ((attempt.withFrameLimit limit).execute state instruction) := by
  have room : state.frameCount < limit := by omega
  cases instruction with
  | split first second =>
      simp only [execute]
      refine (attempt.push_refinedBy state _ room ?_).1
      exact fun _ counted => ⟨.inl rfl, Nat.le_of_eq counted.symm⟩
  | openGroup register => exact attempt.mark_refinedBy state _ _ room
  | loopStart register => exact attempt.mark_refinedBy state _ _ room
  | closeGroup group register => exact attempt.closeGroup_refinedBy state group register roomForTwo
  | loopCheck register exit head =>
      simp only [execute]
      split
      · exact .inl rfl
      · split
        · exact .inl rfl
        · exact attempt.mark_refinedBy state _ _ room
  | backreference groups caseless =>
      exact .inl (attempt.matchReference_withFrameLimit _ state groups caseless).symm
  | look direction negated next =>
      exact .inl (attempt.look_withFrameLimit _ state direction negated next).symm
  | _ => exact .inl rfl

theorem step_refinedBy_withFrameLimit (attempt : Attempt) {limit : Nat} (state : State)
    (roomForTwo : state.frameCount + 2 ≤ limit) :
    Step.RefinedBy attempt.frameLimit (attempt.step state)
      ((attempt.withFrameLimit limit).step state) := by
  have sameProgram : (attempt.withFrameLimit limit).program = attempt.program := rfl
  simp only [step, sameProgram]
  split
  · exact .inl rfl
  · exact attempt.execute_refinedBy state roomForTwo _

theorem step_refinedBy (attempt : Attempt) (state : State) :
    Step.RefinedBy attempt.frameLimit (attempt.step state) (attempt.freeStep state) :=
  attempt.step_refinedBy_withFrameLimit state (Nat.le_refl _)

end Attempt

/-! ## Where a step leads -/

/-- The machine gets from one step to another, given enough instructions and frames. -/
inductive Attempt.Leads (attempt : Attempt) : Step → Step → Prop
  | refl (step : Step) : Leads attempt step step
  | next {state : State} {step : Step} :
      Leads attempt (attempt.freeStep state) step → Leads attempt (.next state) step

def Step.run (attempt : Attempt) : Step → (budget : Nat) → Halt
  | .next state, budget => Machine.run attempt state budget
  | .halt verdict state, budget => ⟨verdict, state, budget⟩

def Halt.Exhausted (halt : Halt) : Prop :=
  halt.verdict = .tooManyInstructions ∨ halt.verdict = .tooManyFrames

namespace Attempt.Leads

variable {attempt : Attempt}

theorem trans {first second third : Step} (begun : attempt.Leads first second)
    (continued : attempt.Leads second third) : attempt.Leads first third := by
  induction begun with
  | refl => exact continued
  | next _ induction => exact .next (induction continued)

theorem of_freeStep {state : State} {step : Step} (same : attempt.freeStep state = step) :
    attempt.Leads (.next state) step := by
  rw [← same]
  exact .next (.refl _)

/-- Running from a step comes to the same as running from any step it leads to, with what is left of
the budget, unless the run is given up. -/
theorem run_eq {first second : Step} (leads : attempt.Leads first second) (budget : Nat) :
    (first.run attempt budget).Exhausted ∨
      ∃ rest, rest ≤ budget ∧ first.run attempt budget = second.run attempt rest := by
  induction leads generalizing budget with
  | refl step => exact .inr ⟨budget, Nat.le_refl _, rfl⟩
  | @next state step _ induction =>
      cases budget with
      | zero => exact .inl (.inl rfl)
      | succ budget =>
          have unfolded : Step.run attempt (.next state) (budget + 1) =
              (attempt.step state).run attempt budget := by
            simp only [Step.run, Machine.run]
            cases attempt.step state <;> rfl
          rw [unfolded]
          rcases attempt.step_refinedBy state with same | ⟨⟨final, same⟩, _⟩
          · rw [same]
            rcases induction budget with exhausted | ⟨rest, le, equal⟩
            · exact .inl exhausted
            · exact .inr ⟨rest, Nat.le_succ_of_le le, equal⟩
          · rw [same]
            exact .inl (.inr rfl)

/-- What gets the machine to halt takes a certain number of instructions and frames, and the machine
halts in the same way with any budgets that are not smaller. -/
theorem exists_bound {verdict : Verdict} {final : State} {first : Step}
    (notGivenUp : verdict ≠ .tooManyFrames)
    (leads : attempt.Leads first (.halt verdict final)) :
    ∃ bound, ∀ limit budget, bound ≤ limit → bound ≤ budget →
      ∃ rest, budget ≤ rest + bound
        ∧ first.run (attempt.withFrameLimit limit) budget = ⟨verdict, final, rest⟩ := by
  generalize halted : Step.halt verdict final = last at leads
  induction leads with
  | refl step =>
      refine ⟨0, fun limit budget _ _ => ⟨budget, Nat.le_refl _, ?_⟩⟩
      rw [← halted]
      rfl
  | @next state step leads induction =>
      rcases induction halted with ⟨bound, halts⟩
      refine ⟨bound + 1 + (state.frameCount + 2), ?_⟩
      intro limit budget frames instructions
      have stepped : (attempt.withFrameLimit limit).step state = attempt.freeStep state := by
        have room : state.frameCount + 2 ≤ limit := by omega
        rcases (attempt.withFrameLimit (state.frameCount + 2)).step_refinedBy_withFrameLimit state
          room with same | ⟨⟨state, givenUp⟩, _⟩
        · exact same.symm
        · -- A step that gives up would be the last one.
          have free : attempt.freeStep _ = .halt .tooManyFrames state := givenUp
          rw [free, ← halted] at leads
          cases leads
          exact absurd rfl notGivenUp
      cases budget with
      | zero => omega
      | succ budget =>
          rcases halts limit budget (by omega) (by omega) with ⟨rest, spent, same⟩
          refine ⟨rest, by omega, ?_⟩
          rw [← same, ← stepped, Step.run, Machine.run]
          cases (attempt.withFrameLimit limit).step state <;> rfl

end Attempt.Leads

/-! ## More budget -/

theorem budget_run_le (attempt : Attempt) (state : State) (budget : Nat) :
    (run attempt state budget).budget ≤ budget := by
  induction budget generalizing state with
  | zero => exact Nat.le_refl 0
  | succ budget induction =>
      rw [run]
      split
      · exact Nat.le_succ_of_le (induction _)
      · exact Nat.le_succ budget

theorem run_of_le {attempt : Attempt} {state : State} {budget more : Nat}
    (finished : ¬ (run attempt state budget).Exhausted) (le : budget ≤ more) :
    ∃ rest, (run attempt state budget).budget ≤ rest ∧
      run attempt state more =
        ⟨(run attempt state budget).verdict, (run attempt state budget).state, rest⟩ := by
  induction budget generalizing state more with
  | zero => exact absurd (.inl rfl) finished
  | succ budget induction =>
      cases more with
      | zero => omega
      | succ more =>
          simp only [run] at finished ⊢
          cases stepped : attempt.step state with
          | next following =>
              simp only [stepped] at finished
              exact induction finished (Nat.le_of_succ_le_succ le)
          | halt verdict final => exact ⟨more, Nat.le_of_succ_le_succ le, rfl⟩

end PerlRegex.Machine
