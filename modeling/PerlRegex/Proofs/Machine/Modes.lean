import PerlRegex.Proofs.Machine.Instructions
import PerlRegex.Proofs.Machine.Safety
namespace PerlRegex

/-! Partial matching runs in lock step with matching in full. The modes differ only where the end of
the subject stands in the way: there the soft mode leaves a note, on which nothing that the machine
does depends, and the hard mode halts. -/

def MatchOptions.inMode (options : MatchOptions) (mode : PartialMode) : MatchOptions :=
  { options with partialSoft := mode == .soft, partialHard := mode == .hard }

@[simp] theorem MatchOptions.partialMode_inMode (options : MatchOptions) (mode : PartialMode) :
    (options.inMode mode).partialMode = mode := by
  cases mode <;> rfl

namespace Machine

def Attempt.inMode (attempt : Attempt) (mode : PartialMode) : Attempt :=
  { attempt with options := attempt.options.inMode mode }

/-! ## Notes -/

def State.noting (state : State) (touched : Bool) : State := { state with touchedEnd := touched }

def Step.noting (touched : Bool) : Step → Step
  | .next state => .next (state.noting touched)
  | .halt verdict state => .halt verdict (state.noting touched)

def Halt.noting (halt : Halt) (touched : Bool) : Halt :=
  { halt with state := halt.state.noting touched }

namespace State

variable (state : State) (touched : Bool)

theorem backtrack_noting (frames : List Frame) :
    (state.noting touched).backtrack frames =
      ((state.backtrack frames).1, (state.backtrack frames).2.noting touched) :=
  state.backtrack_apart state.frames frames touched

theorem failIn_noting (frames : List Frame) (waiting : List Waiting) :
    (state.noting touched).failIn frames waiting =
      (state.failIn frames waiting).noting touched := by
  induction waiting generalizing state frames with
  | nil =>
      rw [failIn, failIn, backtrack_noting]
      rcases state.backtrack frames with ⟨_ | _, _⟩ <;> rfl
  | cons run rest induction =>
      rw [failIn, failIn, backtrack_noting]
      rcases state.backtrack frames with ⟨_ | _, exhausted⟩
      · dsimp only
        split
        · rfl
        · exact induction { exhausted with waiting := rest } run.frames
      · rfl

theorem fail_noting : (state.noting touched).fail = state.fail.noting touched :=
  state.failIn_noting touched state.frames state.waiting

theorem leaveBody_noting : (state.noting touched).leaveBody = state.leaveBody.noting touched := by
  have sameWaiting : (state.noting touched).waiting = state.waiting := rfl
  rw [leaveBody, leaveBody, sameWaiting]
  cases state.waiting with
  | nil => rfl
  | cons waiting rest =>
      dsimp only
      cases waiting.purpose with
      | atomic => rfl
      | look negated =>
          cases negated with
          | false => rfl
          | true =>
              rw [undoAll_eq, undoAll_eq]
              exact fail_noting { state with
                slots := slotsBefore state.frames state.slots
                registers := registersBefore state.frames state.registers
                frames := waiting.frames
                frameCount := state.frameCount - state.frames.length
                waiting := rest } touched

theorem Sound.noting {program : Program} {size : Nat} {state : State}
    (sound : state.Sound program size) (touched : Bool) :
    (state.noting touched).Sound program size := { sound with }

end State

/-! ## Steps in the three modes -/

namespace Attempt

/-- Steps in the three modes that start alike, with the end of the subject noted before or not.
Either the mode makes no difference and the note stays as it is, or the end of the subject, behind
the start of the attempt, stands in the way. -/
inductive StepsAgree (attempt : Attempt) (steps : PartialMode → Bool → Step) : Prop
  | alike (plain : Step) (same : ∀ mode touched, steps mode touched = plain.noting touched)
  | atEnd (plain : Step) (room : attempt.start < attempt.subject.size)
      (none : ∀ touched, steps .none touched = plain.noting touched)
      (soft : ∀ touched, steps .soft touched = plain.noting true)
      (hard : ∀ touched, ∃ final, steps .hard touched = .halt .cutShort final)

section Steps

variable {attempt : Attempt} {state : State}

theorem StepsAgree.of_endEffect {steps : PartialMode → Bool → Step} {position : Nat}
    (inside : position ≤ attempt.subject.size) (plain : Step)
    (ignored : ∀ mode touched, (attempt.inMode mode).endEffect position = .ignored →
      steps mode touched = plain.noting touched)
    (noted : ∀ mode touched, (attempt.inMode mode).endEffect position = .noted →
      steps mode touched = plain.noting true)
    (final : ∀ mode touched, (attempt.inMode mode).endEffect position = .final →
      ∃ final, steps mode touched = .halt .cutShort final) :
    attempt.StepsAgree steps := by
  by_cases begun : position ≤ attempt.start
  · have effect : ∀ mode, (attempt.inMode mode).endEffect position = .ignored := fun _ =>
      if_pos begun
    exact .alike plain fun mode touched => ignored mode touched (effect mode)
  · apply StepsAgree.atEnd plain (by omega)
    · exact fun touched => ignored .none touched (if_neg begun)
    · exact fun touched => noted .soft touched (if_neg begun)
    · exact fun touched => final .hard touched (if_neg begun)

theorem failAtEnd_agree {position : Nat} (inside : position ≤ attempt.subject.size) :
    attempt.StepsAgree fun mode touched =>
      (attempt.inMode mode).failAtEnd (state.noting touched) position := by
  apply StepsAgree.of_endEffect inside state.fail
  · intro mode touched effect
    simp only [failAtEnd, effect, State.fail_noting]
  · intro mode touched effect
    simp only [failAtEnd, effect]
    exact state.fail_noting true
  · intro mode touched effect
    simp only [failAtEnd, effect]
    exact ⟨_, rfl⟩

theorem consume_agree (inside : state.position ≤ attempt.subject.size) (accepts : Nat → Bool) :
    attempt.StepsAgree fun mode touched =>
      (attempt.inMode mode).consume (state.noting touched) accepts := by
  cases found : attempt.characterAt state.position with
  | none =>
      have unfolded : ∀ mode touched,
          (attempt.inMode mode).consume (state.noting touched) accepts =
            (attempt.inMode mode).failAtEnd (state.noting touched) state.position :=
        fun mode touched =>
          @consume_of_none (attempt.inMode mode) (state.noting touched) found accepts
      simp only [unfolded]
      exact failAtEnd_agree inside
  | some pair =>
      have unfolded : ∀ mode touched,
          (attempt.inMode mode).consume (state.noting touched) accepts =
            if accepts pair.1 then (state.noting touched).advance (state.position + pair.2)
            else (state.noting touched).fail :=
        fun mode touched =>
          @consume_of_some (attempt.inMode mode) (state.noting touched) _ _ found accepts
      simp only [unfolded]
      split
      · exact .alike (state.advance _) fun _ _ => rfl
      · exact .alike state.fail fun _ touched => state.fail_noting touched

theorem takeLineBreak_agree (inside : state.position ≤ attempt.subject.size) :
    attempt.StepsAgree fun mode touched =>
      (attempt.inMode mode).takeLineBreak (state.noting touched) := by
  cases found :
      attempt.program.pattern.lineRules.lineBreakAt? attempt.subject state.position with
  | some length =>
      have unfolded : ∀ mode touched, (attempt.inMode mode).takeLineBreak (state.noting touched) =
          (state.noting touched).advance (state.position + length) :=
        fun mode touched =>
          @takeLineBreak_of_some (attempt.inMode mode) (state.noting touched) _ found
      simp only [unfolded]
      exact .alike (state.advance _) fun _ _ => rfl
  | none =>
      have unfolded : ∀ mode touched, (attempt.inMode mode).takeLineBreak (state.noting touched) =
          if attempt.subject.size ≤ state.position then
            (attempt.inMode mode).failAtEnd (state.noting touched) state.position
          else (state.noting touched).fail :=
        fun mode touched =>
          @takeLineBreak_of_none (attempt.inMode mode) (state.noting touched) found
      simp only [unfolded]
      split
      · exact failAtEnd_agree inside
      · exact .alike state.fail fun _ touched => state.fail_noting touched

theorem test_agree (inside : state.position ≤ attempt.subject.size) (condition : Assertion) :
    attempt.StepsAgree fun mode touched =>
      (attempt.inMode mode).test (state.noting touched) condition := by
  let plain : Step := attempt.goOnIf state condition
  have decided : ∀ mode touched,
      (attempt.inMode mode).goOnIf (state.noting touched) condition = plain.noting touched := by
    intro mode touched
    have unfolded : (attempt.inMode mode).goOnIf (state.noting touched) condition =
        if attempt.holds state.position condition then
          (state.noting touched).advance state.position
        else (state.noting touched).fail := rfl
    rw [unfolded]
    dsimp only [plain, goOnIf]
    split
    · rfl
    · exact state.fail_noting touched
  have sameAsking : ∀ mode touched,
      (attempt.inMode mode).asksForMore (state.noting touched) condition =
        attempt.asksForMore state condition := fun _ _ => rfl
  cases asks : attempt.asksForMore state condition with
  | false =>
      apply StepsAgree.alike plain
      intro mode touched
      rw [test_of_not_asks ((sameAsking mode touched).trans asks), decided]
  | true =>
      apply StepsAgree.of_endEffect inside plain
      · intro mode touched effect
        rw [test_of_ignored ((sameAsking mode touched).trans asks) effect, decided]
      · intro mode touched effect
        rw [test_of_noted ((sameAsking mode touched).trans asks) effect]
        exact decided mode true
      · intro mode touched effect
        exact ⟨_, test_of_final ((sameAsking mode touched).trans asks) effect⟩

theorem matchReference_agree (groups : List Nat) (caseless : Bool) :
    attempt.StepsAgree fun mode touched =>
      (attempt.inMode mode).matchReference (state.noting touched) groups caseless := by
  have sameText : ∀ mode span,
      (attempt.inMode mode).repeats span caseless state.position =
        attempt.repeats span caseless state.position := fun mode span =>
    @repeats_congr attempt (attempt.inMode mode) rfl rfl span caseless state.position
  have sameSlots : ∀ touched, lacksSlot (state.noting touched) groups = lacksSlot state groups :=
    fun _ => rfl
  cases existing : lacksSlot state groups with
  | true =>
      exact .alike (.halt .fault state) fun mode touched =>
        matchReference_of_lacking ((sameSlots touched).trans existing)
  | false =>
      cases set : groups.findSome? (groupSpan? state.slots) with
      | none =>
          have unfolded : ∀ mode touched,
              (attempt.inMode mode).matchReference (state.noting touched) groups caseless =
                if attempt.program.pattern.options.javascriptCompat then
                  (state.noting touched).advance state.position
                else (state.noting touched).fail := fun _ touched =>
            matchReference_of_unset ((sameSlots touched).trans existing) set
          simp only [unfolded]
          split
          · exact .alike (state.advance _) fun _ _ => rfl
          · exact .alike state.fail fun _ touched => state.fail_noting touched
      | some span =>
          cases repeated : attempt.repeats span caseless state.position with
          | matched stop =>
              exact .alike (state.advance stop) fun mode touched =>
                matchReference_of_matched ((sameSlots touched).trans existing) set
                  ((sameText mode span).trans repeated)
          | differs =>
              apply StepsAgree.alike state.fail
              intro mode touched
              rw [matchReference_of_differs ((sameSlots touched).trans existing) set
                ((sameText mode span).trans repeated)]
              exact state.fail_noting touched
          | ranOut =>
              have unfolded : ∀ mode touched,
                  (attempt.inMode mode).matchReference (state.noting touched) groups caseless =
                    (attempt.inMode mode).failAtEnd (state.noting touched) attempt.subject.size :=
                fun mode touched =>
                  matchReference_of_ranOut ((sameSlots touched).trans existing) set
                    ((sameText mode span).trans repeated)
              simp only [unfolded]
              exact failAtEnd_agree (Nat.le_refl _)

/-! The other instructions do not ask for the mode. -/

variable (attempt state) (mode : PartialMode) (touched : Bool)

theorem look_noting (direction : LookDirection) (negated : Bool) (next : Nat) :
    (attempt.inMode mode).look (state.noting touched) direction negated next =
      (attempt.look state direction negated next).noting touched := by
  have sameRoom : (attempt.inMode mode).lookFrom direction state.position =
      attempt.lookFrom direction state.position := by
    cases direction with
    | ahead => rfl
    | behind width => exact @back_congr attempt (attempt.inMode mode) rfl rfl state.position width
  have samePosition : (state.noting touched).position = state.position := rfl
  rw [look_eq, look_eq, samePosition, sameRoom]
  split
  · rfl
  · split
    · rfl
    · exact state.fail_noting touched

theorem push_noting (frame : Frame) {next notedNext : State → Step}
    (same : ∀ pushed : State, notedNext (pushed.noting touched) = (next pushed).noting touched) :
    (attempt.inMode mode).push (state.noting touched) frame notedNext =
      (attempt.push state frame next).noting touched := by
  have unfolded : (attempt.inMode mode).push (state.noting touched) frame notedNext =
      if attempt.frameLimit ≤ state.frameCount then .halt .tooManyFrames (state.noting touched)
      else notedNext (State.noting { state with
        frames := frame :: state.frames
        frameCount := state.frameCount + 1 } touched) := rfl
  rw [unfolded, push]
  split
  · rfl
  · exact same _

theorem mark_noting (register address : Nat) :
    (attempt.inMode mode).mark (state.noting touched) register address =
      (attempt.mark state register address).noting touched := by
  have sameRegisters : (state.noting touched).registers = state.registers := rfl
  rw [mark, mark, sameRegisters]
  split
  · rfl
  · exact attempt.push_noting state mode touched _ fun _ => rfl

theorem save_noting (slot position : Nat) {next notedNext : State → Step}
    (same : ∀ saved : State, notedNext (saved.noting touched) = (next saved).noting touched) :
    (attempt.inMode mode).save (state.noting touched) slot position notedNext =
      (attempt.save state slot position next).noting touched := by
  have sameSlots : (state.noting touched).slots = state.slots := rfl
  rw [save, save, sameSlots]
  split
  · rfl
  · apply attempt.push_noting state mode touched
    exact fun pushed => same { pushed with slots := pushed.slots.setIfInBounds slot (some position) }

theorem closeGroup_noting (group register : Nat) :
    (attempt.inMode mode).closeGroup (state.noting touched) group register =
      (attempt.closeGroup state group register).noting touched := by
  have sameRegisters : (state.noting touched).registers = state.registers := rfl
  rw [closeGroup, closeGroup, sameRegisters]
  split
  · rfl
  · apply attempt.save_noting state mode touched
    intro saved
    exact attempt.save_noting saved mode touched _ _ fun _ => rfl

variable {attempt state}

theorem execute_agree (inside : state.position ≤ attempt.subject.size)
    (instruction : Instruction) :
    attempt.StepsAgree fun mode touched =>
      (attempt.inMode mode).execute (state.noting touched) instruction := by
  cases instruction with
  | character expected => exact consume_agree inside (· == expected)
  | oneOf characters => exact consume_agree inside characters.contains
  | anyCharacter => exact consume_agree inside fun _ => true
  | charSet set => exact consume_agree inside (set.contains attempt.program.ucp)
  | notNewline =>
      have unfolded : ∀ mode touched,
          (attempt.inMode mode).execute (state.noting touched) .notNewline =
            if (attempt.program.pattern.lineRules.newlineAt? attempt.subject
              state.position).isSome then (state.noting touched).fail
            else (attempt.inMode mode).consume (state.noting touched) fun _ => true :=
        fun _ _ => rfl
      simp only [unfolded]
      split
      · exact .alike state.fail fun _ touched => state.fail_noting touched
      · exact consume_agree inside _
  | lineBreak => exact takeLineBreak_agree inside
  | assertion condition => exact test_agree inside condition
  | backreference groups caseless => exact matchReference_agree groups caseless
  | accept =>
      have unfolded : ∀ mode touched,
          (attempt.inMode mode).execute (state.noting touched) .accept =
            if attempt.refusesEmpty state.position then (state.noting touched).fail
            else .halt .matched (state.noting touched) := fun _ _ => rfl
      simp only [unfolded]
      split
      · exact .alike state.fail fun _ touched => state.fail_noting touched
      · exact .alike (.halt .matched state) fun _ _ => rfl
  | endBody => exact .alike state.leaveBody fun _ touched => state.leaveBody_noting touched
  | split first second =>
      apply StepsAgree.alike (attempt.push state (.choice second state.position) (·.jump first))
      intro mode touched
      change (attempt.inMode mode).push (state.noting touched) (.choice second state.position)
        (·.jump first) = _
      exact attempt.push_noting state mode touched _ fun _ => rfl
  | jump target => exact .alike (state.jump target) fun _ _ => rfl
  | openGroup register | loopStart register =>
      exact .alike (attempt.mark state register (state.address + 1)) fun mode touched =>
        attempt.mark_noting state mode touched register (state.address + 1)
  | closeGroup group register =>
      exact .alike (attempt.closeGroup state group register) fun mode touched =>
        attempt.closeGroup_noting state mode touched group register
  | look direction negated next =>
      exact .alike (attempt.look state direction negated next) fun mode touched =>
        attempt.look_noting state mode touched direction negated next
  | atomic next => exact .alike (state.enterBody .atomic next state.position) fun _ _ => rfl
  | loopCheck register exit head =>
      apply StepsAgree.alike (attempt.execute state (.loopCheck register exit head))
      intro mode touched
      have sameRegisters : (state.noting touched).registers = state.registers := rfl
      have samePosition : (state.noting touched).position = state.position := rfl
      rw [execute, execute, sameRegisters, samePosition]
      split
      · rfl
      · split
        · rfl
        · exact attempt.mark_noting state mode touched register head

theorem step_agree (inside : state.position ≤ attempt.subject.size) :
    attempt.StepsAgree fun mode touched =>
      (attempt.inMode mode).step (state.noting touched) := by
  cases fetched : attempt.program.instructions[state.address]? with
  | none =>
      exact .alike (.halt .fault state) fun mode touched =>
        @step_of_none (attempt.inMode mode) (state.noting touched) fetched
  | some instruction =>
      have unfolded : ∀ mode touched, (attempt.inMode mode).step (state.noting touched) =
          (attempt.inMode mode).execute (state.noting touched) instruction := fun mode touched =>
        @step_of_some (attempt.inMode mode) (state.noting touched) _ fetched
      simp only [unfolded]
      exact execute_agree inside instruction

end Steps

/-! ## Runs in the three modes -/

/-- Runs in the three modes that start alike, with the end of the subject noted before or not.
Either the mode makes no difference, or the end of the subject stood in the way. Then the soft mode
differs from matching in full by the note, and the hard mode stopped. -/
inductive RunsAgree (attempt : Attempt) (runs : PartialMode → Bool → Halt) : Prop
  | alike (plain : Halt) (same : ∀ mode touched, runs mode touched = plain.noting touched)
  | atEnd (plain : Halt) (room : attempt.start < attempt.subject.size)
      (none : ∀ touched, runs .none touched = plain.noting touched)
      (soft : ∀ touched, runs .soft touched = plain.noting true)
      (hard : ∀ touched, (runs .hard touched).verdict = .cutShort)

variable {attempt : Attempt}

theorem run_agree (compiled : Compiled attempt.program) {state : State}
    (sound : state.Sound attempt.program attempt.subject.size) (budget : Nat) :
    attempt.RunsAgree fun mode touched =>
      run (attempt.inMode mode) (state.noting touched) budget := by
  induction budget generalizing state with
  | zero => exact .alike ⟨.tooManyInstructions, state, 0⟩ fun _ _ => rfl
  | succ budget induction =>
      have following : ∀ {next : State},
          (attempt.inMode .none).step (state.noting false) = Step.noting false (.next next) →
            next.Sound attempt.program attempt.subject.size := by
        intro next stepped
        have stepSound := @Attempt.step_sound (attempt.inMode .none) _ compiled
          (sound.noting false)
        rw [stepped] at stepSound
        have nextSound : (next.noting false).Sound attempt.program attempt.subject.size :=
          stepSound
        exact { nextSound with }
      cases step_agree sound.position with
      | alike plain same =>
          cases plain with
          | halt verdict final =>
              apply RunsAgree.alike ⟨verdict, final, budget⟩
              intro mode touched
              rw [run, same]
              rfl
          | next next =>
              have runs : ∀ mode touched,
                  run (attempt.inMode mode) (state.noting touched) (budget + 1) =
                    run (attempt.inMode mode) (next.noting touched) budget := by
                intro mode touched
                rw [run, same]
                rfl
              simp only [runs]
              exact induction (following (same .none false))
      | atEnd plain room none soft hard =>
          have stopped : ∀ touched,
              (run (attempt.inMode .hard) (state.noting touched) (budget + 1)).verdict =
                .cutShort := by
            intro touched
            rcases hard touched with ⟨final, halted⟩
            rw [run, halted]
          cases plain with
          | halt verdict final =>
              apply RunsAgree.atEnd ⟨verdict, final, budget⟩ room
              · intro touched
                rw [run, none]
                rfl
              · intro touched
                rw [run, soft]
                rfl
              · exact stopped
          | next next =>
              have noneRuns : ∀ touched,
                  run (attempt.inMode .none) (state.noting touched) (budget + 1) =
                    run (attempt.inMode .none) (next.noting touched) budget := by
                intro touched
                rw [run, none]
                rfl
              have softRuns : ∀ touched,
                  run (attempt.inMode .soft) (state.noting touched) (budget + 1) =
                    run (attempt.inMode .soft) (next.noting true) budget := by
                intro touched
                rw [run, soft]
                rfl
              cases induction (following (none false)) with
              | alike rest same =>
                  exact .atEnd rest room (fun touched => (noneRuns touched).trans (same _ _))
                    (fun touched => (softRuns touched).trans (same _ _)) stopped
              | atEnd rest _ restNone restSoft _ =>
                  exact .atEnd rest room (fun touched => (noneRuns touched).trans (restNone _))
                    (fun touched => (softRuns touched).trans (restSoft _)) stopped

end Attempt

end Machine

end PerlRegex
