import PerlRegex.Proofs.Execution
import PerlRegex.Proofs.Machine.Stack
namespace PerlRegex.Machine

/-! An attempt is a call, and so is each run of the body of a lookaround or of an atomic group. A
call begins without frames of its own, on top of what all runs hold then. It puts frames there that
undo what it does, and when it returns, either it is undone or these frames are left. -/

/-- The states of a call that begins in `entry`, until it returns to the run that waits for it. The
states of the calls that it makes are among them. -/
inductive Attempt.During (attempt : Attempt) (entry : State) : State → Prop
  | initial : During attempt entry entry
  | next {state following : State} :
      During attempt entry state → attempt.step state = .next following →
      entry.waiting.length ≤ following.waiting.length → During attempt entry following

/-! ## Failing -/

namespace State

theorem length_waiting_of_fail {state next : State} (failed : state.fail = .next next) :
    next.waiting.length ≤ state.waiting.length := by
  generalize waits : state.waiting = waiting
  induction waiting generalizing state with
  | nil =>
      rcases state.fail_resumes_or_exhausts with
        ⟨_, resumed, same, _, same', _⟩ | ⟨exhausted, same, noFrames, waits', _⟩
      · rw [failed] at same
        injection same with same
        exact Nat.le_of_eq (by rw [same, same', waits])
      · rw [failed, fail, noFrames, waits', waits] at same
        cases same
  | cons run rest induction =>
      rcases state.fail_resumes_or_exhausts with
        ⟨_, resumed, same, _, same', _⟩ | ⟨exhausted, same, noFrames, waits', _⟩
      · rw [failed] at same
        injection same with same
        exact Nat.le_of_eq (by rw [same, same', waits])
      · rw [waits] at waits'
        rw [failed] at same
        by_cases negated : run.purpose = .look true
        · rw [fail_of_negated noFrames waits' negated] at same
          injection same with same
          rw [same]
          exact Nat.le_succ _
        · rw [fail_of_body noFrames waits' negated] at same
          exact Nat.le_succ_of_le (induction same.symm rfl)

/-! ## Above the base -/

/-- What a call that began in `entry` has done by now. The runs `inner` wait within it, and the
frames `above` are on top of what was held when it began; they put back what the slots and the
registers contained. -/
structure Above (entry state : State) (inner : List Waiting) (above : List Frame) : Prop where
  waiting : state.waiting = inner ++ entry.waiting
  frames : state.frames ++ inner.flatMap (·.frames) = above
  frameCount : state.frameCount = entry.frameCount + above.length
  stores : storesBefore above state.stores = entry.stores

namespace Above

variable {entry state : State} {inner : List Waiting} {above : List Frame}

theorem initial (begins : entry.frames = []) : entry.Above entry [] [] :=
  ⟨rfl, by rw [begins]; rfl, rfl, rfl⟩

theorem held (made : entry.Above state inner above) (begins : entry.frames = []) :
    state.held = above ++ entry.held := by
  rw [State.held, State.held, begins, made.waiting, List.flatMap_append, ← List.append_assoc,
    made.frames, List.nil_append]

theorem length_waiting (made : entry.Above state inner above) :
    entry.waiting.length ≤ state.waiting.length := by
  rw [made.waiting, List.length_append]
  exact Nat.le_add_left _ _

theorem leftBy (made : entry.Above state inner above) (begins : entry.frames = []) :
    Storage.leftBy state = ⟨above ++ entry.held, state.slots, state.registers⟩ := by
  rw [Storage.leftBy, made.held begins]

theorem commit_leftBy (made : entry.Above state inner above) (begins : entry.frames = []) :
    (Storage.leftBy state).commit entry.held.length =
      { Storage.leftBy state with
        frames := (above.filter fun frame => !frame.isChoice) ++ entry.held } := by
  rw [made.leftBy begins, Storage.commit_append]

theorem unwind_leftBy (made : entry.Above state inner above) (begins : entry.frames = []) :
    (Storage.leftBy state).unwind entry.held.length = .leftBy entry := by
  have slots : slotsBefore above state.slots = entry.slots := congrArg Prod.fst made.stores
  have registers : registersBefore above state.registers = entry.registers :=
    congrArg Prod.snd made.stores
  rw [made.leftBy begins, Storage.unwind_append, slots, registers, Storage.leftBy]

theorem unwind_commit_leftBy (made : entry.Above state inner above) (begins : entry.frames = []) :
    ((Storage.leftBy state).commit entry.held.length).unwind entry.held.length =
      .leftBy entry := by
  rw [made.leftBy begins, Storage.commit_append, Storage.unwind_append, slotsBefore_filter,
    registersBefore_filter, ← Storage.unwind_append, ← made.leftBy begins,
    made.unwind_leftBy begins]

theorem of_agrees {other : State} (made : entry.Above state inner above)
    (agrees : other.Agrees state) : entry.Above other inner above := by
  have same : other.stores = state.stores := Prod.ext agrees.slots agrees.registers
  exact ⟨agrees.waiting.trans made.waiting, by rw [agrees.frames, made.frames],
    agrees.frameCount.trans made.frameCount, by rw [same, made.stores]⟩

theorem adds {next : State} {added : List Frame} (made : entry.Above state inner above)
    (extension : state.Extends 0 added next) : entry.Above next inner (added ++ above) := by
  refine ⟨extension.waiting.trans made.waiting, ?_, ?_, ?_⟩
  · rw [extension.frames, List.append_assoc, made.frames]
  · rw [extension.frameCount, made.frameCount, List.length_append]
    omega
  · rw [storesBefore_append, extension.stores, made.stores]

theorem agrees (made : entry.Above state [] []) (begins : entry.frames = [])
    (noFrames : state.frames = []) : state.Agrees entry :=
  ⟨noFrames.trans begins.symm, made.frameCount, made.waiting, congrArg Prod.fst made.stores,
    congrArg Prod.snd made.stores⟩

theorem goesBack {next : State} {gone : List Frame} (made : entry.Above state inner above)
    (frames : state.frames = gone ++ next.frames) (waiting : next.waiting = state.waiting)
    (count : next.frameCount = state.frameCount - gone.length)
    (stores : next.stores = storesBefore gone state.stores) :
    entry.Above next inner (next.frames ++ inner.flatMap (·.frames)) := by
  have parts : gone ++ (next.frames ++ inner.flatMap (·.frames)) = above := by
    rw [← made.frames, frames, List.append_assoc]
  have length := congrArg List.length parts
  rw [List.length_append] at length
  refine ⟨waiting.trans made.waiting, rfl, ?_, ?_⟩
  · rw [count, made.frameCount]
    omega
  · rw [stores, ← storesBefore_append, parts, made.stores]

theorem leaves {run : Waiting} {next : State}
    (made : entry.Above state (run :: inner) above) (noFrames : state.frames = [])
    (frames : next.frames = run.frames) (waiting : next.waiting = inner ++ entry.waiting)
    (count : next.frameCount = state.frameCount) (stores : next.stores = state.stores) :
    entry.Above next inner above := by
  refine ⟨waiting, ?_, count.trans made.frameCount, by rw [stores, made.stores]⟩
  rw [frames, ← made.frames, noFrames, List.flatMap_cons, List.nil_append]

theorem fails (made : entry.Above state inner above) (begins : entry.frames = []) :
    (∃ next left kept, state.fail = .next next ∧ entry.Above next left kept)
      ∨ ∃ restored : State, restored.Agrees entry ∧ state.fail = restored.fail := by
  induction inner generalizing state above with
  | nil =>
      rcases state.fail_resumes_or_exhausts with
        ⟨gone, next, failed, frames, waiting, count, stores⟩ |
        ⟨exhausted, failed, noFrames, waiting, count, stores⟩
      · exact .inl ⟨next, _, _, failed, made.goesBack frames waiting count stores⟩
      · have undone := made.goesBack (by rw [noFrames, List.append_nil]) waiting count stores
        rw [noFrames] at undone
        exact .inr ⟨exhausted, undone.agrees begins noFrames, failed⟩
  | cons run rest induction =>
      rcases state.fail_resumes_or_exhausts with
        ⟨gone, next, failed, frames, waiting, count, stores⟩ |
        ⟨exhausted, failed, noFrames, waiting, count, stores⟩
      · exact .inl ⟨next, _, _, failed, made.goesBack frames waiting count stores⟩
      · have body := made.goesBack (by rw [noFrames, List.append_nil]) waiting count stores
        rw [failed]
        by_cases negated : run.purpose = .look true
        · exact .inl ⟨_, _, _, fail_of_negated noFrames body.waiting negated,
            body.leaves noFrames rfl rfl rfl rfl⟩
        · rw [fail_of_body noFrames body.waiting negated]
          exact induction (body.leaves noFrames rfl rfl rfl rfl)

theorem commits {run : Waiting} {next : State} (made : entry.Above state (run :: inner) above)
    (frames : next.frames = (state.frames.filter fun frame => !frame.isChoice) ++ run.frames)
    (waiting : next.waiting = inner ++ entry.waiting)
    (count : next.frameCount = state.frameCount
      - (state.frames.length - (state.frames.filter fun frame => !frame.isChoice).length))
    (stores : next.stores = state.stores) :
    entry.Above next inner (next.frames ++ inner.flatMap (·.frames)) := by
  have parts := made.frames
  rw [List.flatMap_cons] at parts
  have length := congrArg List.length parts
  have fewer := List.length_filter_le (fun frame : Frame => !frame.isChoice) state.frames
  refine ⟨waiting, rfl, ?_, ?_⟩
  · rw [count, made.frameCount, frames]
    simp only [List.length_append] at length ⊢
    omega
  · rw [frames, List.append_assoc, storesBefore_append, storesBefore_filter,
      ← storesBefore_append, stores, parts, made.stores]

/-- At the end of a call, what is left to the run that waits for it is the stack as committed. -/
theorem leftBy_eq_commit {run : Waiting} {rest : List Waiting} {next : State}
    (made : entry.Above state [] above) (begins : entry.frames = [])
    (outside : entry.waiting = run :: rest)
    (frames : next.frames = (state.frames.filter fun frame => !frame.isChoice) ++ run.frames)
    (waiting : next.waiting = rest) (stores : next.stores = state.stores) :
    Storage.leftBy next = (Storage.leftBy state).commit entry.held.length := by
  have own : state.frames = above := (List.append_nil _).symm.trans made.frames
  have slots : next.slots = state.slots := congrArg Prod.fst stores
  have registers : next.registers = state.registers := congrArg Prod.snd stores
  have held : next.held = (above.filter fun frame => !frame.isChoice) ++ entry.held := by
    rw [State.held, State.held, frames, own, waiting, begins, outside, List.flatMap_cons,
      List.nil_append, List.append_assoc]
  rw [made.commit_leftBy begins, Storage.leftBy, held, slots, registers]
  rfl

end Above

/-! ## Returning -/

/-- The run that waits for a call, with everything as it was when the call began. -/
def around (entry : State) (run : Waiting) (rest : List Waiting) : State :=
  { entry with frames := run.frames, waiting := rest }

end State

theorem State.agrees_around_of_enterBody {caller entry : State} {purpose : Purpose}
    {next position : Nat} (entered : caller.enterBody purpose next position = .next entry) :
    entry.frames = [] ∧ entry.held = caller.held
      ∧ (entry.around ⟨purpose, next, caller.position, caller.frames⟩ caller.waiting).Agrees
        caller := by
  have held := (State.held_enterBody entered).1
  injection entered with same
  rw [← same] at held ⊢
  exact ⟨rfl, held, rfl, rfl, rfl, rfl, rfl⟩

/-- How a call that began in `entry` may return from a state, and what comes of it. -/
inductive Attempt.Returns (attempt : Attempt) (entry state : State) : Step → Prop
  /-- The attempt has found a match. -/
  | accepts : attempt.program.instructions[state.address]? = some .accept →
      Returns attempt entry state (.halt .matched state)
  /-- The body has matched. Its choices are dropped. -/
  | bodyMatches {run : Waiting} {rest : List Waiting} {next : State} :
      attempt.program.instructions[state.address]? = some .endBody →
      state.waiting = entry.waiting → entry.waiting = run :: rest → run.purpose ≠ .look true →
      next.waiting = rest →
      Storage.leftBy next = (Storage.leftBy state).commit entry.held.length →
      Returns attempt entry state (.next next)
  /-- The body of a negative lookaround has matched. It is undone, and the lookaround fails. -/
  | negatedMatches {run : Waiting} {rest : List Waiting} {outer : State} :
      attempt.program.instructions[state.address]? = some .endBody →
      state.waiting = entry.waiting → entry.waiting = run :: rest → run.purpose = .look true →
      outer.Agrees (entry.around run rest) → Returns attempt entry state outer.fail
  /-- The attempt has failed. -/
  | attemptFails {final : State} : entry.waiting = [] → final.Agrees entry →
      Returns attempt entry state (.halt .failed final)
  /-- The body has failed, and the run that waits for it fails in its turn. -/
  | bodyFails {run : Waiting} {rest : List Waiting} {outer : State} :
      entry.waiting = run :: rest → run.purpose ≠ .look true →
      outer.Agrees (entry.around run rest) → Returns attempt entry state outer.fail
  /-- The body of a negative lookaround has failed, and the lookaround holds. -/
  | negatedFails {run : Waiting} {rest : List Waiting} {outer : State} :
      entry.waiting = run :: rest → run.purpose = .look true →
      outer.Agrees (entry.around run rest) →
      outer.address = run.next → outer.position = run.position →
      Returns attempt entry state (.next outer)
  /-- The attempt gives up. -/
  | halts {verdict : Verdict} {final : State} : verdict ≠ .failed ∧ verdict ≠ .matched →
      Returns attempt entry state (.halt verdict final)

namespace Attempt

variable {attempt : Attempt} {entry state : State} {inner : List Waiting} {frames : List Frame}

namespace Returns

theorem of_restored {restored : State} (begins : entry.frames = [])
    (agrees : restored.Agrees entry) : attempt.Returns entry state restored.fail := by
  have noFrames : restored.frames = [] := agrees.frames.trans begins
  cases waits : entry.waiting with
  | nil =>
      rw [State.fail_of_nothing noFrames (agrees.waiting.trans waits)]
      exact .attemptFails waits
        ⟨begins.symm, agrees.frameCount, agrees.waiting, agrees.slots, agrees.registers⟩
  | cons run rest =>
      have waits' : restored.waiting = run :: rest := agrees.waiting.trans waits
      by_cases negated : run.purpose = .look true
      · rw [State.fail_of_negated noFrames waits' negated]
        exact .negatedFails waits negated
          ⟨rfl, agrees.frameCount, rfl, agrees.slots, agrees.registers⟩ rfl rfl
      · rw [State.fail_of_body noFrames waits' negated]
        exact .bodyFails waits negated
          ⟨rfl, agrees.frameCount, rfl, agrees.slots, agrees.registers⟩

theorem length_waiting {following : State} {step : Step}
    (returns : attempt.Returns entry state step) (leads : step = .next following) :
    following.waiting.length < entry.waiting.length := by
  cases returns with
  | accepts => cases leads
  | attemptFails => cases leads
  | halts => cases leads
  | bodyMatches _ _ waits _ waiting =>
      injection leads with same
      rw [← same, waiting, waits]
      exact Nat.lt_succ_self _
  | negatedFails waits _ agrees =>
      injection leads with same
      rw [← same, agrees.waiting, waits]
      exact Nat.lt_succ_self _
  | negatedMatches _ _ waits _ agrees | bodyFails waits _ agrees =>
      have fewer := State.length_waiting_of_fail leads
      rw [agrees.waiting] at fewer
      rw [waits]
      exact Nat.lt_succ_of_le fewer

end Returns

/-- A step of a call leads to a state of the call, or the call returns. -/
def Progresses (attempt : Attempt) (entry state : State) (step : Step) : Prop :=
  (∃ next left kept, step = .next next ∧ entry.Above next left kept)
    ∨ attempt.Returns entry state step

theorem progresses_of_fail {failing : State} (begins : entry.frames = [])
    (made : entry.Above failing inner frames) : attempt.Progresses entry state failing.fail := by
  rcases made.fails begins with goesOn | ⟨restored, agrees, failed⟩
  · exact .inl goesOn
  · rw [failed]
    exact .inr (.of_restored begins agrees)

theorem progresses_leaveBody (begins : entry.frames = [])
    (fetched : attempt.program.instructions[state.address]? = some .endBody)
    (made : entry.Above state inner frames) : attempt.Progresses entry state state.leaveBody := by
  cases inner with
  | nil =>
      have waits : state.waiting = entry.waiting := made.waiting
      cases outside : entry.waiting with
      | nil =>
          have fault : state.leaveBody = .halt .fault state := by
            rw [State.leaveBody, waits, outside]
          rw [fault]
          exact .inr (.halts (by decide))
      | cons run rest =>
          rcases State.leaveBody_commits_or_exhausts (waits.trans outside) with
            ⟨kept, next, left, own, waiting, _, stores⟩ |
            ⟨negated, exhausted, left, noFrames, waiting, count, stores⟩
          · rw [left]
            exact .inr (.bodyMatches fetched waits outside kept waiting
              (made.leftBy_eq_commit begins outside own waiting stores))
          · rw [left]
            have undone := made.goesBack (by rw [noFrames, List.append_nil]) waiting count stores
            rw [noFrames] at undone
            have agrees := undone.agrees begins noFrames
            exact .inr (.negatedMatches fetched waits outside negated
              ⟨rfl, agrees.frameCount, rfl, agrees.slots, agrees.registers⟩)
  | cons run rest =>
      rcases State.leaveBody_commits_or_exhausts made.waiting with
        ⟨_, next, left, frames, waiting, count, stores⟩ |
        ⟨_, exhausted, left, noFrames, waiting, count, stores⟩
      · exact .inl ⟨next, rest, _, left, made.commits frames waiting count stores⟩
      · rw [left]
        have body := made.goesBack (by rw [noFrames, List.append_nil]) waiting count stores
        exact progresses_of_fail begins (body.leaves noFrames rfl rfl rfl rfl)

theorem progresses_step (begins : entry.frames = []) (made : entry.Above state inner frames) :
    attempt.Progresses entry state (attempt.step state) := by
  generalize stepped : attempt.step state = step
  have acts := attempt.acts_step state
  rw [stepped] at acts
  cases acts with
  | adds extension => exact .inl ⟨_, _, _, rfl, made.adds extension⟩
  | fails agrees => exact progresses_of_fail begins (made.of_agrees agrees)
  | entersBody purpose next position =>
      refine .inl ⟨_, ⟨purpose, next, state.position, state.frames⟩ :: inner, frames, rfl, ?_⟩
      exact ⟨congrArg _ made.waiting, made.frames, made.frameCount, made.stores⟩
  | leavesBody fetched => exact progresses_leaveBody begins fetched made
  | accepts fetched => exact .inr (.accepts fetched)
  | halts other => exact .inr (.halts other)

theorem During.exists_above (during : attempt.During entry state) (begins : entry.frames = []) :
    ∃ inner frames, entry.Above state inner frames := by
  induction during with
  | initial => exact ⟨[], [], .initial begins⟩
  | next _ stepped deep induction =>
      rcases induction with ⟨inner, frames, made⟩
      rcases progresses_step begins made with ⟨next, left, kept, same, made⟩ | returns
      · rw [stepped] at same
        injection same with same
        exact ⟨left, kept, same ▸ made⟩
      · exact absurd (returns.length_waiting stepped) (Nat.not_lt_of_le deep)

/-- The state of a call after some steps, if it has not returned by then. -/
def follow (attempt : Attempt) (entry : State) : (steps : Nat) → Option State
  | 0 => some entry
  | steps + 1 =>
      match attempt.follow entry steps with
      | none => none
      | some state =>
          match attempt.step state with
          | .next following =>
              if entry.waiting.length ≤ following.waiting.length then some following else none
          | .halt _ _ => none

theorem during_of_follow {steps : Nat} (follows : attempt.follow entry steps = some state) :
    attempt.During entry state := by
  induction steps generalizing state with
  | zero =>
      injection follows with same
      exact same ▸ .initial
  | succ steps induction =>
      rw [follow] at follows
      split at follows
      · cases follows
      · rename_i before followed
        split at follows
        · rename_i stepped
          split at follows
          · rename_i deep
            injection follows with same
            exact same ▸ .next (induction followed) stepped deep
          · cases follows
        · cases follows

end Attempt

/-- The stack undoes exactly what a call has done. As long as a call lasts, whatever it calls in its
turn, what lies below its base stays as it is, and the frames above the base put back what the slots
and the registers contained when it began, before and after its choices have been dropped. If the
call fails, or if it is the body of a negative lookaround and matches, then the run that waits for
it finds everything as it was. The calls that it makes begin on top of what is held then, and what
they leave as it was is the state that has made them. -/
theorem undo_exact {attempt : Attempt} {entry state : State} (begins : entry.frames = [])
    (during : attempt.During entry state) :
    (∃ above, state.held = above ++ entry.held
      ∧ state.frameCount = entry.frameCount + above.length
      ∧ (Storage.leftBy state).commit entry.held.length =
        { Storage.leftBy state with
          frames := (above.filter fun frame => !frame.isChoice) ++ entry.held })
    ∧ (Storage.leftBy state).unwind entry.held.length = .leftBy entry
    ∧ ((Storage.leftBy state).commit entry.held.length).unwind entry.held.length = .leftBy entry
    ∧ ((∃ next, attempt.step state = .next next ∧ attempt.During entry next)
      ∨ attempt.Returns entry state (attempt.step state))
    ∧ ∀ {purpose next position called}, state.enterBody purpose next position = .next called →
      called.frames = [] ∧ called.held = state.held
        ∧ (called.around ⟨purpose, next, state.position, state.frames⟩ state.waiting).Agrees
          state := by
  rcases during.exists_above begins with ⟨inner, above, made⟩
  refine ⟨⟨above, made.held begins, made.frameCount, made.commit_leftBy begins⟩,
    made.unwind_leftBy begins, made.unwind_commit_leftBy begins, ?_,
    fun entered => State.agrees_around_of_enterBody entered⟩
  rcases Attempt.progresses_step begins made with ⟨next, left, kept, stepped, made⟩ | returns
  · exact .inl ⟨next, stepped, .next during stepped made.length_waiting⟩
  · exact .inr returns

/-- `(a)(?!(a)(?:b|c))a` captures an `a` before it looks ahead, and another one within the
lookahead. Undoing what is on the stack by then, above the frames of the first group, clears the
second group and keeps the first. -/
theorem undo_exact_lookahead :
    ∃ program, Program.compile "(a)(?!(a)(?:b|c))a".toUTF8.toList {} = .ok program
      ∧ ∃ entry state : State, entry.frames = []
        ∧ Attempt.During ⟨program, #[0x61, 0x61, 0x61], {}, 0, 0, 100⟩ entry state
        ∧ entry.slots = #[none, none, some 0, some 1, none, none]
        ∧ state.slots = #[none, none, some 0, some 1, some 1, some 2]
        ∧ state.held.length = 4 + entry.held.length
        ∧ ((Storage.leftBy state).unwind entry.held.length).slots = entry.slots
        ∧ ((Storage.leftBy state).unwind entry.held.length).registers = entry.registers := by
  have evaluated : ∃ program,
      Program.compile "(a)(?!(a)(?:b|c))a".toUTF8.toList {} = .ok program
        ∧ (let attempt : Attempt := ⟨program, #[0x61, 0x61, 0x61], {}, 0, 0, 100⟩
          (attempt.follow (.initial program 0) 4).any fun entry =>
            (attempt.follow entry 4).any fun state =>
              entry.frames = [] ∧ entry.slots = #[none, none, some 0, some 1, none, none]
                ∧ state.slots = #[none, none, some 0, some 1, some 1, some 2]
                ∧ state.held.length = 4 + entry.held.length) = true :=
    exists_compiled (by decide +kernel)
  rcases evaluated with ⟨program, compiled, walked⟩
  rcases (Option.any_eq_true _ _).mp walked with ⟨entry, _, walked⟩
  rcases (Option.any_eq_true _ _).mp walked with ⟨state, follows, facts⟩
  rcases of_decide_eq_true facts with ⟨begins, before, after, length⟩
  have during := Attempt.during_of_follow follows
  have undone := (undo_exact begins during).2.1
  exact ⟨program, compiled, entry, state, begins, during, before, after, length,
    congrArg Storage.slots undone, congrArg Storage.registers undone⟩

end PerlRegex.Machine
