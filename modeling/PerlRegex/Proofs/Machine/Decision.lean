import PerlRegex.Proofs.Machine.Simulation
namespace PerlRegex.Machine

/-! What an attempt decides. The first path that may be reported as a match decides, and where a
partial match is wanted at once, the first time that the subject ends too early. -/

inductive Decision where
  | matched (path : Path)
  /-- There is no match, and the end of the subject has stood in the way of one or not. -/
  | failed (touched : Bool)
  | cutShort
  deriving DecidableEq, Repr

namespace Attempt

/-- What an attempt decides by a search, if the end of the subject has been noted so far or not. -/
def decide (attempt : Attempt) : (touched : Bool) → Search → Decision
  | touched, [] => .failed touched
  | touched, .found path :: rest =>
      if attempt.refusesEmpty path.position then attempt.decide touched rest else .matched path
  | touched, .ended :: rest =>
      match attempt.options.partialMode with
      | .none => attempt.decide touched rest
      | .soft => attempt.decide true rest
      | .hard => .cutShort

theorem decide_of_partialMode_none {attempt : Attempt} (mode : attempt.options.partialMode = .none)
    (touched : Bool) (search : Search) :
    attempt.decide touched search =
      match search.results.find? fun path => !attempt.refusesEmpty path.position with
      | some path => .matched path
      | none => .failed touched := by
  induction search with
  | nil => rfl
  | cons event search induction =>
      cases event with
      | found path =>
          rw [decide, Search.results_found, List.find?_cons, induction]
          cases attempt.refusesEmpty path.position <;> rfl
      | ended =>
          rw [decide, Search.results_ended, mode]
          exact induction

theorem mem_results_of_decide {attempt : Attempt} {touched : Bool} {search : Search} {path : Path}
    (decided : attempt.decide touched search = .matched path) : path ∈ search.results := by
  induction search generalizing touched with
  | nil => cases decided
  | cons event search induction =>
      cases event with
      | found first =>
          rw [decide] at decided
          split at decided
          · exact List.mem_cons_of_mem first (induction decided)
          · injection decided with same
            exact same ▸ List.mem_cons_self
      | ended =>
          rw [decide] at decided
          split at decided
          · exact induction decided
          · exact induction decided
          · cases decided

end Attempt

/-! ## Machines that halt as decided -/

/-- A machine that has halted with a verdict stands where the decision says. -/
def Decision.Describes (decision : Decision) (verdict : Verdict) (state : State) : Prop :=
  match decision with
  | .matched path =>
      verdict = .matched ∧ state.position = path.position ∧ Represents state.slots path.captures
  | .failed touched => verdict = .failed ∧ state.touchedEnd = touched
  | .cutShort => verdict = .cutShort

namespace Attempt

variable {attempt : Attempt} {base : State} {exit register : Nat} {touched : Bool}
  {search : Search} {step : Step}

/-- A machine that follows a search to the end of its program halts as the search decides. -/
theorem Follows.leads_halt (noFrames : base.frames = []) (noWaiting : base.waiting = [])
    (accepts : attempt.program.instructions[exit]? = some .accept)
    (follows : attempt.Follows base exit register touched search step) :
    ∃ verdict state, attempt.Leads step (.halt verdict state)
      ∧ (attempt.decide touched search).Describes verdict state := by
  induction search generalizing touched step with
  | nil =>
      rcases follows with ⟨state, leads, agrees, same⟩
      rw [State.fail_of_nothing (agrees.frames.trans noFrames)
        (agrees.waiting.trans noWaiting)] at leads
      exact ⟨_, _, leads, rfl, same⟩
  | cons event search induction =>
      cases event with
      | found path =>
          rcases follows with ⟨state, added, leads, same, stands, _, rest⟩
          have accepted : attempt.Leads (.next state) (attempt.execute state .accept) :=
            leads_of_fetched accepts stands rfl
          rw [execute, stands.position] at accepted
          rw [decide]
          split
          · rename_i refused
            rw [if_pos refused] at accepted
            have followsRest := rest state (.refl state)
            rw [same] at followsRest
            exact induction (followsRest.of_leads (leads.trans accepted))
          · rename_i kept
            rw [if_neg kept] at accepted
            exact ⟨_, _, leads.trans accepted, rfl, stands.position, stands.captures⟩
      | ended =>
          rw [Follows] at follows
          rw [decide]
          cases mode : attempt.options.partialMode <;> simp only [mode] at follows ⊢
          · exact induction follows
          · exact induction follows
          · rcases follows with ⟨state, leads⟩
            exact ⟨_, _, leads, rfl⟩

end Attempt

/-! ## Programs of patterns -/

/-- The program is the code of its pattern, which captures and refers to its own groups only. -/
structure Compiled (program : Program) : Prop where
  lines : program.pattern.lineRules.utf8 = program.utf8
  instructions : program.instructions =
    (program.pattern.tree.code program.utf8 0 0 ++ [Instruction.accept]).toArray
  registers : program.registers = program.pattern.tree.registerCount program.utf8
  groups : program.pattern.tree.GroupsBelow (program.pattern.captures + 1)

def Attempt.origin (attempt : Attempt) : Path where
  position := attempt.start
  captures := .replicate (attempt.program.pattern.captures + 1) none

def Attempt.search (attempt : Attempt) : Search :=
  attempt.program.pattern.tree.interpret attempt attempt.origin

theorem leads_initial {attempt : Attempt} (compiled : Compiled attempt.program)
    (inside : attempt.start ≤ attempt.subject.size) :
    ∃ verdict state,
      attempt.Leads (.next (.initial attempt.program attempt.start)) (.halt verdict state)
        ∧ (attempt.decide false attempt.search).Describes verdict state := by
  have tree : attempt.HasCode 0
      (attempt.program.pattern.tree.code attempt.program.utf8 0 0 ++ [Instruction.accept]) := by
    intro index instruction found
    rw [compiled.instructions, Nat.zero_add, List.getElem?_toArray]
    exact found
  have accepts := tree.right.head
  rw [Node.length_code] at accepts
  have stands : attempt.StandsAt 0 attempt.origin (.initial attempt.program attempt.start) :=
    ⟨rfl, rfl, .unset _, inside⟩
  have fits : Attempt.Fits (.initial attempt.program attempt.start) attempt.program.utf8
      attempt.program.pattern.tree 0 := by
    constructor
    · simpa [State.initial, Program.slotCount] using compiled.groups
    · simp [State.initial, compiled.registers]
  have follows := attempt.simulates attempt.program.pattern.tree 0 0 attempt.origin
    (.initial attempt.program attempt.start) tree.left stands fits
  exact follows.leads_halt rfl rfl accepts

/-- An attempt that is not given up for want of instructions or frames ends as the search for the
pattern decides. -/
theorem run_initial {attempt : Attempt} (compiled : Compiled attempt.program)
    (inside : attempt.start ≤ attempt.subject.size) (budget : Nat) :
    (run attempt (.initial attempt.program attempt.start) budget).Exhausted ∨
      (attempt.decide false attempt.search).Describes
        (run attempt (.initial attempt.program attempt.start) budget).verdict
        (run attempt (.initial attempt.program attempt.start) budget).state := by
  rcases leads_initial compiled inside with ⟨verdict, state, leads, describes⟩
  rcases leads.run_eq budget with exhausted | ⟨rest, _, same⟩
  · exact .inl exhausted
  · right
    have halted : run attempt (.initial attempt.program attempt.start) budget =
        ⟨verdict, state, rest⟩ := same
    rw [halted]
    exact describes

theorem capturesOf_eq {slots : Array (Option Nat)} {captures : Captures}
    (represents : Represents slots captures) (nonempty : 0 < captures.length) (whole : Span) :
    capturesOf slots whole = captures.set 0 (some whole) := by
  have count : slots.size / 2 - 1 = captures.length - 1 := by
    have := represents.size
    omega
  cases captures with
  | nil => exact absurd nonempty (Nat.lt_irrefl 0)
  | cons first rest =>
      rw [capturesOf, count, List.set_cons_zero]
      congr 1
      apply List.ext_getElem
      · simp
      · intro index inside inside'
        rw [List.getElem_map, List.getElem_range, represents.span]
        simp only [List.getElem?_cons_succ, List.getElem?_eq_getElem inside', Option.join_some]

end PerlRegex.Machine
