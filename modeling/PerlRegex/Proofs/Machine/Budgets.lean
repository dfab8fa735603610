import PerlRegex.Proofs.Machine.Decision
import PerlRegex.Proofs.Machine.Effects
namespace PerlRegex.Machine

/-! What a run needs, and what happens if it is not given as much. The states that a run without
limits goes through tell how many instructions it executes and how many frames it holds. Under
limits it goes through the same states, until it lacks something. -/

/-! ## Runs without limits -/

/-- The states in which a run without limits executes an instruction, one after another, and how the
last of them makes it halt. -/
inductive Attempt.Runs (attempt : Attempt) : State → List State → Verdict → State → Prop
  | halts {state final : State} {verdict : Verdict} :
      attempt.freeStep state = .halt verdict final → Runs attempt state [state] verdict final
  | goesOn {state next final : State} {states : List State} {verdict : Verdict} :
      attempt.freeStep state = .next next → Runs attempt next states verdict final →
      Runs attempt state (state :: states) verdict final

namespace Attempt

variable {attempt : Attempt} {state final : State} {states : List State} {verdict : Verdict}

theorem Runs.exists_cons (runs : attempt.Runs state states verdict final) :
    ∃ rest, states = state :: rest := by
  cases runs with
  | halts => exact ⟨[], rfl⟩
  | goesOn => exact ⟨_, rfl⟩

theorem Leads.exists_runs {first : Step} (leads : attempt.Leads first (.halt verdict final)) :
    first = .halt verdict final
      ∨ ∃ state states, first = .next state ∧ attempt.Runs state states verdict final := by
  generalize halted : Step.halt verdict final = last at leads
  induction leads with
  | refl => exact .inl rfl
  | @next state step _ induction =>
      right
      rcases induction halted with stepped | ⟨next, states, stepped, runs⟩
      · exact ⟨state, [state], rfl, .halts (stepped.trans halted.symm)⟩
      · exact ⟨state, state :: states, rfl, .goesOn stepped runs⟩

/-- Every attempt of a compiled program has a run without limits, and the run decides as the search
for the pattern does. -/
theorem exists_runs (compiled : Compiled attempt.program)
    (inside : attempt.start ≤ attempt.subject.size) :
    ∃ states verdict final,
      attempt.Runs (.initial attempt.program attempt.start) states verdict final
        ∧ (attempt.decide false attempt.search).Describes verdict final := by
  rcases leads_initial compiled inside with ⟨verdict, final, leads, describes⟩
  rcases leads.exists_runs with impossible | ⟨state, states, same, runs⟩
  · cases impossible
  · injection same with same
    exact ⟨states, verdict, final, same ▸ runs, describes⟩

end Attempt

/-! ## Spending -/

/-- The most frames that one of some states holds. -/
def mostHeld : List State → Nat
  | [] => 0
  | state :: states => max state.held.length (mostHeld states)

theorem mostHeld_le_iff {states : List State} {limit : Nat} :
    mostHeld states ≤ limit ↔ ∀ state ∈ states, state.held.length ≤ limit := by
  induction states with
  | nil => simp [mostHeld]
  | cons state states induction => rw [mostHeld, Nat.max_le, induction, List.forall_mem_cons]

/-- What a run may lack. -/
inductive Shortage where
  | instructions
  | frames
  deriving DecidableEq, Repr

def Shortage.verdict : Shortage → Verdict
  | instructions => .tooManyInstructions
  | frames => .tooManyFrames

/-- What is left of a budget after an instruction in each of some states, where no state may hold
more frames than the limit. -/
def spend (frameLimit : Nat) : List State → (budget : Nat) → Except Shortage Nat
  | [], budget => .ok budget
  | state :: _, 0 =>
      .error (if frameLimit < state.held.length then .frames else .instructions)
  | state :: states, budget + 1 =>
      if frameLimit < state.held.length then .error .frames else spend frameLimit states budget

theorem spend_of_tooMany {frameLimit : Nat} {state : State}
    (tooMany : frameLimit < state.held.length) (states : List State) (budget : Nat) :
    spend frameLimit (state :: states) budget = .error .frames := by
  cases budget <;> simp only [spend, if_pos tooMany]

section Spend

variable (frameLimit : Nat)

theorem spend_append (first second : List State) (budget : Nat) :
    spend frameLimit (first ++ second) budget =
      (spend frameLimit first budget >>= spend frameLimit second) := by
  induction first generalizing budget with
  | nil => rfl
  | cons state first induction =>
      cases budget with
      | zero => rfl
      | succ budget =>
          rw [List.cons_append, spend, spend]
          split
          · rfl
          · exact induction budget

theorem exists_spend_iff (states : List State) (budget : Nat) :
    (∃ rest, spend frameLimit states budget = .ok rest) ↔
      states.length ≤ budget ∧ ∀ state ∈ states, state.held.length ≤ frameLimit := by
  induction states generalizing budget with
  | nil => simp [spend]
  | cons state states induction =>
      rw [List.forall_mem_cons, List.length_cons]
      rcases Nat.lt_or_ge frameLimit state.held.length with tooMany | room
      · rw [spend_of_tooMany tooMany]
        constructor
        · rintro ⟨_, impossible⟩
          cases impossible
        · rintro ⟨_, fits, _⟩
          omega
      · cases budget with
        | zero => simp [spend]
        | succ budget =>
            rw [spend, if_neg (Nat.not_lt_of_le room), induction, Nat.add_le_add_iff_right]
            exact ⟨fun ⟨enough, fit⟩ => ⟨enough, room, fit⟩, fun ⟨enough, _, fit⟩ => ⟨enough, fit⟩⟩

theorem spend_eq_frames_iff (states : List State) (budget : Nat) :
    spend frameLimit states budget = .error .frames ↔
      ∃ index ≤ budget, ∃ state, states[index]? = some state ∧ frameLimit < state.held.length := by
  induction states generalizing budget with
  | nil => simp [spend]
  | cons state states induction =>
      rcases Nat.lt_or_ge frameLimit state.held.length with tooMany | room
      · rw [spend_of_tooMany tooMany]
        exact iff_of_true rfl ⟨0, Nat.zero_le _, state, rfl, tooMany⟩
      · cases budget with
        | zero =>
            rw [spend, if_neg (Nat.not_lt_of_le room)]
            refine iff_of_false (by simp) ?_
            rintro ⟨index, le, other, found, tooMany⟩
            rw [Nat.le_zero.mp le] at found
            injection found with same
            rw [same] at room
            omega
        | succ budget =>
            rw [spend, if_neg (Nat.not_lt_of_le room), induction]
            constructor
            · rintro ⟨index, le, other, found, tooMany⟩
              exact ⟨index + 1, Nat.succ_le_succ le, other, found, tooMany⟩
            · rintro ⟨index, le, other, found, tooMany⟩
              cases index with
              | zero =>
                  injection found with same
                  rw [same] at room
                  omega
              | succ index => exact ⟨index, Nat.le_of_succ_le_succ le, other, found, tooMany⟩

theorem spend_eq_instructions_iff (states : List State) (budget : Nat) :
    spend frameLimit states budget = .error .instructions ↔
      budget < states.length ∧ ∀ index ≤ budget, ∀ state, states[index]? = some state →
        state.held.length ≤ frameLimit := by
  have fits := exists_spend_iff frameLimit states budget
  have tooMany := spend_eq_frames_iff frameLimit states budget
  constructor
  · intro spent
    rw [spent] at fits tooMany
    have room : ∀ index ≤ budget, ∀ state, states[index]? = some state →
        state.held.length ≤ frameLimit := fun index le state found =>
      Nat.not_lt.mp fun more => by simpa using tooMany.mpr ⟨index, le, state, found, more⟩
    refine ⟨Nat.not_le.mp fun enough => ?_, room⟩
    have all : ∀ state ∈ states, state.held.length ≤ frameLimit := by
      intro state member
      rcases List.getElem?_of_mem member with ⟨index, found⟩
      have inside := (List.getElem?_eq_some_iff.mp found).1
      exact room index (by omega) state found
    rcases fits.mpr ⟨enough, all⟩ with ⟨_, impossible⟩
    cases impossible
  · rintro ⟨tooFew, room⟩
    cases spent : spend frameLimit states budget with
    | ok rest => exact absurd (fits.mp ⟨rest, spent⟩).1 (Nat.not_le.mpr tooFew)
    | error shortage =>
        cases shortage with
        | instructions => rfl
        | frames =>
            rcases tooMany.mp spent with ⟨index, le, state, found, more⟩
            exact absurd (room index le state found) (Nat.not_le.mpr more)

end Spend

/-- A run halts in a certain way with what is left of its budget, or is given up for what it
lacks. -/
def Halt.ComesTo (halt : Halt) (verdict : Verdict) (final : State) : Except Shortage Nat → Prop
  | .ok rest => halt = ⟨verdict, final, rest⟩
  | .error shortage => halt.verdict = shortage.verdict

/-- Under limits a run comes to the same as without, if there is enough for it, and is otherwise
given up for what it lacks. -/
theorem Attempt.Runs.comesTo {attempt : Attempt} {state final : State} {states : List State}
    {verdict : Verdict} (runs : attempt.Runs state states verdict final)
    (defined : verdict ≠ .fault) {limit : Nat} (counted : state.Counted limit) (budget : Nat) :
    (run (attempt.withFrameLimit limit) state budget).ComesTo verdict final
      (spend limit states budget) := by
  have room : ∀ {state : State}, state.Counted limit → ¬ limit < state.held.length :=
    fun counted => Nat.not_lt_of_le counted.within
  have refined : ∀ state, Step.RefinedBy limit ((attempt.withFrameLimit limit).step state)
      (attempt.freeStep state) := (attempt.withFrameLimit limit).step_refinedBy
  induction runs generalizing budget with
  | @halts state final verdict stepped =>
      cases budget with
      | zero =>
          rw [spend, if_neg (room counted)]
          rfl
      | succ budget =>
          rw [spend, if_neg (room counted), spend, run]
          have limited := refined state
          rw [stepped] at limited
          rcases limited with same | ⟨_, undefined⟩
          · rw [same]
            rfl
          · exact absurd undefined defined
  | @goesOn state next final states verdict stepped runs induction =>
      cases budget with
      | zero =>
          rw [spend, if_neg (room counted)]
          rfl
      | succ budget =>
          rw [spend, if_neg (room counted), run]
          rcases refined state with same | ⟨⟨stopped, same⟩, holds⟩
          · rw [stepped] at same
            have acts := (attempt.withFrameLimit limit).acts_step state
            rw [same]
            exact induction defined (acts.counted same counted) budget
          · -- The next state holds too many frames, and the instruction does not lead there.
            have acts : (attempt.withFrameLimit (state.frameCount + 2)).Acts state
                (attempt.freeStep state) := acts_step _ state
            have nextCounted := acts.counted stepped
              ⟨counted.count, counted.count ▸ Nat.le_add_right _ 2⟩
            rw [stepped] at holds
            have tooMany : limit < next.held.length := nextCounted.count ▸ holds
            rcases runs.exists_cons with ⟨rest, listed⟩
            rw [listed, spend_of_tooMany tooMany, same]
            rfl

end PerlRegex.Machine
