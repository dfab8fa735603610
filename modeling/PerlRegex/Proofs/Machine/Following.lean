import PerlRegex.Proofs.Interpretation
import PerlRegex.Proofs.Machine.Undoing
namespace PerlRegex.Machine

/-! What it means for a machine to follow a search. It comes to the end of some code once for every
path of the search, in the same order, and each time it is made to fail there it goes on with the
rest of the search. When there is nothing left, it fails as it would have failed at the beginning.

Following is a relation to the state at the beginning. Failing from a later state has to lead back
to it, whatever has happened in the meantime. -/

/-! ## Spans in slots -/

/-- The slots hold the spans of the groups. -/
structure Represents (slots : Array (Option Nat)) (captures : Captures) : Prop where
  size : slots.size = 2 * captures.length
  span : ∀ group, groupSpan? slots group = captures[group]?.join

namespace Represents

theorem unset (groups : Nat) :
    Represents (.replicate (2 * groups) none) (List.replicate groups none) where
  size := by simp
  span := by
    intro group
    by_cases inside : group < groups
    · have startInside : 2 * group < 2 * groups := by omega
      simp [groupSpan?, startInside, inside]
    · have startOutside : ¬ 2 * group < 2 * groups := by omega
      simp [groupSpan?, startOutside, inside]

theorem close {slots : Array (Option Nat)} {captures : Captures}
    (represents : Represents slots captures) {group : Nat} (inside : group < captures.length)
    (start stop : Nat) :
    Represents
      ((slots.setIfInBounds (2 * group) (some start)).setIfInBounds (2 * group + 1) (some stop))
      (captures.set group (some ⟨start, stop⟩)) where
  size := by simp [represents.size]
  span := by
    intro other
    have bound : 2 * group + 1 < slots.size := by
      have := represents.size
      omega
    by_cases same : other = group
    · subst other
      have startInside : 2 * group < slots.size := by omega
      simp [groupSpan?, inside, bound, startInside]
    · have notStart : 2 * group ≠ 2 * other := by omega
      have crossed : 2 * group + 1 ≠ 2 * other := by omega
      have crossed' : 2 * group ≠ 2 * other + 1 := by omega
      rw [List.getElem?_set_ne (Ne.symm same), ← represents.span other]
      simp [groupSpan?, notStart, crossed, crossed']

end Represents

/-! ## States along the way -/

/-- The machine stands at an address with a path behind it. -/
structure Attempt.StandsAt (attempt : Attempt) (address : Nat) (path : Path) (state : State) :
    Prop where
  address : state.address = address
  position : state.position = path.position
  captures : Represents state.slots path.captures
  inside : path.position ≤ attempt.subject.size

/-- A state has come from `base` with the frames `added`, which undo all that has been changed
since. Registers below `register` have not been touched. -/
structure State.Extends (base : State) (register : Nat) (added : List Frame) (state : State) :
    Prop where
  frames : state.frames = added ++ base.frames
  frameCount : state.frameCount = base.frameCount + added.length
  waiting : state.waiting = base.waiting
  slots : slotsBefore added state.slots = base.slots
  registers : registersBefore added state.registers = base.registers
  kept : ∀ index < register, state.registers[index]? = base.registers[index]?

namespace State.Extends

variable {base middle state : State} {register : Nat} {added : List Frame}

theorem of_agrees (agrees : state.Agrees base) : base.Extends register [] state :=
  ⟨agrees.frames, agrees.frameCount, agrees.waiting, agrees.slots, agrees.registers,
    fun _ _ => by rw [agrees.registers]⟩

theorem trans {innerRegister : Nat} {later : List Frame}
    (begun : base.Extends register added middle)
    (continued : middle.Extends innerRegister later state) (le : register ≤ innerRegister) :
    base.Extends register (later ++ added) state where
  frames := by rw [continued.frames, begun.frames, List.append_assoc]
  frameCount := by
    rw [continued.frameCount, begun.frameCount, List.length_append]
    omega
  waiting := continued.waiting.trans begun.waiting
  slots := by rw [slotsBefore_append, continued.slots, begun.slots]
  registers := by rw [registersBefore_append, continued.registers, begun.registers]
  kept := fun index below =>
    (continued.kept index (Nat.lt_of_lt_of_le below le)).trans (begun.kept index below)

theorem weaken {less : Nat} (extension : base.Extends register added state)
    (le : less ≤ register) : base.Extends less added state :=
  { extension with kept := fun index below => extension.kept index (Nat.lt_of_lt_of_le below le) }

theorem size_registers (extension : base.Extends register added state) :
    state.registers.size = base.registers.size := by
  rw [← extension.registers, size_registersBefore]

theorem size_slots (extension : base.Extends register added state) :
    state.slots.size = base.slots.size := by
  rw [← extension.slots, size_slotsBefore]

theorem fail_eq (extension : base.Extends register added state)
    (noChoice : ∀ frame ∈ added, frame.isChoice = false) {later : State}
    (agrees : later.Agrees state) :
    ∃ back : State, later.fail = back.fail ∧ back.Agrees base ∧
      back.touchedEnd = later.touchedEnd := by
  refine ⟨{ later with
    frames := base.frames
    frameCount := base.frameCount
    slots := base.slots
    registers := base.registers }, ?_, ?_, rfl⟩
  · rw [State.fail]
    rw [agrees.frames, extension.frames, State.failIn_append _ noChoice, agrees.slots,
      extension.slots, agrees.registers, extension.registers, agrees.frameCount,
      extension.frameCount, Nat.add_sub_cancel]
    exact (State.failIn_withFrames _ base.frames base.frames later.waiting).symm
  · exact ⟨rfl, rfl, agrees.waiting.trans extension.waiting, rfl, rfl⟩

end State.Extends

/-! ## Following -/

/-- The machine follows a search from a step on, and comes to the address `exit` with every path.
`touched` says whether the end of the subject has been noted so far. -/
def Attempt.Follows (attempt : Attempt) (base : State) (exit register : Nat) :
    (touched : Bool) → Search → Step → Prop
  | touched, [], step =>
      ∃ state : State, attempt.Leads step state.fail ∧ state.Agrees base
        ∧ state.touchedEnd = touched
  | touched, .found path :: rest, step =>
      ∃ (state : State) (added : List Frame), attempt.Leads step (.next state)
        ∧ state.touchedEnd = touched ∧ attempt.StandsAt exit path state
        ∧ base.Extends register added state
        ∧ ∀ later : State, later.Agrees state →
          Follows attempt base exit register later.touchedEnd rest later.fail
  | touched, .ended :: rest, step =>
      match attempt.options.partialMode with
      | .none => Follows attempt base exit register touched rest step
      | .soft => Follows attempt base exit register true rest step
      | .hard => ∃ state : State, attempt.Leads step (.halt .cutShort state)

namespace Attempt.Follows

variable {attempt : Attempt} {base : State} {exit register : Nat} {touched : Bool}
  {search : Search} {step : Step}

theorem ended {otherBase : State} {otherExit otherRegister : Nat} {otherSearch : Search}
    {otherStep : Step} (leads : attempt.Leads otherStep step)
    (onward : ∀ touched, attempt.Follows base exit register touched search step →
      attempt.Follows otherBase otherExit otherRegister touched otherSearch otherStep)
    (follows : attempt.Follows base exit register touched (.ended :: search) step) :
    attempt.Follows otherBase otherExit otherRegister touched (.ended :: otherSearch)
      otherStep := by
  rw [Follows] at follows ⊢
  cases mode : attempt.options.partialMode <;> simp only [mode] at follows ⊢
  · exact onward touched follows
  · exact onward true follows
  · rcases follows with ⟨state, reached⟩
    exact ⟨state, leads.trans reached⟩

theorem of_leads {earlier : Step} (leads : attempt.Leads earlier step)
    (follows : attempt.Follows base exit register touched search step) :
    attempt.Follows base exit register touched search earlier := by
  induction search generalizing touched with
  | nil =>
      rcases follows with ⟨state, reached, rest⟩
      exact ⟨state, leads.trans reached, rest⟩
  | cons event search induction =>
      cases event with
      | found path =>
          rcases follows with ⟨state, added, reached, rest⟩
          exact ⟨state, added, leads.trans reached, rest⟩
      | ended => exact ended leads (fun _ => induction) follows

/-- What is followed up to a state that extends the base, and then from the base on, is followed
from the base as a whole. -/
theorem append {inner : State} {innerRegister : Nat} {added : List Frame} {more : Search}
    (extension : base.Extends register added inner) (le : register ≤ innerRegister)
    (follows : attempt.Follows inner exit innerRegister touched search step)
    (next : ∀ later : State, later.Agrees inner →
      attempt.Follows base exit register later.touchedEnd more later.fail) :
    attempt.Follows base exit register touched (search ++ more) step := by
  induction search generalizing touched step with
  | nil =>
      rcases follows with ⟨state, reached, agrees, same⟩
      rw [← same]
      exact (next state agrees).of_leads reached
  | cons event search induction =>
      cases event with
      | found path =>
          rcases follows with ⟨state, later, reached, same, stands, extended, rest⟩
          exact ⟨state, later ++ added, reached, same, stands, extension.trans extended le,
            fun later agrees => induction (rest later agrees)⟩
      | ended =>
          rw [List.cons_append]
          exact ended (.refl step) (fun _ => induction) follows

theorem failing {state : State} {added : List Frame}
    (extension : base.Extends register added state)
    (noChoice : ∀ frame ∈ added, frame.isChoice = false) {later : State}
    (agrees : later.Agrees state) :
    attempt.Follows base exit register later.touchedEnd [] later.fail := by
  rcases extension.fail_eq noChoice agrees with ⟨back, same, backAgrees, backTouched⟩
  exact ⟨back, same ▸ .refl _, backAgrees, backTouched⟩

/-- What is followed from a state without a choice above its base is followed from the base. -/
theorem retract {inner : State} {innerRegister : Nat} {added : List Frame}
    (extension : base.Extends register added inner) (le : register ≤ innerRegister)
    (noChoice : ∀ frame ∈ added, frame.isChoice = false)
    (follows : attempt.Follows inner exit innerRegister touched search step) :
    attempt.Follows base exit register touched search step := by
  rw [← List.append_nil search]
  exact append extension le follows fun later agrees => failing extension noChoice agrees

theorem of_agrees {other : State} (agrees : other.Agrees base)
    (follows : attempt.Follows other exit register touched search step) :
    attempt.Follows base exit register touched search step :=
  retract (.of_agrees agrees) (Nat.le_refl _) (by simp) follows

theorem single {state : State} {path : Path} {added : List Frame}
    (stands : attempt.StandsAt exit path state) (extension : base.Extends register added state)
    (noChoice : ∀ frame ∈ added, frame.isChoice = false) :
    attempt.Follows base exit register state.touchedEnd [.found path] (.next state) :=
  ⟨state, added, .refl _, rfl, stands, extension,
    fun _ agrees => failing extension noChoice agrees⟩

theorem andThen {middle firstRegister innerRegister : Nat} {next : Path → Search}
    (leFirst : register ≤ firstRegister) (leInner : register ≤ innerRegister)
    (follows : attempt.Follows base middle firstRegister touched search step)
    (onward : ∀ path ∈ search.results, ∀ (state : State) (added : List Frame),
      base.Extends firstRegister added state → attempt.StandsAt middle path state →
      attempt.Follows state exit innerRegister state.touchedEnd (next path) (.next state)) :
    attempt.Follows base exit register touched (search.andThen next) step := by
  induction search generalizing touched step with
  | nil => exact follows
  | cons event search induction =>
      cases event with
      | found path =>
          rcases follows with ⟨state, added, reached, same, stands, extension, rest⟩
          rw [Search.found_andThen, ← same]
          have begun := onward path (by simp) state added extension stands
          refine (append (extension.weaken leFirst) leInner begun fun later agrees =>
            ?_).of_leads reached
          exact induction (rest later agrees) fun path member =>
            onward path (by simp [member])
      | ended =>
          rw [Search.ended_andThen]
          have onwardRest := fun path (member : path ∈ Search.results search) =>
            onward path (by simpa using member)
          exact ended (.refl step) (fun _ follows => induction follows onwardRest) follows

end Attempt.Follows

end PerlRegex.Machine
