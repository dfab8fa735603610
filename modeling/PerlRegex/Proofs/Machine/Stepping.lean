import PerlRegex.Proofs.Advancing
import PerlRegex.Proofs.Machine.Following
namespace PerlRegex.Machine

/-! How single instructions follow searches. -/

namespace Attempt

variable {attempt : Attempt} {state : State} {address exit register : Nat} {path : Path}

/-! ## Fetching -/

theorem leads_of_fetched {instruction : Instruction} {step : Step}
    (fetched : attempt.program.instructions[address]? = some instruction)
    (stands : attempt.StandsAt address path state)
    (executed : (attempt.withFrameLimit (state.frameCount + 2)).execute state instruction = step) :
    attempt.Leads (.next state) step := by
  apply Leads.of_freeStep
  have sameProgram : (attempt.withFrameLimit (state.frameCount + 2)).program = attempt.program :=
    rfl
  rw [freeStep, Attempt.step, sameProgram, stands.address, fetched]
  exact executed

theorem StandsAt.move (stands : attempt.StandsAt address path state) (address' : Nat)
    {position : Nat} (inside : position ≤ attempt.subject.size) :
    attempt.StandsAt address' { path with position := position }
      { state with address := address', position := position } :=
  ⟨rfl, rfl, stands.captures, inside⟩

theorem StandsAt.jump (stands : attempt.StandsAt address path state) (address' : Nat) :
    attempt.StandsAt address' path { state with address := address' } :=
  ⟨rfl, stands.position, stands.captures, stands.inside⟩

/-! ## Failing and going on -/

namespace Follows

theorem nothing (leads : attempt.Leads (.next state) state.fail) :
    attempt.Follows state exit register state.touchedEnd [] (.next state) :=
  ⟨state, leads, .refl _, rfl⟩

theorem advance (stands : attempt.StandsAt address path state) {position : Nat}
    (inside : position ≤ attempt.subject.size)
    (leads : attempt.Leads (.next state) (state.advance position)) :
    attempt.Follows state (address + 1) register state.touchedEnd
      [.found { path with position := position }] (.next state) := by
  rw [State.advance, stands.address] at leads
  have extension : state.Extends register []
      { state with address := address + 1, position := position } :=
    .of_agrees ⟨rfl, rfl, rfl, rfl, rfl⟩
  exact (single (stands.move (address + 1) inside) extension (by simp)).of_leads leads

theorem failAtEnd {position : Nat}
    (leads : attempt.Leads (.next state) (attempt.failAtEnd state position)) :
    attempt.Follows state exit register state.touchedEnd (attempt.searchEnd position)
      (.next state) := by
  rw [Attempt.failAtEnd, endEffect] at leads
  rw [searchEnd]
  by_cases before : position ≤ attempt.start
  · rw [if_pos before] at leads ⊢
    exact nothing leads
  · rw [if_neg before] at leads ⊢
    rw [Follows]
    cases mode : attempt.options.partialMode <;> simp only [mode] at leads ⊢
    · exact nothing leads
    · exact ⟨_, leads, ⟨rfl, rfl, rfl, rfl, rfl⟩, rfl⟩
    · exact ⟨_, leads⟩

/-! ## Instructions that take text -/

section Taking

variable (stands : attempt.StandsAt address path state)
include stands

theorem consume {accepts : Nat → Bool}
    (leads : attempt.Leads (.next state) (attempt.consume state accepts)) :
    attempt.Follows state (address + 1) register state.touchedEnd
      (attempt.searchCharacter accepts path) (.next state) := by
  rw [Attempt.consume] at leads
  rw [searchCharacter]
  rw [stands.position] at leads
  cases found : attempt.characterAt path.position with
  | none =>
      rw [found] at leads
      exact failAtEnd leads
  | some pair =>
      rcases pair with ⟨character, length⟩
      rw [found] at leads
      dsimp only at leads ⊢
      split at leads
      · rename_i accepted
        rw [if_pos accepted]
        exact advance stands (length_of_characterAt found).2 leads
      · rename_i refused
        rw [if_neg refused]
        exact nothing leads

theorem notNewline
    (fetched : attempt.program.instructions[address]? = some .notNewline) :
    attempt.Follows state (address + 1) register state.touchedEnd
      (attempt.searchNotNewline path) (.next state) := by
  have leads : attempt.Leads (.next state) (attempt.execute state .notNewline) :=
    leads_of_fetched fetched stands rfl
  rw [execute, stands.position] at leads
  rw [searchNotNewline]
  split
  · rename_i newline
    exact nothing (by rwa [if_pos newline] at leads)
  · rename_i noNewline
    exact consume stands (by rwa [if_neg noNewline] at leads)

theorem takeLineBreak
    (fetched : attempt.program.instructions[address]? = some .lineBreak) :
    attempt.Follows state (address + 1) register state.touchedEnd
      (attempt.searchLineBreak path) (.next state) := by
  have leads : attempt.Leads (.next state) (attempt.takeLineBreak state) :=
    leads_of_fetched fetched stands rfl
  rw [Attempt.takeLineBreak] at leads
  rw [searchLineBreak]
  rw [stands.position] at leads
  cases found : attempt.program.pattern.lineRules.lineBreakAt? attempt.subject path.position with
  | none =>
      rw [found] at leads
      dsimp only at leads ⊢
      split at leads
      · rename_i beyond
        rw [if_pos beyond]
        exact failAtEnd leads
      · rename_i before
        rw [if_neg before]
        exact nothing leads
  | some length =>
      rw [found] at leads
      exact advance stands (LineRules.lineBreakAt_length found).2 leads

theorem matchReference {groups : List Nat} {caseless : Bool}
    (fetched : attempt.program.instructions[address]? = some (.backreference groups caseless))
    (existing : ∀ group ∈ groups, group < path.captures.length) :
    attempt.Follows state (address + 1) register state.touchedEnd
      (attempt.searchReference groups caseless path) (.next state) := by
  have leads : attempt.Leads (.next state) (attempt.matchReference state groups caseless) :=
    leads_of_fetched fetched stands (matchReference_withFrameLimit ..)
  have noFault : (groups.any fun group => state.slots.size ≤ 2 * group + 1) = false := by
    simp only [List.any_eq_false, decide_eq_true_eq]
    intro group member
    have := existing group member
    have := stands.captures.size
    omega
  have sameSpan : groupSpan? state.slots = fun group => path.captures[group]?.join :=
    funext stands.captures.span
  rw [Attempt.matchReference] at leads
  rw [searchReference]
  rw [noFault, if_neg (by simp), sameSpan, stands.position] at leads
  cases found : groups.findSome? fun group => path.captures[group]?.join with
  | none =>
      rw [found] at leads
      dsimp only at leads ⊢
      split at leads
      · rename_i compat
        rw [if_pos compat]
        exact advance stands stands.inside leads
      · rename_i strict
        rw [if_neg strict]
        exact nothing leads
  | some span =>
      rw [found] at leads
      dsimp only at leads ⊢
      cases repeated : attempt.repeats span caseless path.position with
      | matched stop =>
          rw [repeated] at leads
          exact advance stands ((stop_of_repeats repeated).2 stands.inside) leads
      | differs =>
          rw [repeated] at leads
          exact nothing leads
      | ranOut =>
          rw [repeated] at leads
          exact failAtEnd leads

/-- A condition notes the end of the subject first, where it looks past it, and is decided then. -/
theorem test {condition : Assertion}
    (fetched : attempt.program.instructions[address]? = some (.assertion condition)) :
    attempt.Follows state (address + 1) register state.touchedEnd
      (attempt.searchCondition condition path) (.next state) := by
  have leads : attempt.Leads (.next state) (attempt.test state condition) :=
    leads_of_fetched fetched stands rfl
  simp only [Attempt.test, stands.position] at leads
  rw [searchCondition]
  -- The decision is the same whether or not the end has been noted before it.
  have decided : ∀ noted : Bool,
      attempt.Leads (.next state)
        (if attempt.holds path.position condition then
          State.advance { state with touchedEnd := noted } path.position
        else State.fail { state with touchedEnd := noted }) →
      attempt.Follows state (address + 1) register noted
        (if attempt.holds path.position condition then [.found path] else []) (.next state) := by
    intro noted leads
    have agrees : ({ state with touchedEnd := noted } : State).Agrees state :=
      ⟨rfl, rfl, rfl, rfl, rfl⟩
    have standsNoted : attempt.StandsAt address path { state with touchedEnd := noted } :=
      ⟨stands.address, stands.position, stands.captures, stands.inside⟩
    split at leads
    · rename_i holds
      rw [if_pos holds]
      rw [State.advance] at leads
      dsimp only at leads
      rw [stands.address] at leads
      have extension : state.Extends register []
          { state with address := address + 1, position := path.position, touchedEnd := noted } :=
        .of_agrees ⟨rfl, rfl, rfl, rfl, rfl⟩
      exact (single (standsNoted.move (address + 1) stands.inside) extension (by simp)).of_leads
        leads
    · rename_i fails
      rw [if_neg fails]
      exact ⟨_, leads, agrees, rfl⟩
  split
  · rename_i looks
    rw [if_pos looks] at leads
    rw [endEffect] at leads
    rw [searchEnd]
    by_cases before : path.position ≤ attempt.start
    · rw [if_pos before] at leads ⊢
      exact decided state.touchedEnd leads
    · rw [if_neg before] at leads ⊢
      rw [List.singleton_append]
      rw [Follows]
      cases mode : attempt.options.partialMode <;> simp only [mode] at leads ⊢
      · exact decided state.touchedEnd leads
      · exact decided true (by rw [stands.position]; exact leads)
      · exact ⟨_, leads⟩
  · rename_i blind
    rw [if_neg blind] at leads
    exact decided state.touchedEnd leads

end Taking

/-! ## Choices -/

theorem split {first second : Nat} {preferred other : Search}
    (fetched : attempt.program.instructions[address]? = some (.split first second))
    (stands : attempt.StandsAt address path state)
    (followsPreferred : ∀ begun : State, attempt.StandsAt first path begun →
      (∀ kept, state.Extends kept [.choice second path.position] begun) →
      attempt.Follows begun exit register begun.touchedEnd preferred (.next begun))
    (followsOther : ∀ resumed : State, attempt.StandsAt second path resumed →
      resumed.Agrees state →
      attempt.Follows resumed exit register resumed.touchedEnd other (.next resumed)) :
    attempt.Follows state exit register state.touchedEnd (preferred ++ other) (.next state) := by
  let begun : State := { state with
    address := first
    position := path.position
    frames := .choice second path.position :: state.frames
    frameCount := state.frameCount + 1 }
  have leads : attempt.Leads (.next state) (.next begun) := by
    apply leads_of_fetched fetched stands
    rw [execute, push_of_lt (Nat.lt_add_of_pos_right Nat.zero_lt_two), stands.position]
    rfl
  have extension : ∀ kept, state.Extends kept [.choice second path.position] begun :=
    fun _ => ⟨rfl, rfl, rfl, rfl, rfl, fun _ _ => rfl⟩
  have standsBegun : attempt.StandsAt first path begun :=
    ⟨rfl, rfl, stands.captures, stands.inside⟩
  refine (append (extension register) (Nat.le_refl _) (followsPreferred begun standsBegun extension)
    fun later agrees => ?_).of_leads leads
  rw [State.fail_of_choice agrees.frames]
  have resumedAgrees : ({ later with
      address := second
      position := path.position
      frames := state.frames
      frameCount := later.frameCount - 1 } : State).Agrees state :=
    ⟨rfl, by rw [agrees.frameCount]; rfl, agrees.waiting, agrees.slots, agrees.registers⟩
  refine of_agrees resumedAgrees (followsOther _ ⟨rfl, rfl, ?_, stands.inside⟩ resumedAgrees)
  exact resumedAgrees.slots ▸ stands.captures

theorem choice {body : Nat} {greedy : Bool} {onward : Search}
    (fetched : attempt.program.instructions[address]? = some (Node.choice greedy body exit))
    (stands : attempt.StandsAt address path state)
    (follows : ∀ begun : State, attempt.StandsAt body path begun →
      (∃ added, ∀ kept, state.Extends kept added begun) →
      attempt.Follows begun exit register begun.touchedEnd onward (.next begun)) :
    attempt.Follows state exit register state.touchedEnd (Search.prefer greedy onward path)
      (.next state) := by
  have stay : ∀ begun : State, attempt.StandsAt exit path begun →
      attempt.Follows begun exit register begun.touchedEnd [.found path] (.next begun) :=
    fun begun standsBegun => single standsBegun (.of_agrees (.refl begun)) (by simp)
  cases greedy with
  | true =>
      exact split fetched stands
        (fun begun standsBegun extension => follows begun standsBegun ⟨_, extension⟩)
        (fun resumed standsResumed _ => stay resumed standsResumed)
  | false =>
      rw [Search.prefer, if_neg (by simp), ← List.singleton_append]
      exact split fetched stands
        (fun begun standsBegun _ => stay begun standsBegun)
        (fun resumed standsResumed agrees =>
          follows resumed standsResumed ⟨_, fun _ => .of_agrees agrees⟩)

/-! ## Jumps, registers and slots -/

theorem jump {target : Nat} {search : Search}
    (leads : attempt.Leads (.next state) (state.jump target))
    (stands : attempt.StandsAt address path state)
    (follows : ∀ next : State, attempt.StandsAt target path next → next.Agrees state →
      attempt.Follows next exit register next.touchedEnd search (.next next)) :
    attempt.Follows state exit register state.touchedEnd search (.next state) := by
  have agrees : ({ state with address := target } : State).Agrees state :=
    ⟨rfl, rfl, rfl, rfl, rfl⟩
  exact (of_agrees agrees (follows _ (stands.jump target) agrees)).of_leads leads

theorem mark {target marked innerRegister : Nat} {search : Search}
    (leads : attempt.Leads (.next state)
      ((attempt.withFrameLimit (state.frameCount + 2)).mark state marked target))
    (stands : attempt.StandsAt address path state) (existing : marked < state.registers.size)
    (le : register ≤ marked) (leInner : register ≤ innerRegister)
    (follows : ∀ begun : State, attempt.StandsAt target path begun →
      (∃ added, state.Extends register added begun) →
      begun.registers[marked]? = some path.position →
      attempt.Follows begun exit innerRegister begun.touchedEnd search (.next begun)) :
    attempt.Follows state exit register state.touchedEnd search (.next state) := by
  let begun : State := { state with
    address := target
    frames := .register marked state.registers[marked] :: state.frames
    frameCount := state.frameCount + 1
    registers := state.registers.setIfInBounds marked state.position }
  have marking : attempt.Leads (.next state) (.next begun) := by
    rw [Attempt.mark, Array.getElem?_eq_getElem existing] at leads
    dsimp only at leads
    rw [push_of_lt (Nat.lt_add_of_pos_right Nat.zero_lt_two)] at leads
    exact leads
  have extension : state.Extends register [.register marked state.registers[marked]] begun := by
    refine ⟨rfl, rfl, rfl, rfl, ?_, fun index below => ?_⟩
    · simp [registersBefore, Frame.restoreRegisters, begun, Array.setIfInBounds, existing]
    · exact Array.getElem?_setIfInBounds_ne (by omega)
  have stored : begun.registers[marked]? = some path.position := by
    rw [← stands.position]
    simp [begun, existing]
  have followed := follows begun ⟨rfl, stands.position, stands.captures, stands.inside⟩
    ⟨_, extension⟩ stored
  exact (retract extension leInner (by simp [Frame.isChoice]) followed).of_leads marking

theorem closeGroup {group marked start : Nat}
    (fetched : attempt.program.instructions[address]? = some (.closeGroup group marked))
    (stands : attempt.StandsAt address path state) (existing : group < path.captures.length)
    (stored : state.registers[marked]? = some start) :
    attempt.Follows state (address + 1) register state.touchedEnd [.found (path.close group start)]
      (.next state) := by
  have size := stands.captures.size
  have startInside : 2 * group < state.slots.size := by omega
  have stopInside : 2 * group + 1 < state.slots.size := by omega
  let closed : State := { state with
    address := address + 1
    position := path.position
    frames := .slot (2 * group + 1) state.slots[2 * group + 1]
      :: .slot (2 * group) state.slots[2 * group] :: state.frames
    frameCount := state.frameCount + 1 + 1
    slots := (state.slots.setIfInBounds (2 * group) (some start)).setIfInBounds (2 * group + 1)
      (some path.position) }
  have leads : attempt.Leads (.next state) (.next closed) := by
    apply leads_of_fetched fetched stands
    have stopAfter : (state.slots.setIfInBounds (2 * group) (some start))[2 * group + 1]? =
        some state.slots[2 * group + 1] := by
      rw [Array.getElem?_setIfInBounds_ne (by omega), Array.getElem?_eq_getElem stopInside]
    rw [execute, Attempt.closeGroup, stored]
    dsimp only
    rw [save, Array.getElem?_eq_getElem startInside]
    dsimp only
    rw [push_of_lt (Nat.lt_add_of_pos_right Nat.zero_lt_two), save, stopAfter]
    dsimp only
    rw [push_of_lt (Nat.lt_succ_self _), State.advance, stands.address, stands.position]
  have extension : state.Extends register
      [.slot (2 * group + 1) state.slots[2 * group + 1], .slot (2 * group) state.slots[2 * group]]
      closed := by
    refine ⟨rfl, rfl, rfl, ?_, rfl, fun _ _ => rfl⟩
    apply Array.ext_getElem?
    intro index
    simp only [slotsBefore, Frame.restoreSlots, closed, List.foldl_cons, List.foldl_nil]
    by_cases atStart : 2 * group = index
    · subst atStart
      rw [Array.getElem?_setIfInBounds_self_of_lt (by simp [startInside]),
        Array.getElem?_eq_getElem startInside]
    rw [Array.getElem?_setIfInBounds_ne atStart]
    by_cases atStop : 2 * group + 1 = index
    · subst atStop
      rw [Array.getElem?_setIfInBounds_self_of_lt (by simp [stopInside]),
        Array.getElem?_eq_getElem stopInside]
    rw [Array.getElem?_setIfInBounds_ne atStop, Array.getElem?_setIfInBounds_ne atStop,
      Array.getElem?_setIfInBounds_ne atStart]
  have standsClosed : attempt.StandsAt (address + 1) (path.close group start) closed :=
    ⟨rfl, rfl, stands.captures.close existing start path.position, stands.inside⟩
  exact (single standsClosed extension (by simp [Frame.isChoice])).of_leads leads

end Follows

end Attempt

end PerlRegex.Machine
