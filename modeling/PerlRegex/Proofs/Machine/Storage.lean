import PerlRegex.Proofs.Machine.Effects
namespace PerlRegex.Machine

/-! What an attempt finds in its storage. Registers are not cleared between attempts, and need not
be: an attempt that has failed has given back all that it had put there. -/

/-! ## Giving back -/

/-- A run that fails leaves slots and registers as they were when its attempt began. -/
theorem stores_of_run_failed {attempt : Attempt} {state : State} {budget : Nat}
    (failed : (run attempt state budget).verdict = .failed) :
    (run attempt state budget).state.stores = state.storesAtStart := by
  induction budget generalizing state with
  | zero => cases failed
  | succ budget induction =>
      have acts := attempt.acts_step state
      rw [run] at failed ⊢
      cases stepped : attempt.step state with
      | next following =>
          rw [stepped] at failed
          rw [← acts.storesAtStart stepped]
          exact induction failed
      | halt verdict final =>
          rw [stepped] at failed
          have isFailure : verdict = .failed := failed
          exact acts.stores_of_failed (isFailure ▸ stepped)

namespace Storage

/-- There is a slot for both ends of every group of a program, and its registers are cleared. -/
structure Ready (storage : Storage) (program : Program) : Prop where
  slotCount : storage.slots.size = program.slotCount
  registers : storage.registers = .replicate program.registers 0

variable {storage : Storage} {program : Program}

theorem ready_prepare (storage : Storage) (program : Program) :
    (storage.prepare program).Ready program :=
  ⟨Array.size_replicate, rfl⟩

/-- An attempt in a storage that is ready begins like the first one in a new storage. -/
theorem Ready.state_resetAttempt (ready : storage.Ready program) (start : Nat) :
    storage.resetAttempt.state start = .initial program start := by
  have unset : storage.slots.map (fun _ => none) =
      (.replicate program.slotCount none : Array (Option Nat)) := by
    rw [Array.map_const', ready.slotCount]
  rw [state, resetAttempt, State.initial, unset, ready.registers]
  rfl

theorem ready_leftBy {attempt : Attempt} {start budget : Nat}
    (failed : (run attempt (.initial program start) budget).verdict = .failed) :
    (leftBy (run attempt (.initial program start) budget).state).Ready program := by
  have stores := stores_of_run_failed failed
  have slots := congrArg Prod.fst stores
  constructor
  · exact (congrArg Array.size slots).trans Array.size_replicate
  · exact congrArg Prod.snd stores

/-! ## Captures -/

theorem captures_setWhole {groups : Nat} (slotCount : storage.slots.size = 2 * (groups + 1))
    (whole : Span) : (storage.setWhole whole).captures = capturesOf storage.slots whole := by
  have count : ((storage.setWhole whole).slots.size + 1) / 2 = groups + 1 := by
    simp only [setWhole, Array.size_setIfInBounds]
    omega
  have others : storage.slots.size / 2 - 1 = groups := by omega
  rw [captures, count, capturesOf, others, List.range_succ_eq_map, List.map_cons, List.map_map]
  congr 1
  · have first : 0 < storage.slots.size := by omega
    have second : 1 < storage.slots.size := by omega
    have start : (storage.setWhole whole).slots[0]? = some (some whole.start) := by
      simp [setWhole, first]
    have stop : (storage.setWhole whole).slots[1]? = some (some whole.stop) := by
      simp [setWhole, second]
    simp only [groupSpan?, Nat.mul_zero, Nat.zero_add, start, stop]
    rfl
  · refine List.map_congr_left fun index _ => ?_
    have startOther : 0 ≠ 2 * (index + 1) ∧ 1 ≠ 2 * (index + 1) := by omega
    have stopOther : 0 ≠ 2 * (index + 1) + 1 ∧ 1 ≠ 2 * (index + 1) + 1 := by omega
    simp only [Function.comp, Nat.succ_eq_add_one, groupSpan?, setWhole,
      Array.getElem?_setIfInBounds_ne startOther.1, Array.getElem?_setIfInBounds_ne startOther.2,
      Array.getElem?_setIfInBounds_ne stopOther.1, Array.getElem?_setIfInBounds_ne stopOther.2]

end Storage

end PerlRegex.Machine
