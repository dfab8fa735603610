import PerlRegex.Unicode.ToLowercase
import PerlRegex.Unicode.ToUppercase
namespace PerlRegex.Unicode

/-! Case mappings looked at run by run. Whether one mapping takes back what another one does is a
question about a few hundred runs, where there are thousands of code points. -/

/-! ## Runs -/

def CaseRun.Holds (run : CaseRun) (codePoint : Nat) : Prop :=
  run.first ≤ codePoint ∧ codePoint ≤ run.last ∧ (codePoint - run.first) % run.step = 0

/-- The run that another run moves to, with the way back. -/
def CaseRun.image (run : CaseRun) : CaseRun where
  first := run.target
  last := run.target + (run.last - run.first)
  step := run.step
  target := run.first

theorem CaseRun.Holds.image {run : CaseRun} {codePoint : Nat} (holds : run.Holds codePoint) :
    run.image.Holds (run.target + (codePoint - run.first)) := by
  rcases holds with ⟨from_, upTo, onStep⟩
  refine ⟨Nat.le_add_right _ _, ?_, ?_⟩
  · exact Nat.add_le_add_left (Nat.sub_le_sub_right upTo run.first) run.target
  · rw [CaseRun.image, Nat.add_sub_cancel_left]
    exact onStep

def CaseRun.codePoints (run : CaseRun) : List Nat :=
  List.range' run.first ((run.last - run.first) / run.step + 1) run.step

theorem CaseRun.Holds.mem_codePoints {run : CaseRun} {codePoint : Nat}
    (holds : run.Holds codePoint) : codePoint ∈ run.codePoints := by
  rcases holds with ⟨from_, upTo, onStep⟩
  have division := Nat.div_add_mod (codePoint - run.first) run.step
  refine List.mem_range'.mpr ⟨(codePoint - run.first) / run.step, ?_, by omega⟩
  exact Nat.lt_succ_of_le (Nat.div_le_div_right (Nat.sub_le_sub_right upTo run.first))

namespace CaseMap

theorem exists_run_of_find? {map : CaseMap} {codePoint target : Nat}
    (found : map.find? codePoint = some target) :
    ∃ run ∈ map.runs, run.Holds codePoint ∧ target = run.target + (codePoint - run.first) := by
  induction map with
  | empty => cases found
  | node below run above belowInduction aboveInduction =>
      rw [find?] at found
      split at found
      · rcases belowInduction found with ⟨run, member, holds⟩
        exact ⟨run, List.mem_append_left _ member, holds⟩
      · split at found
        · rcases aboveInduction found with ⟨run, member, holds⟩
          exact ⟨run, List.mem_append_right _ (List.mem_cons_of_mem _ member), holds⟩
        · split at found
          · rename_i onStep
            injection found with same
            exact ⟨run, List.mem_append_right _ List.mem_cons_self,
              ⟨by omega, by omega, onStep⟩, same.symm⟩
          · cases found

/-! ## Looking up whole runs -/

/-- Where a mapping moves the code points of a run, if it moves all of them by the same distance or
none of them, and if that can be told from its runs alone. -/
def findRun? : CaseMap → CaseRun → Option (Option Nat)
  | .empty, _ => some none
  | .node below run above, moved =>
      if moved.last < run.first then below.findRun? moved
      else if run.first ≤ moved.first ∧ run.last < moved.first then above.findRun? moved
      else if run.first ≤ moved.first ∧ moved.last ≤ run.last ∧ moved.step % run.step = 0 then
        if (moved.first - run.first) % run.step = 0 then
          some (some (run.target + (moved.first - run.first)))
        else some none
      else if moved.step = 2 ∧ run.step = 2 ∧ (moved.first + run.first) % 2 = 1
          ∧ below.findRun? moved = some none ∧ above.findRun? moved = some none then
        some none
      else none

theorem find?_of_findRun? {map : CaseMap} {run : CaseRun} {answer : Option Nat}
    (found : map.findRun? run = some answer) {codePoint : Nat} (holds : run.Holds codePoint) :
    map.find? codePoint = answer.map (· + (codePoint - run.first)) := by
  have within := holds
  rcases within with ⟨from_, upTo, onStep⟩
  induction map generalizing answer with
  | empty =>
      cases found
      rfl
  | node below other above belowInduction aboveInduction =>
      rw [findRun?] at found
      rw [find?]
      split at found
      · rw [if_pos (by omega)]
        exact belowInduction found
      split at found
      · rw [if_neg (by omega), if_pos (by omega)]
        exact aboveInduction found
      split at found
      · rename_i inside
        have distance : codePoint - other.first =
            (run.first - other.first) + (codePoint - run.first) := by omega
        have between : (codePoint - run.first) % other.step = 0 := by
          apply Nat.mod_eq_zero_of_dvd
          exact Nat.dvd_trans (Nat.dvd_of_mod_eq_zero inside.2.2) (Nat.dvd_of_mod_eq_zero onStep)
        have sameRest : (codePoint - other.first) % other.step =
            (run.first - other.first) % other.step := by
          rw [distance, Nat.add_mod, between, Nat.add_zero, Nat.mod_mod]
        rw [if_neg (by omega), if_neg (by omega), sameRest]
        split at found
        · rename_i aligned
          cases found
          rw [if_pos aligned, distance, Option.map_some, Nat.add_assoc]
        · rename_i apart
          cases found
          rw [if_neg apart]
          rfl
      split at found
      · rename_i apart
        rcases apart with ⟨twoSteps, otherTwoSteps, oddDistance, nothingBelow, nothingAbove⟩
        cases found
        rw [belowInduction nothingBelow, aboveInduction nothingAbove]
        rw [twoSteps] at onStep
        rw [otherTwoSteps]
        split
        · rfl
        · split
          · rfl
          · rw [if_neg (by omega)]
            rfl
      · cases found

/-! ## Mappings that take each other back -/

/-- `back` leads back from where `forth` moves a code point, and neither of them moves on from where
the other one leads. -/
structure Undoes (back forth : CaseMap) (codePoint target : Nat) : Prop where
  returns : back.find? target = some codePoint
  starts : back.find? codePoint = none
  ends : forth.find? target = none

theorem Undoes.ne {back forth : CaseMap} {codePoint target : Nat}
    (undoes : back.Undoes forth codePoint target) : target ≠ codePoint := by
  rintro rfl
  have returns := undoes.returns
  rw [undoes.starts] at returns
  cases returns

/-- Whether `back` undoes what `forth` does on a run, some code points excepted. Where that cannot
be told for the run as a whole, its code points are looked at one by one. -/
def undoesRun (back forth : CaseMap) (excepted : Nat → Bool) (run : CaseRun) : Bool :=
  (back.findRun? run.image == some (some run.first) && back.findRun? run == some none
      && forth.findRun? run.image == some none)
    || run.codePoints.all fun codePoint =>
      excepted codePoint
        || (back.find? (run.target + (codePoint - run.first)) == some codePoint
          && back.find? codePoint == none
          && forth.find? (run.target + (codePoint - run.first)) == none)

theorem undoes_of_find? {back forth : CaseMap} {excepted : Nat → Bool}
    (undone : (forth.runs.all (back.undoesRun forth excepted)) = true) {codePoint target : Nat}
    (regular : excepted codePoint = false) (found : forth.find? codePoint = some target) :
    back.Undoes forth codePoint target := by
  rcases exists_run_of_find? found with ⟨run, member, holds, same⟩
  have checked := List.all_eq_true.mp undone run member
  simp only [undoesRun, Bool.or_eq_true, Bool.and_eq_true, beq_iff_eq, List.all_eq_true]
    at checked
  rw [same]
  rcases checked with ⟨⟨returns, starts⟩, ends⟩ | pointwise
  · constructor
    · rw [find?_of_findRun? returns holds.image, Option.map_some]
      congr 1
      have := holds.1
      simp only [CaseRun.image]
      omega
    · exact find?_of_findRun? starts holds
    · exact find?_of_findRun? ends holds.image
  · rcases pointwise codePoint holds.mem_codePoints with except | ⟨⟨returns, starts⟩, ends⟩
    · rw [regular] at except
      cases except
    · exact ⟨returns, starts, ends⟩

end CaseMap

end PerlRegex.Unicode
