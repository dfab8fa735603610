import PerlRegex.Proofs.Advancing
namespace PerlRegex

/-! Conditions on positions that searches keep. If single steps lead from positions that satisfy a
condition to such positions, then so do whole trees, and all groups begin and end at them. -/

/-- Single steps lead from positions that satisfy a condition to such positions. -/
structure Machine.Attempt.Keeps (attempt : Machine.Attempt) (holds : Nat → Prop) : Prop where
  character : ∀ {position character length}, holds position →
    attempt.characterAt position = some (character, length) → holds (position + length)
  lineBreak : ∀ {position length}, holds position →
    attempt.program.pattern.lineRules.lineBreakAt? attempt.subject position = some length →
    holds (position + length)
  look : ∀ {position direction start}, holds position →
    attempt.lookFrom direction position = some start → holds start
  reference : ∀ {position span caseless stop}, holds position → holds span.start →
    holds span.stop → attempt.repeats span caseless position = .matched stop → holds stop

/-- The position of a path satisfies a condition, and so do the ends of all its spans. -/
structure Path.All (holds : Nat → Prop) (path : Path) : Prop where
  position : holds path.position
  start : ∀ span, some span ∈ path.captures → holds span.start
  stop : ∀ span, some span ∈ path.captures → holds span.stop

namespace Path.All

variable {holds : Nat → Prop} {path : Path}

theorem of_unset {position groups : Nat} (there : holds position) :
    All holds ⟨position, .replicate groups none⟩ where
  position := there
  start := fun span member => by cases List.eq_of_mem_replicate member
  stop := fun span member => by cases List.eq_of_mem_replicate member

theorem move (all : path.All holds) {position : Nat} (there : holds position) :
    All holds { path with position := position } :=
  { all with position := there }

theorem close (all : path.All holds) {number start : Nat} (startHolds : holds start) :
    (path.close number start).All holds where
  position := all.position
  start := by
    intro span member
    rcases List.mem_or_eq_of_mem_set member with member | same
    · exact all.start span member
    · injection same with same
      exact same ▸ startHolds
  stop := by
    intro span member
    rcases List.mem_or_eq_of_mem_set member with member | same
    · exact all.stop span member
    · injection same with same
      exact same ▸ all.position

end Path.All

namespace Node

variable {attempt : Machine.Attempt} {holds : Nat → Prop} (keeps : attempt.Keeps holds)
include keeps

theorem all_of_searchCharacter {accepts : Nat → Bool} {path result : Path}
    (all : path.All holds) (member : result ∈ (attempt.searchCharacter accepts path).results) :
    result.All holds := by
  rcases Machine.Attempt.mem_results_searchCharacter.mp member with ⟨_, _, found, _, rfl⟩
  exact all.move (keeps.character all.position found)

theorem all_of_mem_results {node : Node (List Nat)} {path result : Path} (all : path.All holds)
    (member : result ∈ node.results attempt path) : result.All holds := by
  induction node generalizing path result with
  | empty =>
      rw [List.mem_singleton.mp member]
      exact all
  | literal | anyCharacter | charSet => exact all_of_searchCharacter keeps all member
  | notNewline =>
      exact all_of_searchCharacter keeps all (Machine.Attempt.mem_results_searchNotNewline member)
  | lineBreak =>
      rcases Machine.Attempt.mem_results_searchLineBreak.mp member with ⟨_, found, rfl⟩
      exact all.move (keeps.lineBreak all.position found)
  | assertion condition =>
      rw [(Machine.Attempt.mem_results_searchCondition.mp member).2]
      exact all
  | group body induction => exact induction all member
  | capture number body induction =>
      rw [results_capture] at member
      rcases List.mem_map.mp member with ⟨inner, innerMember, rfl⟩
      exact (induction all innerMember).close all.position
  | sequence first second firstInduction secondInduction =>
      rw [results_sequence] at member
      rcases List.mem_flatMap.mp member with ⟨middle, middleMember, resultMember⟩
      exact secondInduction (firstInduction all middleMember) resultMember
  | alternation first second firstInduction secondInduction =>
      rw [results_alternation] at member
      rcases List.mem_append.mp member with member | member
      · exact firstInduction all member
      · exact secondInduction all member
  | repetition body least greatest greedy induction =>
      let kept : Path → Path → Prop := fun path result => path.All holds → result.All holds
      have refl : ∀ path, kept path path := fun _ => id
      have trans : ∀ {first second third}, kept first second → kept second third →
          kept first third := fun begun continued all => continued (begun all)
      have bodyKeeps : ∀ path, ∀ result ∈ (body.interpret attempt path).results,
          kept path result := fun _ _ member all => induction all member
      rw [results_repetition] at member
      rcases List.mem_flatMap.mp member with ⟨middle, middleMember, resultMember⟩
      have mandatory : kept path middle :=
        Search.related_exactly refl trans bodyKeeps _ _ middle middleMember
      have optional : kept middle result :=
        Search.related_optional refl trans bodyKeeps _ _ _ _ result resultMember
      exact optional (mandatory all)
  | backreference groups caseless =>
      rcases Machine.Attempt.mem_results_searchReference member with
        rfl | ⟨group, _, span, stop, captured, matched, rfl⟩
      · exact all
      · have listed := List.mem_of_getElem? captured
        exact all.move
          (keeps.reference all.position (all.start span listed) (all.stop span listed) matched)
  | look direction negated body induction =>
      rcases mem_results_look member with rfl | ⟨start, seen, room, seenMember, rfl⟩
      · exact all
      · have inner := induction (all.move (keeps.look all.position room)) seenMember
        exact inner.move all.position
  | atomic body induction =>
      rw [results_atomic] at member
      exact induction all (List.mem_of_mem_take member)

end Node

theorem Machine.Attempt.keeps_inside (attempt : Machine.Attempt) :
    attempt.Keeps (· ≤ attempt.subject.size) where
  character := fun _ found => (length_of_characterAt found).2
  lineBreak := fun _ found => (LineRules.lineBreakAt_length found).2
  look := fun inside room => Nat.le_trans (le_of_lookFrom room) inside
  reference := fun inside _ _ matched => (stop_of_repeats matched).2 inside

end PerlRegex
