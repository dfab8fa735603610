import PerlRegex.Proofs.Between
namespace PerlRegex

/-! In a well-formed subject every match is as long as its tree says at least. -/

namespace Machine.Attempt

variable {attempt : Attempt}

theorem length_of_scalar {position character length : Nat} (utf8 : attempt.program.utf8 = true)
    (between : attempt.Between position)
    (found : attempt.characterAt position = some (character, length)) :
    length = Utf8.encodedLength character := by
  have inside := length_of_characterAt found
  rw [characterAt, if_pos utf8] at found
  rcases (between utf8).decodeAt (by omega) with ⟨_, _, _, encodes, _, decoded, _⟩
  rw [decoded] at found
  injection found with same
  injection same with sameCharacter sameLength
  rw [← sameLength, ← sameCharacter, encodes.length]

end Machine.Attempt

namespace Node

variable {attempt : Machine.Attempt}

theorem minBytes_literal_le {character : Nat} {caseless : Bool} {path result : Path}
    (between : path.All attempt.Between)
    (member : result ∈ (Node.literal character caseless).results attempt path) :
    path.position + (Node.literal character caseless : Node (List Nat)).minBytes
      attempt.program.utf8 ≤ result.position := by
  rcases Machine.Attempt.mem_results_searchCharacter.mp member with
    ⟨other, length, found, accepted, rfl⟩
  have positive := (Machine.Attempt.length_of_characterAt found).1
  rw [minBytes]
  split
  · rename_i strict
    rw [Bool.and_eq_true, Bool.and_eq_true, Bool.not_eq_true'] at strict
    rcases strict with ⟨⟨utf8, caseful⟩, _⟩
    have same : other = character := by simpa [literalAccepts, caseful] using accepted
    have taken := Machine.Attempt.length_of_scalar utf8 between.position found
    rw [same] at taken
    exact Nat.le_of_eq (congrArg (path.position + ·) taken.symm)
  · exact Nat.add_le_add_left positive _

section Copies

variable {body : Node (List Nat)}
  (lines : attempt.program.pattern.lineRules.utf8 = attempt.program.utf8)
  (least : ∀ {path result : Path}, path.All attempt.Between → result ∈ body.results attempt path →
    path.position + body.minBytes attempt.program.utf8 ≤ result.position)
include lines least

theorem minBytes_exactly_le {count : Nat} {path result : Path} (between : path.All attempt.Between)
    (member : result ∈ (Search.exactly (body.interpret attempt) count path).results) :
    path.position + body.minBytes attempt.program.utf8 * count ≤ result.position := by
  induction count generalizing path with
  | zero =>
      rw [Search.exactly] at member
      rw [List.mem_singleton.mp member]
      exact Nat.le_refl _
  | succ count induction =>
      rw [Search.exactly, Search.results_andThen] at member
      rcases List.mem_flatMap.mp member with ⟨middle, middleMember, resultMember⟩
      have first := least between middleMember
      have middleBetween :=
        all_of_mem_results (Machine.Attempt.keeps_between lines) between middleMember
      have rest := induction middleBetween resultMember
      rw [Nat.mul_succ]
      omega

end Copies

theorem minBytes_le (lines : attempt.program.pattern.lineRules.utf8 = attempt.program.utf8)
    {node : Node (List Nat)} {path result : Path} (between : path.All attempt.Between)
    (member : result ∈ node.results attempt path) :
    path.position + node.minBytes attempt.program.utf8 ≤ result.position := by
  induction node generalizing path result with
  | empty | assertion | look | backreference => exact (advances_of_mem_results member).forward
  | literal => exact minBytes_literal_le between member
  | anyCharacter | charSet => exact (Machine.Attempt.advances_of_character member).2
  | notNewline =>
      exact (Machine.Attempt.advances_of_character
        (Machine.Attempt.mem_results_searchNotNewline member)).2
  | lineBreak => exact (Machine.Attempt.advances_of_lineBreak member).2
  | group body induction => exact induction between member
  | capture number body induction =>
      rw [results_capture] at member
      rcases List.mem_map.mp member with ⟨inner, innerMember, rfl⟩
      have inside := induction between innerMember
      exact inside
  | sequence first second firstInduction secondInduction =>
      rw [results_sequence] at member
      rcases List.mem_flatMap.mp member with ⟨middle, middleMember, resultMember⟩
      have begun := firstInduction between middleMember
      have middleBetween :=
        all_of_mem_results (Machine.Attempt.keeps_between lines) between middleMember
      have continued := secondInduction middleBetween resultMember
      rw [minBytes]
      omega
  | alternation first second firstInduction secondInduction =>
      rw [results_alternation] at member
      rw [minBytes]
      rcases List.mem_append.mp member with member | member
      · have := firstInduction between member
        omega
      · have := secondInduction between member
        omega
  | repetition body least greatest greedy induction =>
      rw [results_repetition] at member
      rcases List.mem_flatMap.mp member with ⟨middle, middleMember, resultMember⟩
      have mandatory := minBytes_exactly_le lines induction between middleMember
      have related : ∀ path, ∀ result ∈ (body.interpret attempt path).results,
          path.Advances attempt.subject.size result := fun _ _ => advances_of_mem_results
      have onward := Search.related_optional .refl .trans related _ _ _ _ result resultMember
      exact Nat.le_trans mandatory onward.forward
  | atomic body induction =>
      rw [results_atomic] at member
      exact induction between (List.mem_of_mem_take member)

end Node

end PerlRegex
