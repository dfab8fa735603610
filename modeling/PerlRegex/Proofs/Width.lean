import PerlRegex.Proofs.Between

/-! Walking over a subject character by character, and trees of a fixed width. What such a tree
matches is as many characters long as its width says. Between the characters of a well-formed
subject walking back is the converse of walking on. -/

namespace PerlRegex

namespace Machine.Attempt

def forward (attempt : Attempt) (position : Nat) : (count : Nat) → Option Nat
  | 0 => some position
  | count + 1 =>
      match attempt.characterAt position with
      | none => none
      | some (_, length) => attempt.forward (position + length) count

variable {attempt : Attempt} {position : Nat}

theorem forward_add (first second : Nat) :
    attempt.forward position (first + second) =
      (attempt.forward position first).bind (attempt.forward · second) := by
  induction first generalizing position with
  | zero =>
      rw [Nat.zero_add]
      rfl
  | succ first induction =>
      rw [Nat.succ_add, forward, forward]
      cases attempt.characterAt position with
      | none => rfl
      | some character => exact induction

theorem forward_one {character length : Nat}
    (found : attempt.characterAt position = some (character, length)) :
    attempt.forward position 1 = some (position + length) := by
  rw [forward, found]
  rfl

theorem forward_trans {first second middle stop : Nat}
    (begun : attempt.forward position first = some middle)
    (continued : attempt.forward middle second = some stop) :
    attempt.forward position (first + second) = some stop := by
  rw [forward_add, begun]
  exact continued

/-! ## Forward and back -/

theorem Between.characterAt_of_characterBefore (between : attempt.Between position)
    {character length : Nat}
    (found : attempt.characterBefore position = some (character, length)) :
    attempt.characterAt (position - length) = some (character, length)
      ∧ position - length + length = position := by
  rw [Attempt.characterBefore] at found
  split at found
  · rename_i utf8
    have positive := Utf8.length_of_decodeBefore found
    rcases (between utf8).exists_before (by omega) with
      ⟨codePoint, size, decodedBefore, decodedAt, inside, _⟩
    rw [decodedBefore] at found
    injection found with same
    injection same with same sizeSame
    rw [Attempt.characterAt, if_pos utf8, ← same, ← sizeSame]
    exact ⟨decodedAt, Nat.sub_add_cancel inside⟩
  · rename_i narrow
    split at found
    · cases found
    · rcases Option.map_eq_some_iff.mp found with ⟨byte, present, same⟩
      injection same with same sizeSame
      rw [Attempt.characterAt, if_neg narrow, ← sizeSame, present, ← same]
      exact ⟨rfl, Nat.sub_add_cancel (by omega)⟩

theorem Between.characterBefore_of_characterAt (between : attempt.Between position)
    {character length : Nat}
    (found : attempt.characterAt position = some (character, length)) :
    attempt.characterBefore (position + length) = some (character, length) := by
  have inside := length_of_characterAt found
  rw [Attempt.characterAt] at found
  rw [Attempt.characterBefore]
  split at found
  · rename_i utf8
    rw [if_pos utf8]
    exact (between utf8).decodeBefore_of_decodeAt found
  · rename_i narrow
    rcases Option.map_eq_some_iff.mp found with ⟨byte, present, same⟩
    injection same with same sizeSame
    rw [if_neg narrow, ← sizeSame, if_neg (Nat.succ_ne_zero position), Nat.add_sub_cancel,
      present, ← same]
    rfl

theorem Between.forward_of_back (between : attempt.Between position) {count start : Nat}
    (reached : attempt.back position count = some start) :
    attempt.forward start count = some position := by
  induction count generalizing position with
  | zero =>
      injection reached with same
      rw [same]
      rfl
  | succ count induction =>
      rw [Attempt.back] at reached
      split at reached
      · cases reached
      · rename_i character length found
        have begun := induction (between.characterBefore found) reached
        rcases between.characterAt_of_characterBefore found with ⟨foundAt, same⟩
        have continued := forward_one foundAt
        rw [same] at continued
        exact forward_trans begun continued

theorem back_succ {count : Nat} :
    attempt.back position (count + 1) =
      (attempt.back position count).bind (attempt.back · 1) := by
  induction count generalizing position with
  | zero => rfl
  | succ count induction =>
      rw [Attempt.back]
      cases found : attempt.characterBefore position with
      | none =>
          rw [Attempt.back, found]
          rfl
      | some character =>
          dsimp only
          rw [induction, Attempt.back, found]

theorem Between.back_of_forward (between : attempt.Between position) {count stop : Nat}
    (reached : attempt.forward position count = some stop) :
    attempt.back stop count = some position := by
  induction count generalizing position with
  | zero =>
      injection reached with same
      rw [same]
      rfl
  | succ count induction =>
      rw [Attempt.forward] at reached
      split at reached
      · cases reached
      · rename_i character length found
        rw [Attempt.back_succ, induction (between.characterAt found) reached, Option.bind_some,
          Attempt.back, between.characterBefore_of_characterAt found]
        dsimp only
        rw [Nat.add_sub_cancel]
        rfl

end Machine.Attempt

/-! ## Trees of a fixed width -/

namespace Node

open Machine (Attempt)

theorem eq_of_boundedWidth {width bounded : Nat} (measured : boundedWidth width = some bounded) :
    bounded = width := by
  rw [boundedWidth] at measured
  split at measured
  · injection measured with same
    exact same.symm
  · cases measured

section

variable {attempt : Attempt} {path result : Path}

theorem forward_of_searchCharacter {accepts : Nat → Bool}
    (member : result ∈ (attempt.searchCharacter accepts path).results) :
    attempt.forward path.position 1 = some result.position := by
  rcases Attempt.mem_results_searchCharacter.mp member with ⟨_, _, found, _, rfl⟩
  exact Attempt.forward_one found

theorem forward_of_exactly {body : Path → Search} {width : Nat}
    (takes : ∀ path, ∀ result ∈ (body path).results,
      attempt.forward path.position width = some result.position) {count : Nat}
    (member : result ∈ (Search.exactly body count path).results) :
    attempt.forward path.position (width * count) = some result.position := by
  induction count generalizing path with
  | zero =>
      rw [List.mem_singleton.mp member]
      rfl
  | succ count induction =>
      rw [Search.exactly, Search.results_andThen] at member
      rcases List.mem_flatMap.mp member with ⟨middle, middleMember, resultMember⟩
      rw [Nat.mul_succ, Nat.add_comm]
      exact Attempt.forward_trans (takes path middle middleMember) (induction resultMember)

theorem forward_of_mem_results {node : Node (List Nat)} {width : Nat}
    (measured : node.fixedWidth? = some width) (member : result ∈ node.results attempt path) :
    attempt.forward path.position width = some result.position := by
  induction node generalizing path result width with
  | empty =>
      cases measured
      rw [List.mem_singleton.mp member]
      rfl
  | literal | anyCharacter | charSet =>
      cases measured
      exact forward_of_searchCharacter member
  | notNewline =>
      cases measured
      exact forward_of_searchCharacter (Attempt.mem_results_searchNotNewline member)
  | lineBreak | backreference => cases measured
  | assertion condition =>
      cases measured
      rw [(Attempt.mem_results_searchCondition.mp member).2]
      rfl
  | group body induction => exact induction measured member
  | capture number body induction =>
      rw [results_capture] at member
      rcases List.mem_map.mp member with ⟨inner, innerMember, rfl⟩
      have there : attempt.forward path.position width = some inner.position :=
        induction measured innerMember
      exact there
  | sequence first second firstInduction secondInduction =>
      rcases Option.bind_eq_some_iff.mp measured with ⟨firstWidth, firstMeasured, rest⟩
      rcases Option.bind_eq_some_iff.mp rest with ⟨secondWidth, secondMeasured, sum⟩
      rw [results_sequence] at member
      rcases List.mem_flatMap.mp member with ⟨middle, middleMember, resultMember⟩
      rw [eq_of_boundedWidth sum]
      exact Attempt.forward_trans (firstInduction firstMeasured middleMember)
        (secondInduction secondMeasured resultMember)
  | alternation first second firstInduction secondInduction =>
      rcases Option.bind_eq_some_iff.mp measured with ⟨firstWidth, firstMeasured, rest⟩
      rcases Option.bind_eq_some_iff.mp rest with ⟨secondWidth, secondMeasured, same⟩
      split at same
      · rename_i equal
        injection same with same
        rw [results_alternation] at member
        rcases List.mem_append.mp member with member | member
        · exact firstInduction (same ▸ firstMeasured) member
        · exact secondInduction (same ▸ equal ▸ secondMeasured) member
      · cases same
  | repetition body least greatest greedy induction =>
      rw [fixedWidth?] at measured
      split at measured
      · rename_i counted
        rcases Option.bind_eq_some_iff.mp measured with ⟨bodyWidth, bodyMeasured, product⟩
        rw [results_repetition] at member
        rcases List.mem_flatMap.mp member with ⟨middle, middleMember, resultMember⟩
        -- No optional copies are left behind the counted ones.
        have last : result = middle := by
          rw [counted, Option.map_some, Nat.sub_self] at resultMember
          exact List.mem_singleton.mp resultMember
        rw [last, eq_of_boundedWidth product]
        exact forward_of_exactly (fun path result => induction bodyMeasured) middleMember
      · cases measured
  | look direction negated body induction =>
      cases measured
      rcases mem_results_look member with rfl | ⟨start, seen, room, seenMember, rfl⟩
      · rfl
      · rfl
  | atomic body induction =>
      rw [results_atomic] at member
      exact induction measured (List.mem_of_mem_take member)

end

end Node

end PerlRegex
