import PerlRegex.Proofs.Interpretation
import PerlRegex.Proofs.Lines
namespace PerlRegex

/-! Searches lead forward: what a tree finds never lies in front of the path it was found from, nor
behind the end of the subject. A tree that needs at least one byte on its face takes at least
one. -/

/-- How a path that is found lies to the path it is found from, in a text of the given size. -/
structure Path.Advances (size : Nat) (origin result : Path) : Prop where
  forward : origin.position ≤ result.position
  inside : origin.position ≤ size → result.position ≤ size
  captures : result.captures.length = origin.captures.length

namespace Path.Advances

theorem refl {size : Nat} (path : Path) : Advances size path path :=
  ⟨Nat.le_refl _, id, rfl⟩

theorem trans {size : Nat} {first second third : Path} (begun : Advances size first second)
    (continued : Advances size second third) : Advances size first third where
  forward := Nat.le_trans begun.forward continued.forward
  inside := fun inside => continued.inside (begun.inside inside)
  captures := continued.captures.trans begun.captures

end Path.Advances

namespace Machine.Attempt

variable {attempt : Attempt}

/-! ## Single steps -/

theorem mem_results_searchEnd {position : Nat} {result : Path} :
    ¬ result ∈ (attempt.searchEnd position).results := by
  rw [searchEnd]
  split <;> simp

theorem mem_results_searchCharacter {accepts : Nat → Bool} {path result : Path} :
    result ∈ (attempt.searchCharacter accepts path).results ↔
      ∃ character length, attempt.characterAt path.position = some (character, length) ∧
        accepts character ∧ result = { path with position := path.position + length } := by
  rw [searchCharacter]
  cases found : attempt.characterAt path.position with
  | none => simp [mem_results_searchEnd]
  | some pair =>
      rcases pair with ⟨character, length⟩
      by_cases accepted : accepts character
      · simp only [accepted, if_true, Search.results_found, Search.results_nil,
          List.mem_singleton, Option.some.injEq, Prod.mk.injEq]
        constructor
        · intro same
          exact ⟨character, length, ⟨rfl, rfl⟩, accepted, same⟩
        · rintro ⟨_, _, ⟨rfl, rfl⟩, _, same⟩
          exact same
      · simp [accepted]

theorem mem_results_searchNotNewline {path result : Path}
    (member : result ∈ (attempt.searchNotNewline path).results) :
    result ∈ (attempt.searchCharacter (fun _ => true) path).results := by
  rw [searchNotNewline] at member
  split at member
  · simp at member
  · exact member

theorem mem_results_searchLineBreak {path result : Path} :
    result ∈ (attempt.searchLineBreak path).results ↔
      ∃ length, attempt.program.pattern.lineRules.lineBreakAt? attempt.subject path.position
          = some length ∧ result = { path with position := path.position + length } := by
  rw [searchLineBreak]
  cases attempt.program.pattern.lineRules.lineBreakAt? attempt.subject path.position with
  | none =>
      by_cases beyond : attempt.subject.size ≤ path.position <;>
        simp [beyond, mem_results_searchEnd]
  | some length => simp

theorem mem_results_searchCondition {condition : Assertion} {path result : Path} :
    result ∈ (attempt.searchCondition condition path).results ↔
      attempt.holds path.position condition ∧ result = path := by
  rw [searchCondition]
  rw [Search.results_append, List.mem_append]
  constructor
  · rintro (ended | held)
    · split at ended
      · exact absurd ended mem_results_searchEnd
      · simp at ended
    · split at held <;> simp_all
  · rintro ⟨holds, rfl⟩
    right
    simp [holds]

theorem mem_results_searchReference {groups : List Nat} {caseless : Bool} {path result : Path}
    (member : result ∈ (attempt.searchReference groups caseless path).results) :
    result = path ∨ ∃ group ∈ groups, ∃ span stop, path.captures[group]? = some (some span) ∧
      attempt.repeats span caseless path.position = .matched stop ∧
      result = { path with position := stop } := by
  rw [searchReference] at member
  split at member
  · left
    split at member <;> simp_all
  · rename_i span found
    right
    rcases List.exists_of_findSome?_eq_some found with ⟨group, groupMember, present⟩
    have captured : path.captures[group]? = some (some span) := by
      cases entry : path.captures[group]? with
      | none => simp [entry] at present
      | some value => simp_all
    cases repeated : attempt.repeats span caseless path.position with
    | matched stop =>
        rw [repeated] at member
        exact ⟨group, groupMember, span, stop, captured, repeated, by simpa using member⟩
    | differs => simp [repeated] at member
    | ranOut => simp [repeated, mem_results_searchEnd] at member

/-! ## References take what is there -/

theorem stop_of_repeatBytes {subject : Array UInt8} {count captured position stop : Nat}
    (matched : repeatBytes subject count captured position = .matched stop) :
    stop = position + count ∧ (position ≤ subject.size → stop ≤ subject.size) := by
  induction count generalizing captured position with
  | zero =>
      rw [repeatBytes] at matched
      injection matched
      omega
  | succ count induction =>
      rw [repeatBytes] at matched
      split at matched
      · simp at matched
      · rename_i byte present
        have inside : position < subject.size := (Array.getElem?_eq_some_iff.mp present).1
        split at matched
        · have rest := induction matched
          omega
        · simp at matched

theorem stop_of_repeatFolded {limit budget captured position stop : Nat}
    (matched : attempt.repeatFolded limit budget captured position = .matched stop) :
    position ≤ stop ∧ (position ≤ attempt.subject.size → stop ≤ attempt.subject.size) := by
  induction budget generalizing captured position with
  | zero =>
      rw [repeatFolded] at matched
      injection matched
      omega
  | succ budget induction =>
      rw [repeatFolded] at matched
      split at matched
      · injection matched
        omega
      · split at matched
        · simp at matched
        · simp at matched
        · rename_i expected expectedLength found foundLength present
          have bounds := length_of_characterAt present
          split at matched
          · have rest := induction matched
            omega
          · simp at matched

theorem stop_of_repeats {span : Span} {caseless : Bool} {position stop : Nat}
    (matched : attempt.repeats span caseless position = .matched stop) :
    position ≤ stop ∧ (position ≤ attempt.subject.size → stop ≤ attempt.subject.size) := by
  rw [repeats] at matched
  split at matched
  · simp at matched
  · split at matched
    · exact stop_of_repeatFolded matched
    · have taken := stop_of_repeatBytes matched
      omega

theorem le_of_back {position count start : Nat} (back : attempt.back position count = some start) :
    start ≤ position := by
  induction count generalizing position with
  | zero =>
      rw [Attempt.back] at back
      injection back with same
      exact Nat.le_of_eq same.symm
  | succ count induction =>
      rw [Attempt.back] at back
      split at back
      · simp at back
      · exact Nat.le_trans (induction back) (Nat.sub_le _ _)

theorem le_of_lookFrom {direction : LookDirection} {position start : Nat}
    (room : attempt.lookFrom direction position = some start) : start ≤ position := by
  cases direction with
  | ahead =>
      injection room with same
      exact Nat.le_of_eq same.symm
  | behind width => exact le_of_back room

theorem advances_of_character {accepts : Nat → Bool} {path result : Path}
    (member : result ∈ (attempt.searchCharacter accepts path).results) :
    path.Advances attempt.subject.size result ∧ path.position < result.position := by
  rcases mem_results_searchCharacter.mp member with ⟨character, length, found, _, rfl⟩
  have bounds := length_of_characterAt found
  exact ⟨⟨Nat.le_add_right _ _, fun _ => bounds.2, rfl⟩, Nat.lt_add_of_pos_right bounds.1⟩

theorem advances_of_lineBreak {path result : Path}
    (member : result ∈ (attempt.searchLineBreak path).results) :
    path.Advances attempt.subject.size result ∧ path.position < result.position := by
  rcases mem_results_searchLineBreak.mp member with ⟨length, found, rfl⟩
  have bounds := LineRules.lineBreakAt_length found
  exact ⟨⟨Nat.le_add_right _ _, fun _ => bounds.2, rfl⟩, Nat.lt_add_of_pos_right bounds.1⟩

theorem advances_of_reference {groups : List Nat} {caseless : Bool} {path result : Path}
    (member : result ∈ (attempt.searchReference groups caseless path).results) :
    path.Advances attempt.subject.size result := by
  rcases mem_results_searchReference member with rfl | ⟨_, _, _, stop, _, matched, rfl⟩
  · exact .refl _
  · exact ⟨(stop_of_repeats matched).1, (stop_of_repeats matched).2, rfl⟩

end Machine.Attempt

/-! ## Trees -/

namespace Node

variable {attempt : Machine.Attempt}

theorem mem_results_look {direction : LookDirection} {negated : Bool} {body : Node (List Nat)}
    {path result : Path}
    (member : result ∈ (Node.look direction negated body).results attempt path) :
    result = path ∨ ∃ start seen, attempt.lookFrom direction path.position = some start ∧
      seen ∈ body.results attempt { path with position := start } ∧
      result = { seen with position := path.position } := by
  rw [results_look] at member
  cases from? : attempt.lookFrom direction path.position with
  | none =>
      rw [from?] at member
      left
      cases negated <;> simp_all
  | some start =>
      rw [from?] at member
      cases negated with
      | true =>
          left
          dsimp only at member
          split at member <;> simp_all
      | false =>
          right
          rcases List.mem_map.mp member with ⟨seen, seenMember, rfl⟩
          exact ⟨start, seen, rfl, List.mem_of_mem_take seenMember, rfl⟩

theorem advances_of_mem_results {node : Node (List Nat)} {path result : Path}
    (member : result ∈ node.results attempt path) :
    path.Advances attempt.subject.size result := by
  induction node generalizing path result with
  | empty =>
      rw [List.mem_singleton.mp member]
      exact .refl _
  | literal | anyCharacter | charSet => exact (Machine.Attempt.advances_of_character member).1
  | notNewline =>
      exact (Machine.Attempt.advances_of_character
        (Machine.Attempt.mem_results_searchNotNewline member)).1
  | lineBreak => exact (Machine.Attempt.advances_of_lineBreak member).1
  | assertion condition =>
      rw [(Machine.Attempt.mem_results_searchCondition.mp member).2]
      exact .refl _
  | group body induction => exact induction member
  | capture number body induction =>
      rw [results_capture] at member
      rcases List.mem_map.mp member with ⟨inner, innerMember, rfl⟩
      have advances := induction innerMember
      exact ⟨advances.forward, advances.inside, by simpa [Path.close] using advances.captures⟩
  | sequence first second firstInduction secondInduction =>
      rw [results_sequence] at member
      rcases List.mem_flatMap.mp member with ⟨middle, middleMember, resultMember⟩
      exact (firstInduction middleMember).trans (secondInduction resultMember)
  | alternation first second firstInduction secondInduction =>
      rw [results_alternation] at member
      rcases List.mem_append.mp member with member | member
      · exact firstInduction member
      · exact secondInduction member
  | repetition body least greatest greedy induction =>
      rw [results_repetition] at member
      rcases List.mem_flatMap.mp member with ⟨middle, middleMember, resultMember⟩
      have related : ∀ path, ∀ result ∈ (body.interpret attempt path).results,
          path.Advances attempt.subject.size result := fun _ _ => induction
      exact (Search.related_exactly .refl .trans related _ _ middle middleMember).trans
        (Search.related_optional .refl .trans related _ _ _ _ result resultMember)
  | backreference groups caseless => exact Machine.Attempt.advances_of_reference member
  | look direction negated body induction =>
      rcases mem_results_look member with rfl | ⟨start, seen, _, seenMember, rfl⟩
      · exact .refl _
      · exact ⟨Nat.le_refl _, id, (induction seenMember).captures⟩
  | atomic body induction =>
      rw [results_atomic] at member
      exact induction (List.mem_of_mem_take member)

theorem position_lt_of_minBytes_pos {node : Node (List Nat)} {utf8 : Bool} {path result : Path}
    (positive : 0 < node.minBytes utf8) (member : result ∈ node.results attempt path) :
    path.position < result.position := by
  induction node generalizing path result with
  | empty | assertion | look | backreference => simp [minBytes] at positive
  | literal | anyCharacter | charSet => exact (Machine.Attempt.advances_of_character member).2
  | notNewline =>
      exact (Machine.Attempt.advances_of_character
        (Machine.Attempt.mem_results_searchNotNewline member)).2
  | lineBreak => exact (Machine.Attempt.advances_of_lineBreak member).2
  | group body induction => exact induction positive member
  | capture number body induction =>
      rw [results_capture] at member
      rcases List.mem_map.mp member with ⟨inner, innerMember, same⟩
      rw [← same]
      exact @induction _ inner positive innerMember
  | sequence first second firstInduction secondInduction =>
      rw [results_sequence] at member
      rcases List.mem_flatMap.mp member with ⟨middle, middleMember, resultMember⟩
      have begun := (advances_of_mem_results middleMember).forward
      have continued := (advances_of_mem_results resultMember).forward
      simp only [minBytes] at positive
      rcases Nat.eq_zero_or_pos (first.minBytes utf8) with none | some
      · have := secondInduction (by omega) resultMember
        omega
      · have := firstInduction some middleMember
        omega
  | alternation first second firstInduction secondInduction =>
      rw [results_alternation] at member
      simp only [minBytes] at positive
      rcases List.mem_append.mp member with member | member
      · exact firstInduction (by omega) member
      · exact secondInduction (by omega) member
  | repetition body least greatest greedy induction =>
      simp only [minBytes] at positive
      have bodyPositive : 0 < body.minBytes utf8 := Nat.pos_of_mul_pos_right positive
      have related : ∀ path, ∀ result ∈ (body.interpret attempt path).results,
          path.Advances attempt.subject.size result := fun _ _ => advances_of_mem_results
      -- The first mandatory copy takes a byte, and nothing that follows goes back.
      rcases Nat.exists_eq_add_one.mpr (Nat.pos_of_mul_pos_left positive) with ⟨count, rfl⟩
      rw [results_repetition, Search.exactly, Search.results_andThen] at member
      rcases List.mem_flatMap.mp member with ⟨last, lastMember, resultMember⟩
      rcases List.mem_flatMap.mp lastMember with ⟨middle, middleMember, lastMember⟩
      have begun := induction bodyPositive middleMember
      have copied := Search.related_exactly .refl .trans related _ _ last lastMember
      have continued := Search.related_optional .refl .trans related _ _ _ _ result resultMember
      exact Nat.lt_of_lt_of_le begun (Nat.le_trans copied.forward continued.forward)
  | atomic body induction =>
      rw [results_atomic] at member
      exact induction positive (List.mem_of_mem_take member)

end Node

end PerlRegex
