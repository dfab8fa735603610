import PerlRegex.Proofs.Between
import PerlRegex.Proofs.CaseFolding
import PerlRegex.Study
namespace PerlRegex

/-! A match that is not empty begins with a byte that its tree can begin with, unless it begins with
a malformed sequence that stands for another character. -/

namespace Machine.Attempt

variable {attempt : Attempt} {position : Nat}

/-- The character at a position is a byte that stands for itself, or begins as its own encoding
does. -/
def ProperAt (attempt : Attempt) (position : Nat) : Prop :=
  ∀ character length, attempt.characterAt position = some (character, length) →
    ∃ byte, attempt.subject[position]? = some byte
      ∧ (length = 1 ∧ byte.toNat = character
        ∨ attempt.program.utf8 = true ∧ Utf8.isScalar character = true
          ∧ (Utf8.encode character).head? = some byte)

theorem properAt_of_between (between : attempt.Between position) : attempt.ProperAt position := by
  intro character length found
  have inside := length_of_characterAt found
  rw [characterAt] at found
  split at found
  · rename_i utf8
    rcases (between utf8).decodeAt (by omega) with
      ⟨codePoint, lead, tail, encodes, present, decoded, _⟩
    rw [decoded] at found
    injection found with same
    injection same with same _
    exact ⟨lead, present, .inr ⟨utf8, same ▸ encodes.scalar, by rw [← same, encodes.encode]; rfl⟩⟩
  · rcases Option.map_eq_some_iff.mp found with ⟨byte, present, same⟩
    injection same with same sameLength
    exact ⟨byte, present, .inl ⟨sameLength.symm, same⟩⟩

end Machine.Attempt

namespace Node

/-! ## Characters -/

section Characters

variable {utf8 : Bool} {byte : UInt8} {character : Nat}

theorem characterMayBeginWith_self (same : byte.toNat = character) :
    characterMayBeginWith utf8 byte character = true := by
  rw [characterMayBeginWith]
  split
  · have small := byte.toNat_lt
    by_cases ascii : character < 0x80
    · have scalar : Utf8.isScalar character = true := Utf8.isScalar_iff.mpr (.inl (by omega))
      have encoded : Utf8.encode character = [byte] := by
        rw [Utf8.encode, if_neg (by simp [scalar]), Utf8.encodedLength, if_pos ascii, ← same]
        simp
      rw [encoded]
      simp
    · simp [same]
      omega
  · simp [same]

theorem characterMayBeginWith_encode (isUtf8 : utf8 = true)
    (begins : (Utf8.encode character).head? = some byte) :
    characterMayBeginWith utf8 byte character = true := by
  rw [characterMayBeginWith, if_pos isUtf8, begins]
  simp

theorem lt_of_head_encode (scalar : Utf8.isScalar character = true)
    (begins : (Utf8.encode character).head? = some byte) :
    byte.toNat = character ∨ 0x80 ≤ byte.toNat ∧ 0x80 ≤ character := by
  rcases Utf8.encodes_of_isScalar scalar with ⟨lead, tail, encodes⟩
  rw [encodes.encode] at begins
  injection begins with same
  rw [← same]
  by_cases alone : tail = []
  · exact .inl (encodes.single alone)
  · have announced := encodes.announced
    have positive := List.length_pos_iff.mpr alone
    have length := encodes.length
    refine .inr ⟨?_, ?_⟩
    · rw [Utf8.announcedLength_eq] at announced
      repeat' split at announced
      all_goals omega
    · rw [Utf8.encodedLength] at length
      split at length <;> omega

theorem not_contains_of_isAsciiOnly {set : CharSet} {ucp : Bool} (ascii : set.isAsciiOnly = true)
    (beyond : 0x80 ≤ character) : set.contains ucp character = false := by
  simp only [CharSet.isAsciiOnly, Bool.and_eq_true, Bool.not_eq_true', List.all_eq_true] at ascii
  rcases ascii with ⟨⟨notNegated, caseful⟩, items⟩
  rw [CharSet.contains, notNegated, caseful, Bool.false_and, Bool.or_false, Bool.bne_false,
    CharSet.containsExactly, List.any_eq_false]
  intro item member
  have bounded := items item member
  cases item with
  | range first last =>
      simp only [decide_eq_true_eq] at bounded
      simp [CharSetItem.contains]
      omega
  | _ => simp at bounded

theorem charSetMayBeginWith_of_contains {set : CharSet} {ucp : Bool}
    (contained : set.contains ucp character = true)
    (begins : byte.toNat = character ∨ utf8 = true ∧ 0x80 ≤ byte.toNat ∧ 0x80 ≤ character) :
    charSetMayBeginWith utf8 byte set = true := by
  have eitherReading : byte.toNat = character →
      (set.contains true byte.toNat || set.contains false byte.toNat) = true := by
    intro same
    rw [same]
    cases ucp <;> simp [contained]
  have notAscii : 0x80 ≤ character → set.isAsciiOnly = false := by
    intro beyond
    apply Bool.eq_false_iff.mpr
    intro ascii
    rw [not_contains_of_isAsciiOnly ascii beyond] at contained
    cases contained
  rw [charSetMayBeginWith]
  split
  · rename_i wide
    rw [Bool.and_eq_true, decide_eq_true_eq, UInt8.le_iff_toNat_le] at wide
    have beyond : 0x80 ≤ byte.toNat := wide.2
    rw [notAscii (by rcases begins with same | ⟨_, _, beyond⟩ <;> omega)]
    rfl
  · rename_i narrow
    rcases begins with same | ⟨isUtf8, beyond, _⟩
    · exact eitherReading same
    · refine absurd ?_ narrow
      rw [isUtf8, Bool.true_and, decide_eq_true_eq, UInt8.le_iff_toNat_le]
      exact beyond

end Characters

/-! ## Trees -/

variable {attempt : Machine.Attempt} {path result : Path}

/-- The byte at a position is one that a match of the tree can begin with. -/
def BeginsAt (attempt : Machine.Attempt) (node : Node (List Nat)) (position : Nat) : Prop :=
  ∃ byte, attempt.subject[position]? = some byte
    ∧ node.mayBeginWith attempt.program.utf8 byte = true

theorem beginsAt_literal {character : Nat} {caseless : Bool}
    (proper : attempt.ProperAt path.position)
    (member : result ∈ (Node.literal character caseless).results attempt path) :
    (Node.literal character caseless).BeginsAt attempt path.position := by
  rcases Machine.Attempt.mem_results_searchCharacter.mp member with
    ⟨other, length, found, accepted, _⟩
  rcases proper other length found with ⟨byte, present, begins⟩
  refine ⟨byte, present, ?_⟩
  have variant : other ∈ if caseless then CaseFolding.variants character else [character] := by
    simp only [literalAccepts, Bool.or_eq_true, beq_iff_eq, Bool.and_eq_true] at accepted
    rcases accepted with same | ⟨⟨caseless, variant⟩, _⟩
    · rw [same]
      split
      · exact CaseFolding.mem_variants_self character
      · exact List.mem_singleton_self character
    · rw [if_pos caseless]
      exact List.contains_iff_mem.mp variant
  rw [mayBeginWith]
  refine List.any_eq_true.mpr ⟨other, variant, ?_⟩
  rcases begins with ⟨_, same⟩ | ⟨utf8, _, begins⟩
  · exact characterMayBeginWith_self same
  · exact characterMayBeginWith_encode utf8 begins

theorem beginsAt_charSet {set : CharSet} (proper : attempt.ProperAt path.position)
    (member : result ∈ (Node.charSet set).results attempt path) :
    (Node.charSet set).BeginsAt attempt path.position := by
  rcases Machine.Attempt.mem_results_searchCharacter.mp member with
    ⟨other, length, found, contained, _⟩
  rcases proper other length found with ⟨byte, present, begins⟩
  refine ⟨byte, present, charSetMayBeginWith_of_contains contained ?_⟩
  rcases begins with ⟨_, same⟩ | ⟨utf8, scalar, begins⟩
  · exact .inl same
  · exact (lt_of_head_encode scalar begins).imp_right fun beyond => ⟨utf8, beyond⟩

theorem beginsAt_lineBreak
    (lines : attempt.program.pattern.lineRules.utf8 = attempt.program.utf8)
    (proper : attempt.ProperAt path.position)
    (member : result ∈ Node.lineBreak.results attempt path) :
    Node.lineBreak.BeginsAt attempt path.position := by
  rcases Machine.Attempt.mem_results_searchLineBreak.mp member with ⟨length, found, _⟩
  rcases LineRules.lineBreakAt_cases found with
    ⟨byte, present, ⟨least, greatest, _⟩ | ⟨cr, _, _⟩ | wide⟩
  · exact ⟨byte, present, by simp [mayBeginWith, least, greatest]⟩
  · exact ⟨byte, present, by rw [cr]; rfl⟩
  · rcases LineRules.unicodeBreakAt_eq_some_iff.mp wide with
      ⟨isUtf8, codePoint, decoded, listed, long⟩ | ⟨notUtf8, nel, _⟩
    · rw [lines] at isUtf8
      have character : attempt.characterAt path.position = some (codePoint, length) := by
        rw [Machine.Attempt.characterAt, if_pos isUtf8, decoded]
      rcases proper codePoint length character with
        ⟨other, otherPresent, ⟨alone, _⟩ | ⟨_, _, begins⟩⟩
      · omega
      · refine ⟨other, otherPresent, ?_⟩
        simp only [List.contains_iff_mem, List.mem_cons, List.not_mem_nil, or_false] at listed
        rcases listed with rfl | rfl | rfl <;> injection begins with same <;>
          rw [← same, isUtf8] <;> rfl
    · rw [lines] at notUtf8
      exact ⟨0x85, nel, by rw [notUtf8]; rfl⟩

theorem nullable_sequence (first second : Node (List Nat)) :
    (Node.sequence first second).nullable? =
      match first.nullable? with
      | none => none
      | some true => second.nullable?
      | some false => some false := by
  rw [nullable?]
  rcases first.nullable? with _ | _ | _ <;> rfl

theorem nullable_alternation {first second : Node (List Nat)} {nullable : Bool}
    (known : (Node.alternation first second).nullable? = some nullable) :
    ∃ left right, first.nullable? = some left ∧ second.nullable? = some right
      ∧ nullable = (left || right) := by
  rw [nullable?] at known
  cases firstKnown : first.nullable? with
  | none =>
      rw [firstKnown] at known
      cases known
  | some left =>
      cases secondKnown : second.nullable? with
      | none => simp [firstKnown, secondKnown] at known
      | some right =>
          simp only [firstKnown, secondKnown] at known
          injection known with same
          exact ⟨left, right, rfl, rfl, same.symm⟩

theorem nullable_repetition {body : Node (List Nat)} {least : Nat} {greatest : Option Nat}
    {greedy nullable : Bool}
    (known : (Node.repetition body least greatest greedy).nullable? = some nullable) :
    ∃ inner, body.nullable? = some inner ∧ nullable = (inner || least == 0) := by
  rw [nullable?] at known
  cases bodyKnown : body.nullable? with
  | none =>
      rw [bodyKnown] at known
      cases known
  | some inner =>
      rw [bodyKnown] at known
      injection known with same
      exact ⟨inner, rfl, same.symm⟩

/-- A match that is not empty begins with a byte that the tree can begin with, and a match is empty
only where the tree says so. -/
theorem beginsAt_of_mem_results
    (lines : attempt.program.pattern.lineRules.utf8 = attempt.program.utf8)
    {node : Node (List Nat)} {nullable : Bool} (known : node.nullable? = some nullable)
    {path result : Path} (proper : attempt.ProperAt path.position)
    (member : result ∈ node.results attempt path) :
    (result.position = path.position ∧ nullable = true)
      ∨ node.BeginsAt attempt path.position := by
  induction node generalizing nullable path result with
  | empty =>
      injection known with same
      rw [List.mem_singleton.mp member]
      exact .inl ⟨rfl, same.symm⟩
  | assertion condition =>
      injection known with same
      rw [(Machine.Attempt.mem_results_searchCondition.mp member).2]
      exact .inl ⟨rfl, same.symm⟩
  | look direction negated body _ =>
      injection known with same
      rcases mem_results_look member with rfl | ⟨_, _, _, _, rfl⟩ <;> exact .inl ⟨rfl, same.symm⟩
  | literal => exact .inr (beginsAt_literal proper member)
  | charSet => exact .inr (beginsAt_charSet proper member)
  | lineBreak => exact .inr (beginsAt_lineBreak lines proper member)
  | anyCharacter | notNewline | backreference => cases known
  | group body induction => exact induction known proper member
  | capture number body induction =>
      rw [results_capture] at member
      rcases List.mem_map.mp member with ⟨inner, innerMember, rfl⟩
      have begins := induction known proper innerMember
      exact begins
  | sequence first second firstInduction secondInduction =>
      rw [results_sequence] at member
      rcases List.mem_flatMap.mp member with ⟨middle, middleMember, resultMember⟩
      rw [nullable_sequence] at known
      have fromFirst : first.BeginsAt attempt path.position →
          (Node.sequence first second).BeginsAt attempt path.position := by
        rintro ⟨byte, present, begins⟩
        exact ⟨byte, present, by simp [mayBeginWith, begins]⟩
      cases firstKnown : first.nullable? with
      | none =>
          rw [firstKnown] at known
          cases known
      | some firstNullable =>
          rcases firstInduction firstKnown proper middleMember with ⟨same, empty⟩ | begins
          · rw [firstKnown, empty] at known
            dsimp only at known
            rw [← same] at proper
            rcases secondInduction known proper resultMember with ⟨sameResult, empty⟩ | begins
            · exact .inl ⟨sameResult.trans same, empty⟩
            · rcases begins with ⟨byte, present, begins⟩
              rw [same] at present
              exact .inr ⟨byte, present, by simp [mayBeginWith, begins, firstKnown, empty]⟩
          · exact .inr (fromFirst begins)
  | alternation first second firstInduction secondInduction =>
      rcases nullable_alternation known with ⟨left, right, firstKnown, secondKnown, rfl⟩
      rw [results_alternation] at member
      rcases List.mem_append.mp member with member | member
      · rcases firstInduction firstKnown proper member with ⟨same, empty⟩ | ⟨byte, present, begins⟩
        · exact .inl ⟨same, by rw [empty]; rfl⟩
        · exact .inr ⟨byte, present, by simp [mayBeginWith, begins]⟩
      · rcases secondInduction secondKnown proper member with
          ⟨same, empty⟩ | ⟨byte, present, begins⟩
        · exact .inl ⟨same, by rw [empty, Bool.or_true]⟩
        · exact .inr ⟨byte, present, by simp [mayBeginWith, begins]⟩
  | repetition body least greatest greedy induction =>
      rcases nullable_repetition known with ⟨inner, bodyKnown, rfl⟩
      rw [results_repetition] at member
      rcases List.mem_flatMap.mp member with ⟨middle, middleMember, resultMember⟩
      -- As long as the copies are empty, the position stays where the repetition began.
      let begins : Path → Path → Prop := fun origin result =>
        origin.position = path.position →
          result.position = path.position ∨ body.BeginsAt attempt path.position
      have refl : ∀ path, begins path path := fun _ same => .inl same
      have trans : ∀ {first second third}, begins first second → begins second third →
          begins first third :=
        fun begun continued same => (begun same).elim continued .inr
      have kept : ∀ origin, ∀ result ∈ (body.interpret attempt origin).results,
          begins origin result := by
        intro origin result member same
        rcases induction bodyKnown (same ▸ proper) member with ⟨sameResult, _⟩ | found
        · exact .inl (sameResult.trans same)
        · exact .inr (same ▸ found)
      have mandatory : begins path middle :=
        Search.related_exactly refl trans kept _ _ middle middleMember
      have optional : begins middle result :=
        Search.related_optional refl trans kept _ _ _ _ result resultMember
      rcases trans mandatory optional rfl with same | found
      · cases nullable : (inner || least == 0) with
        | true => exact .inl ⟨same, rfl⟩
        | false =>
            rw [Bool.or_eq_false_iff, beq_eq_false_iff_ne] at nullable
            rcases Nat.exists_eq_succ_of_ne_zero nullable.2 with ⟨count, rfl⟩
            rw [Search.exactly, Search.results_andThen] at middleMember
            rcases List.mem_flatMap.mp middleMember with ⟨first, firstMember, _⟩
            rcases induction bodyKnown proper firstMember with ⟨_, empty⟩ | found
            · rw [nullable.1] at empty
              cases empty
            · exact .inr found
      · exact .inr found
  | atomic body induction =>
      rw [results_atomic] at member
      exact induction known proper (List.mem_of_mem_take member)

end Node

end PerlRegex
