import PerlRegex.Proofs.CaseFolding.Agreement
import PerlRegex.Proofs.Execution
import PerlRegex.Proofs.Machine.Instructions
namespace PerlRegex

/-! Three instructions compare characters without regard to case: that for a literal, that for a
class, and that for a reference to a group. They agree on most characters but not on all. -/

namespace Machine

/-! ## Failing and taking -/

namespace State

theorem length_frames_of_backtrack {state resumed : State} {frames : List Frame}
    (resumes : state.backtrack frames = (true, resumed)) :
    resumed.frames.length < frames.length ∧ resumed.waiting = state.waiting := by
  induction frames generalizing state with
  | nil => cases resumes
  | cons frame frames induction =>
      cases frame with
      | choice address position =>
          cases resumes
          exact ⟨Nat.lt_succ_self _, rfl⟩
      | slot slot former =>
          rcases induction resumes with ⟨shorter, same⟩
          exact ⟨Nat.lt_succ_of_lt shorter, same⟩
      | register register former =>
          rcases induction resumes with ⟨shorter, same⟩
          exact ⟨Nat.lt_succ_of_lt shorter, same⟩

theorem shorter_of_failIn {state result : State} {frames : List Frame} {waiting : List Waiting}
    (here : state.waiting = waiting) (fails : state.failIn frames waiting = .next result) :
    result.waiting.length < waiting.length
      ∨ result.frames.length < frames.length ∧ result.waiting = waiting := by
  induction waiting generalizing state frames with
  | nil =>
      rw [failIn] at fails
      rcases backtracks : state.backtrack frames with ⟨_ | _, resumed⟩ <;>
        rw [backtracks] at fails <;> cases fails
      rcases length_frames_of_backtrack backtracks with ⟨shorter, same⟩
      exact .inr ⟨shorter, same.trans here⟩
  | cons run rest induction =>
      rw [failIn] at fails
      rcases backtracks : state.backtrack frames with ⟨_ | _, resumed⟩ <;>
        rw [backtracks] at fails
      · left
        dsimp only at fails
        split at fails
        · cases fails
          exact Nat.lt_succ_self _
        · rcases induction rfl fails with fewer | ⟨_, same⟩
          · exact Nat.lt_succ_of_lt fewer
          · rw [same]
            exact Nat.lt_succ_self _
      · cases fails
        rcases length_frames_of_backtrack backtracks with ⟨shorter, same⟩
        exact .inr ⟨shorter, same.trans here⟩

theorem fail_ne_advance (state : State) (position : Nat) : state.fail ≠ state.advance position := by
  intro fails
  rcases shorter_of_failIn rfl fails with fewer | ⟨shorter, _⟩
  · exact Nat.lt_irrefl _ fewer
  · exact Nat.lt_irrefl _ shorter

end State

namespace Attempt

/-- An instruction takes the character at the position of a state, and does nothing else. -/
def Takes (attempt : Attempt) (state : State) (instruction : Instruction) : Prop :=
  ∃ character length, attempt.characterAt state.position = some (character, length)
    ∧ attempt.execute state instruction = state.advance (state.position + length)

variable {attempt : Attempt} {state : State} {first second : Nat}

theorem takes_iff {instruction : Instruction} {length : Nat} {accepts : Prop} [Decidable accepts]
    (ahead : attempt.characterAt state.position = some (second, length))
    (executed : attempt.execute state instruction =
      if accepts then state.advance (state.position + length) else state.fail) :
    attempt.Takes state instruction ↔ accepts := by
  constructor
  · rintro ⟨character, otherLength, found, taken⟩
    rw [ahead] at found
    cases found
    by_cases accepted : accepts
    · exact accepted
    · rw [executed, if_neg accepted] at taken
      exact absurd taken (state.fail_ne_advance _)
  · intro accepted
    exact ⟨second, length, ahead, by rw [executed, if_pos accepted]⟩

theorem takes_consume_iff {instruction : Instruction} {length : Nat} {accepts : Nat → Bool}
    (ahead : attempt.characterAt state.position = some (second, length))
    (executed : attempt.execute state instruction = attempt.consume state accepts) :
    attempt.Takes state instruction ↔ accepts second = true := by
  apply takes_iff ahead
  rw [executed, consume_of_some ahead]

/-! ## The three comparisons -/

/-- A literal looks for the character ahead among its own variants, outside UTF-8 mode among those
in ASCII. -/
theorem takes_literal_iff {length : Nat} {utf8 : Bool}
    (ahead : attempt.characterAt state.position = some (second, length)) :
    attempt.Takes state (Node.literalInstruction utf8 first true) ↔
      second = first ∨ second ∈ CaseFolding.variants first
        ∧ (utf8 = true ∨ first < 0x80 ∧ second < 0x80) := by
  rw [takes_consume_iff ahead (attempt.execute_literalInstruction state utf8 first true)]
  simp [Node.literalAccepts]

/-- The class of one character, with or without regard to case. -/
def classOf (character : Nat) : CharSet where
  negated := false
  caseless := true
  items := [.range character character]

/-- A class looks for its member among the variants of the character ahead. -/
theorem takes_class_iff {length : Nat}
    (ahead : attempt.characterAt state.position = some (second, length)) :
    attempt.Takes state (.charSet (classOf first)) ↔ first ∈ CaseFolding.variants second := by
  have executed : attempt.execute state (.charSet (classOf first)) =
      attempt.consume state ((classOf first).contains attempt.program.ucp) := rfl
  rw [takes_consume_iff ahead executed]
  have holdsExactly : ∀ character,
      (classOf first).containsExactly attempt.program.ucp character = (character == first) := by
    intro character
    rw [Bool.eq_iff_iff]
    simp [CharSet.containsExactly, classOf, CharSetItem.contains]
    omega
  rcases CaseFolding.prefix_closeFrom CaseFolding.familyBound 0 [second] with ⟨others, same⟩
  have variants : CaseFolding.variants second = second :: others := same.symm
  have caseless : (classOf first).caseless = true := rfl
  have positive : (classOf first).negated = false := rfl
  simp only [CharSet.contains, caseless, positive, variants, List.tail_cons, Bool.true_and,
    Bool.bne_false, Bool.or_eq_true, List.any_eq_true, holdsExactly, beq_iff_eq, List.mem_cons]
  constructor
  · rintro (rfl | ⟨other, member, rfl⟩)
    · exact .inl rfl
    · exact .inr member
  · rintro (rfl | member)
    · exact .inl rfl
    · exact .inr ⟨first, member, rfl⟩

/-- A group has taken a character, and a character stands at the position of the state. -/
structure Confronts (attempt : Attempt) (state : State) (group taken ahead : Nat) : Prop where
  taken : ∃ span, groupSpan? state.slots group = some span
    ∧ attempt.characterAt span.start = some (taken, span.stop - span.start)
  ahead : ∃ length, attempt.characterAt state.position = some (ahead, length)

theorem repeats_of_character {span : Span} {position length : Nat}
    (taken : attempt.characterAt span.start = some (first, span.stop - span.start))
    (ahead : attempt.characterAt position = some (second, length)) :
    attempt.repeats span true position =
      if CaseFolding.fold attempt.program.utf8 first = CaseFolding.fold attempt.program.utf8 second
      then .matched (position + length) else .differs := by
  rcases length_of_characterAt taken with ⟨positive, inside⟩
  have whole : span.start + (span.stop - span.start) = span.stop := by omega
  have nothingLeft : ∀ budget, attempt.repeatFolded span.stop budget span.stop (position + length) =
      .matched (position + length) := by
    intro budget
    cases budget with
    | zero => rfl
    | succ budget => rw [repeatFolded, if_pos (Nat.le_refl _)]
  rw [repeats, if_neg (by simp; omega), if_pos rfl]
  obtain ⟨budget, same⟩ : ∃ budget, span.stop - span.start = budget + 1 :=
    ⟨span.stop - span.start - 1, by omega⟩
  rw [same, repeatFolded, if_neg (by omega), taken, ahead]
  dsimp only
  rw [whole, nothingLeft]

theorem takes_reference_iff {group : Nat} (confronts : attempt.Confronts state group first second) :
    attempt.Takes state (.backreference [group] true) ↔
      CaseFolding.fold attempt.program.utf8 first =
        CaseFolding.fold attempt.program.utf8 second := by
  rcases confronts with ⟨⟨span, captured, taken⟩, length, ahead⟩
  apply takes_iff ahead
  have existing : lacksSlot state [group] = false := by
    simp only [lacksSlot, List.any_cons, List.any_nil, Bool.or_false, decide_eq_false_iff_not]
    intro missing
    rw [groupSpan?, Array.getElem?_eq_none missing] at captured
    cases slot : state.slots[2 * group]? <;> simp [slot] at captured
  have set : [group].findSome? (groupSpan? state.slots) = some span := by
    simp only [List.findSome?_cons, captured]
  have repeated := repeats_of_character taken ahead
  by_cases same : CaseFolding.fold attempt.program.utf8 first =
      CaseFolding.fold attempt.program.utf8 second
  · rw [if_pos same] at repeated ⊢
    exact matchReference_of_matched existing set repeated
  · rw [if_neg same] at repeated ⊢
    exact matchReference_of_differs existing set repeated

/-! ## Agreement -/

/-- Two characters that the three instructions do not compare alike: in UTF-8 mode a stray and a
letter of its family, otherwise the two cases of a letter of Latin-1 beyond ASCII. -/
def Unlike (utf8 : Bool) (first second : Nat) : Prop :=
  if utf8 then CaseFolding.OneWay first second ∨ CaseFolding.OneWay second first
  else CaseFolding.LatinCases first second

instance (utf8 : Bool) (first second : Nat) : Decidable (Unlike utf8 first second) :=
  inferInstanceAs (Decidable (if utf8 then _ else _))

/-- All three instructions for the first character come to the same with the second one ahead, and
so does the literal for the second character with the first one ahead. -/
structure ComparesAlike (attempt : Attempt) (state exchanged : State)
    (group first second : Nat) : Prop where
  set : attempt.Takes state (Node.literalInstruction attempt.program.utf8 first true)
    ↔ attempt.Takes state (.charSet (classOf first))
  reference : attempt.Takes state (Node.literalInstruction attempt.program.utf8 first true)
    ↔ attempt.Takes state (.backreference [group] true)
  exchange : attempt.Takes state (Node.literalInstruction attempt.program.utf8 first true)
    ↔ attempt.Takes exchanged (Node.literalInstruction attempt.program.utf8 second true)

theorem lt_of_characterAt {position character length : Nat}
    (narrow : attempt.program.utf8 = false)
    (found : attempt.characterAt position = some (character, length)) : character < 0x100 := by
  rw [characterAt, narrow] at found
  rcases Option.map_eq_some_iff.mp found with ⟨byte, _, same⟩
  cases same
  exact byte.toNat_lt

/-- The three instructions compare two characters alike exactly when neither is a stray in the
family of the other, and outside UTF-8 mode, when they are not cases of one letter of Latin-1 beyond
ASCII. -/
theorem comparesAlike_iff {exchanged : State} {group other : Nat}
    (here : attempt.Confronts state group first second)
    (there : attempt.Confronts exchanged other second first) :
    attempt.ComparesAlike state exchanged group first second ↔
      ¬ Unlike attempt.program.utf8 first second := by
  have reference := takes_reference_iff here
  rcases here with ⟨_, length, ahead⟩
  rcases there with ⟨_, exchangedLength, exchangedAhead⟩
  have literal := @takes_literal_iff _ _ first _ _ attempt.program.utf8 ahead
  have exchangedLiteral := @takes_literal_iff _ _ second _ _ attempt.program.utf8 exchangedAhead
  have set := @takes_class_iff _ _ first _ _ ahead
  have split : attempt.ComparesAlike state exchanged group first second ↔ _ ∧ _ ∧ _ :=
    ⟨fun alike => ⟨alike.set, alike.reference, alike.exchange⟩,
      fun ⟨set, reference, exchange⟩ => ⟨set, reference, exchange⟩⟩
  rw [split, literal, exchangedLiteral, set, reference]
  cases utf8 : attempt.program.utf8 with
  | true =>
      have wide : ∀ {first second : Nat},
          (second = first ∨ second ∈ CaseFolding.variants first
            ∧ (true = true ∨ first < 0x80 ∧ second < 0x80)) ↔
              second ∈ CaseFolding.variants first := by
        intro first second
        constructor
        · rintro (rfl | ⟨member, _⟩)
          · exact CaseFolding.mem_variants_self _
          · exact member
        · exact fun member => .inr ⟨member, .inl rfl⟩
      rw [wide, wide]
      constructor
      · rintro ⟨set, _, _⟩ (stray | stray)
        · exact stray.variants.2 (set.mp stray.variants.1)
        · exact stray.variants.2 (set.mpr stray.variants.1)
      · intro alike
        have forward : ¬ CaseFolding.OneWay first second := fun stray => alike (.inl stray)
        have backward : ¬ CaseFolding.OneWay second first := fun stray => alike (.inr stray)
        have same := CaseFolding.mem_variants_iff_fold forward backward
        have exchange : second ∈ CaseFolding.variants first ↔ first ∈ CaseFolding.variants second :=
          same.trans (eq_comm.trans (CaseFolding.mem_variants_iff_fold backward forward).symm)
        exact ⟨exchange, same, exchange⟩
  | false =>
      have firstByte := lt_of_characterAt utf8 exchangedAhead
      have secondByte := lt_of_characterAt utf8 ahead
      have narrow : ∀ {first second : Nat}, first < 0x100 → second < 0x100 →
          ((second = first ∨ second ∈ CaseFolding.variants first
            ∧ (false = true ∨ first < 0x80 ∧ second < 0x80)) ↔
              CaseFolding.fold false first = CaseFolding.fold false second) := by
        intro first second firstByte secondByte
        rw [or_iff_right Bool.false_ne_true]
        exact CaseFolding.ascii_variant_iff_fold firstByte secondByte
      rw [narrow firstByte secondByte, narrow secondByte firstByte,
        CaseFolding.mem_variants_iff_of_bytes secondByte firstByte]
      constructor
      · rintro ⟨set, _, _⟩ cases
        exact cases.fold_ne (set.mpr (.inr (CaseFolding.latinCases_comm.mp cases)))
      · intro alike
        have notLatin : ¬ CaseFolding.LatinCases second first := fun cases =>
          alike (CaseFolding.latinCases_comm.mp cases)
        have exchange : CaseFolding.fold false first = CaseFolding.fold false second ↔
            CaseFolding.fold false second = CaseFolding.fold false first := eq_comm
        exact ⟨exchange.trans (or_iff_left notLatin).symm, .rfl, exchange⟩

/-- In `k` followed by the sign for kelvin, both the class of `k` and a reference to a `k` take the
sign, and the literal sign takes the `k`. These are the instructions of a program. -/
theorem comparesAlike_kelvin :
    ∃ program, Program.compile "[k](k)\\1\\x\x7b212a\x7d".toUTF8.toList
        { utf8 := true, caseless := true } = .ok program
      ∧ program.instructions = #[.charSet (classOf 0x6B), .openGroup 0,
        Node.literalInstruction true 0x6B true, .closeGroup 1 0, .backreference [1] true,
        Node.literalInstruction true 0x212A true, .accept]
      ∧ let attempt : Attempt := ⟨program, #[0x6B, 0xE2, 0x84, 0xAA], {}, 0, 0, 10⟩
        let state : State := { State.initial program 1 with
          slots := #[none, none, some 0, some 1] }
        let exchanged : State := { State.initial program 0 with
          slots := #[none, none, some 1, some 4] }
        attempt.Takes state (.charSet (classOf 0x6B))
          ∧ attempt.Takes state (.backreference [1] true)
          ∧ attempt.Takes exchanged (Node.literalInstruction program.utf8 0x212A true) := by
  have evaluated : ∃ program, Program.compile "[k](k)\\1\\x\x7b212a\x7d".toUTF8.toList
      { utf8 := true, caseless := true } = .ok program
        ∧ program.utf8 = true
        ∧ program.instructions = #[.charSet (classOf 0x6B), .openGroup 0,
          Node.literalInstruction true 0x6B true, .closeGroup 1 0, .backreference [1] true,
          Node.literalInstruction true 0x212A true, .accept] :=
    exists_compiled (by decide +kernel)
  rcases evaluated with ⟨program, compiled, utf8, instructions⟩
  refine ⟨program, compiled, instructions, ?_⟩
  intro attempt state exchanged
  have decoded : Utf8.decodeAt #[0x6B, 0xE2, 0x84, 0xAA] 0 = some (0x6B, 1)
      ∧ Utf8.decodeAt #[0x6B, 0xE2, 0x84, 0xAA] 1 = some (0x212A, 3) := by decide +kernel
  have small : attempt.characterAt 0 = some (0x6B, 1) := by
    rw [characterAt, if_pos utf8]
    exact decoded.1
  have kelvin : attempt.characterAt 1 = some (0x212A, 3) := by
    rw [characterAt, if_pos utf8]
    exact decoded.2
  have here : attempt.Confronts state 1 0x6B 0x212A :=
    ⟨⟨⟨0, 1⟩, rfl, small⟩, 3, kelvin⟩
  have there : attempt.Confronts exchanged 1 0x212A 0x6B :=
    ⟨⟨⟨1, 4⟩, rfl, kelvin⟩, 1, small⟩
  have alike : ¬ Unlike attempt.program.utf8 0x6B 0x212A := by
    rw [show attempt.program.utf8 = true from utf8]
    decide +kernel
  have literal : attempt.Takes state (Node.literalInstruction attempt.program.utf8 0x6B true) :=
    (@takes_literal_iff attempt state _ _ _ _ kelvin).mpr
      (.inr ⟨by decide +kernel, .inl utf8⟩)
  have compares := (comparesAlike_iff here there).mpr alike
  exact ⟨compares.set.mp literal, compares.reference.mp literal, compares.exchange.mp literal⟩

end Attempt

end Machine

/-- `Ǆ` is matched by a literal `ǅ`, the form with a small second letter, and by a reference to one,
but not by the class of `ǅ`. Outside UTF-8 mode the byte C9 is matched by the class of E9, but not by
the literal or by a reference. -/
theorem class_differs_from_literal :
    (∃ program, Program.compile "l(ǅ)|c([ǅ])|r(ǅ)\\3".toUTF8.toList
        { utf8 := true, caseless := true } = .ok program
      ∧ program.execute none {} "lǄ".toUTF8.data 0 {} =
        .ok (.matched [some ⟨0, 3⟩, some ⟨1, 3⟩, none, none])
      ∧ program.execute none {} "cǄ".toUTF8.data 0 {} = .ok .noMatch
      ∧ program.execute none {} "rǅǄ".toUTF8.data 0 {} =
        .ok (.matched [some ⟨0, 5⟩, none, none, some ⟨1, 3⟩]))
      ∧ ∃ program, Program.compile "l(\\xe9)|c([\\xe9])|r(\\xe9)\\3".toUTF8.toList
          { caseless := true } = .ok program
        ∧ program.execute none {} #[0x6C, 0xC9] 0 {} = .ok .noMatch
        ∧ program.execute none {} #[0x63, 0xC9] 0 {} =
          .ok (.matched [some ⟨0, 2⟩, none, some ⟨1, 2⟩, none])
        ∧ program.execute none {} #[0x72, 0xE9, 0xC9] 0 {} = .ok .noMatch :=
  ⟨exists_compiled (by decide +kernel), exists_compiled (by decide +kernel)⟩

end PerlRegex
