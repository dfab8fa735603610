import PerlRegex.Proofs.Continuing.Finality
import PerlRegex.Proofs.Pattern.Literals
import PerlRegex.Proofs.Safety
import PerlRegex.Proofs.Unplanned
namespace PerlRegex

/-! The leading text of a pattern is what every match begins with. Where it is all of the pattern,
it is all of every match, and there is a match where it stands. -/

open Machine (Attempt)

/-! ## Trees -/

/-- From one position to another a subject begins with some characters, and ends with them if they
are all there is. -/
structure Machine.Attempt.BeginsWith (attempt : Attempt) (leading : List Nat × Bool)
    (start stop : Nat) : Prop where
  occurs : OccursAt attempt.subject (bytesIn attempt.program.utf8 leading.1) start
  within : start + (bytesIn attempt.program.utf8 leading.1).length ≤ stop
  whole : leading.2 = true → stop = start + (bytesIn attempt.program.utf8 leading.1).length

namespace Machine.Attempt.BeginsWith

variable {attempt : Attempt} {first second : List Nat} {complete : Bool} {start middle stop : Nat}

theorem nothing (forward : start ≤ stop) : attempt.BeginsWith ([], false) start stop where
  occurs := .nil _ _
  within := forward
  whole := fun impossible => by cases impossible

theorem trans (begun : attempt.BeginsWith (first, true) start middle)
    (continued : attempt.BeginsWith (second, complete) middle stop) :
    attempt.BeginsWith (first ++ second, complete) start stop := by
  rw [begun.whole rfl] at continued
  have bytes : bytesIn attempt.program.utf8 (first ++ second) =
      bytesIn attempt.program.utf8 first ++ bytesIn attempt.program.utf8 second :=
    List.flatMap_append
  constructor
  case occurs => exact bytes.symm ▸ occursAt_append_iff.mpr ⟨begun.occurs, continued.occurs⟩
  case within =>
    rw [bytes, List.length_append, ← Nat.add_assoc]
    exact continued.within
  case whole =>
    intro complete
    rw [bytes, List.length_append, ← Nat.add_assoc]
    exact continued.whole complete

theorem weaken (begun : attempt.BeginsWith (first, false) start middle) (forward : middle ≤ stop) :
    attempt.BeginsWith (first, false) start stop where
  occurs := begun.occurs
  within := Nat.le_trans begun.within forward
  whole := fun impossible => by cases impossible

end Machine.Attempt.BeginsWith

namespace Node

theorem leadingText_sequence (first second : Node Reference) :
    (sequence first second).leadingText =
      if first.leadingText.2 then
        (first.leadingText.1 ++ second.leadingText.1, second.leadingText.2)
      else (first.leadingText.1, false) := by
  rw [leadingText]
  rcases first.leadingText with ⟨text, _ | _⟩ <;> rfl

theorem subset_literals (node : Node Reference) : node.leadingText.1 ⊆ node.literals := by
  induction node with
  | literal character caseless =>
      cases caseless with
      | true => exact List.nil_subset _
      | false => exact List.Subset.refl _
  | group body induction => exact induction
  | capture number body induction => exact induction
  | sequence first second firstInduction secondInduction =>
      have left : first.literals ⊆ (sequence first second).literals :=
        List.subset_append_left _ _
      have right : second.literals ⊆ (sequence first second).literals :=
        List.subset_append_right _ _
      rw [leadingText_sequence]
      split
      · exact List.append_subset.mpr
          ⟨List.Subset.trans firstInduction left, List.Subset.trans secondInduction right⟩
      · exact List.Subset.trans firstInduction left
  | _ => exact List.nil_subset _

variable {attempt : Attempt}

/-- Behind a position between characters every match of a tree begins with its leading text. -/
theorem beginsWith_of_mem_results
    (lines : attempt.program.pattern.lineRules.utf8 = attempt.program.utf8)
    {node : Node (List Nat)} {path result : Path} (between : path.All attempt.Between)
    (areCharacters : Pattern.AreCharacters attempt.program.utf8 node.leadingText.1)
    (member : result ∈ node.results attempt path) :
    attempt.BeginsWith node.leadingText path.position result.position := by
  have forward := (advances_of_mem_results member).forward
  induction node generalizing path result with
  | empty =>
      rw [List.mem_singleton.mp member]
      exact ⟨.nil _ _, Nat.le_refl _, fun _ => rfl⟩
  | literal character caseless =>
      cases caseless with
      | true => exact .nothing forward
      | false =>
          have found := Attempt.results_searchCharacter_literal between.position
            (areCharacters character List.mem_cons_self)
          have bytes : bytesIn attempt.program.utf8 [character] =
              encodeIn attempt.program.utf8 character := List.append_nil _
          change result ∈ (attempt.searchCharacter _ path).results at member
          rw [found] at member
          split at member
          · rename_i occurs
            rw [List.mem_singleton.mp member, leadingText, ← bytes]
            exact ⟨bytes.symm ▸ occurs, Nat.le_refl _, fun _ => rfl⟩
          · cases member
  | group body induction => exact induction between areCharacters member forward
  | capture number body induction =>
      rw [results_capture] at member
      rcases List.mem_map.mp member with ⟨inner, innerMember, rfl⟩
      have begins := induction between areCharacters innerMember forward
      exact begins
  | sequence first second firstInduction secondInduction =>
      rw [results_sequence] at member
      rcases List.mem_flatMap.mp member with ⟨middle, middleMember, resultMember⟩
      have begun := (advances_of_mem_results middleMember).forward
      have continued := (advances_of_mem_results resultMember).forward
      -- The second part begins between characters as well, wherever the first has left off.
      have middleBetween := all_of_mem_results (attempt.keeps_between lines) between middleMember
      rw [leadingText_sequence] at areCharacters ⊢
      split at areCharacters
      · rename_i complete
        rcases Pattern.areCharacters_append.mp areCharacters with ⟨firstAre, secondAre⟩
        have begins := firstInduction between firstAre middleMember begun
        rw [if_pos complete]
        rw [show first.leadingText = (first.leadingText.1, true) from complete ▸ rfl] at begins
        exact begins.trans (secondInduction middleBetween secondAre resultMember continued)
      · rename_i incomplete
        have begins := firstInduction between areCharacters middleMember begun
        rw [if_neg incomplete]
        rw [Bool.not_eq_true] at incomplete
        rw [show first.leadingText = (first.leadingText.1, false) from incomplete ▸ rfl] at begins
        exact begins.weaken continued
  | _ => exact .nothing forward

/-- A tree that is nothing but its leading text goes one way where that stands: behind it. -/
theorem interpret_of_occursAt {node : Node (List Nat)} {path : Path}
    (complete : node.leadingText.2 = true)
    (areCharacters : Pattern.AreCharacters attempt.program.utf8 node.leadingText.1)
    (occurs : OccursAt attempt.subject (bytesIn attempt.program.utf8 node.leadingText.1)
      path.position) :
    ∃ result, node.interpret attempt path = [.found result] ∧ result.position =
      path.position + (bytesIn attempt.program.utf8 node.leadingText.1).length := by
  induction node generalizing path with
  | empty => exact ⟨path, rfl, rfl⟩
  | literal character caseless =>
      cases caseless with
      | true => cases complete
      | false =>
          have bytes : bytesIn attempt.program.utf8 [character] =
              encodeIn attempt.program.utf8 character := List.append_nil _
          rw [leadingText, bytes] at occurs ⊢
          have found := Attempt.characterAt_of_occursAt
            (areCharacters character List.mem_cons_self) occurs
          let length := (encodeIn attempt.program.utf8 character).length
          refine ⟨{ path with position := path.position + length }, ?_, rfl⟩
          rw [interpret, Attempt.searchCharacter, found]
          exact if_pos (by simp [literalAccepts])
  | group body induction => exact induction complete areCharacters occurs
  | capture number body induction =>
      rcases induction complete areCharacters occurs with ⟨inner, interpreted, position⟩
      refine ⟨inner.close number path.position, ?_, position⟩
      rw [interpret, interpreted]
      rfl
  | sequence first second firstInduction secondInduction =>
      rw [leadingText_sequence] at complete areCharacters occurs ⊢
      split at complete
      · rename_i firstComplete
        rw [if_pos firstComplete] at areCharacters occurs ⊢
        rcases Pattern.areCharacters_append.mp areCharacters with ⟨firstAre, secondAre⟩
        rw [bytesIn, List.flatMap_append, ← bytesIn, ← bytesIn] at occurs ⊢
        rcases occursAt_append_iff.mp occurs with ⟨begins, continues⟩
        rcases firstInduction firstComplete firstAre begins with ⟨middle, begun, middlePosition⟩
        rw [← middlePosition] at continues
        rcases secondInduction complete secondAre continues with ⟨result, continued, position⟩
        refine ⟨result, ?_, ?_⟩
        · rw [interpret, begun]
          exact (List.append_nil _).trans continued
        · rw [position, middlePosition, List.length_append, Nat.add_assoc]
      · cases complete
  | _ => cases complete

end Node

/-! ## Executions -/

theorem Span.bytes_eq_take (span : Span) (text : Array UInt8) :
    span.bytes text = (text.toList.drop span.start).take (span.stop - span.start) := by
  rw [Span.bytes, Array.toList_extract, List.extract_eq_take_drop]

theorem Machine.Attempt.bytes_of_beginsWith {attempt : Attempt} {leading : List Nat × Bool}
    (span : Span) (begins : attempt.BeginsWith leading span.start span.stop) :
    bytesIn attempt.program.utf8 leading.1 <+: span.bytes attempt.subject
      ∧ (leading.2 = true →
        span.bytes attempt.subject = bytesIn attempt.program.utf8 leading.1) := by
  have within := begins.within
  rw [Span.bytes_eq_take]
  constructor
  · exact List.prefix_take_iff.mpr ⟨begins.occurs, by omega⟩
  · intro complete
    rw [begins.whole complete, Nat.add_sub_cancel_left]
    exact (List.prefix_iff_eq_take.mp begins.occurs).symm

namespace Execution

variable {execution : Execution}

/-- The first position, or one between characters. -/
def TriesAt (execution : Execution) (position : Nat) : Prop :=
  execution.startOffset ≤ position
    ∧ (position = execution.startOffset ∨ execution.program.utf8 = false
      ∨ Utf8.isBoundary execution.subject position = true)

theorem triesAt_nextStart {start : Nat} (tries : execution.TriesAt start) :
    execution.TriesAt (execution.nextStart start) := by
  have later := execution.lt_nextStart start
  refine ⟨Nat.le_trans tries.1 (Nat.le_of_lt later), .inr ?_⟩
  rw [nextStart]
  split
  · exact .inr (isBoundary_nextBoundary _ _)
  · rename_i bytes
    exact .inl (Bool.eq_false_iff.mpr bytes)

theorem beginsWith_of_decisionAt (compiled : Machine.Compiled execution.program)
    (areCharacters : Pattern.AreCharacters execution.program.utf8
      execution.program.pattern.tree.leadingText.1)
    (valid : execution.program.utf8 = true → Utf8.isValid execution.subject.toList = true)
    {start : Nat} (inside : start ≤ execution.subject.size)
    (boundary : execution.program.utf8 = true →
      Utf8.isBoundary execution.subject start = true) {path : Path}
    (decided : execution.decisionAt start = .matched path) :
    (execution.attemptAt start).BeginsWith execution.program.pattern.tree.leadingText start
      path.position := by
  have between : (execution.attemptAt start).Between start := fun utf8 =>
    Utf8.between_of_isBoundary (Utf8.wellFormed_of_isValid (valid utf8)) inside (boundary utf8)
  have lines : (execution.attemptAt start).program.pattern.lineRules.utf8 =
      (execution.attemptAt start).program.utf8 := compiled.lines
  exact Node.beginsWith_of_mem_results lines (.of_unset between) areCharacters
    (Attempt.mem_results_of_decide decided)

theorem starts_of_startsOnce (once : execution.startsOnce = true)
    (inside : execution.startOffset ≤ execution.subject.size) :
    execution.starts = [execution.startOffset] := by
  have upTo : execution.startOffset ≤ execution.lastStart := by
    rw [lastStart]
    split
    · exact le_firstNewline (Nat.le_refl _) inside
    · exact inside
  rw [starts, startsFrom_of_le upTo, if_pos once]

theorem matched_tryStarts_singleton (start : Nat) :
    (∃ captures, execution.tryStarts none [start] = .matched captures) ↔
      ∃ path, execution.decisionAt start = .matched path := by
  rw [tryStarts]
  cases execution.decisionAt start with
  | matched path => exact ⟨fun _ => ⟨path, rfl⟩, fun _ => ⟨_, rfl⟩⟩
  | cutShort => simp
  | failed touched => cases touched <;> simp [tryStarts, withoutMatch]

theorem decisionAt_of_occursAt
    (complete : execution.program.pattern.tree.leadingText.2 = true)
    (areCharacters : Pattern.AreCharacters execution.program.utf8
      execution.program.pattern.tree.leadingText.1)
    (mayBeEmpty : execution.options.notEmpty = false ∧ execution.options.notEmptyAtStart = false)
    {start : Nat} (occurs : OccursAt execution.subject
      (bytesIn execution.program.utf8 execution.program.pattern.tree.leadingText.1) start) :
    ∃ path, execution.decisionAt start = .matched path := by
  let attempt := execution.attemptAt start
  have stands : OccursAt attempt.subject
      (bytesIn attempt.program.utf8 execution.program.pattern.tree.leadingText.1)
      attempt.origin.position := occurs
  rcases Node.interpret_of_occursAt complete areCharacters stands with ⟨result, interpreted, _⟩
  have search : attempt.search = [.found result] := interpreted
  have kept : attempt.refusesEmpty result.position = false := by
    have notEmpty : attempt.options.notEmpty = false := mayBeEmpty.1
    have atStart : attempt.options.notEmptyAtStart = false := mayBeEmpty.2
    rw [Attempt.refusesEmpty, notEmpty, atStart, Bool.false_or, Bool.false_and, Bool.and_false]
  refine ⟨result, ?_⟩
  rw [decisionAt, search, Attempt.decide, kept]
  rfl

end Execution

namespace Regex

variable {regex : Regex} {program : Program} {subject : Array UInt8} {startOffset : Nat}
  {options : MatchOptions}

theorem leadingBytes_eq (present : regex.program = some program) :
    regex.leadingBytes = (bytesIn program.utf8 program.pattern.tree.leadingText.1,
      program.pattern.tree.leadingText.2) := by
  rw [leadingBytes, present, bytesIn]
  dsimp only
  cases utf8 : program.utf8 <;> rfl

section Present

variable (made : regex.Made) (present : regex.program = some program)
  (areCharacters : Pattern.AreCharacters program.utf8 program.pattern.tree.leadingText.1)
  (valid : program.utf8 = true → Utf8.isValid subject.toList = true)
include made present areCharacters valid

/-- A match begins with the leading text, unless it begins within a character, as it can at the
start offset only. -/
theorem beginsWith_of_execAt {captures : Captures}
    (matched : regex.execAt subject startOffset options = .ok (.matched captures)) :
    ∃ span : Span, captures.head? = some (some span) ∧ startOffset ≤ span.start
      ∧ ((program.utf8 = true → span.start = startOffset →
          Utf8.isBoundary subject startOffset = true) →
        bytesIn program.utf8 program.pattern.tree.leadingText.1 <+: span.bytes subject
        ∧ (program.pattern.tree.leadingText.2 = true →
          span.bytes subject = bytesIn program.utf8 program.pattern.tree.leadingText.1)) := by
  rcases exists_outcome_of_execAt matched with ⟨other, otherPresent, found⟩
  rw [present] at otherPresent
  cases otherPresent
  let execution := regex.execution program subject startOffset options
  have compiled : Machine.Compiled execution.program := made.compiledProgram present
  have next : ∀ start, execution.TriesAt start → execution.TriesAt (execution.nextStart start) :=
    fun _ => Execution.triesAt_nextStart
  have finds := Execution.finds_outcome compiled next ⟨Nat.le_refl _, .inl rfl⟩
  rw [show execution.outcome = _ from found] at finds
  rcases finds with ⟨_, _, impossible⟩ | finds
  · cases impossible
  cases finds with
  | exhausted exhausted => exact absurd exhausted (Execution.not_exhausted_ok _)
  | @matched start path tries upTo decided =>
      have inside := Nat.le_trans upTo execution.lastStart_le
      have positive := Execution.captures_pos_of_decisionAt decided
      refine ⟨⟨start, path.position⟩, ?_, tries.1, fun outside => ?_⟩
      · rw [List.head?_eq_getElem?, List.getElem?_set_self positive]
      · have boundary : program.utf8 = true → Utf8.isBoundary subject start = true := by
          intro utf8
          rcases tries.2 with first | bytes | boundary
          · rw [first]
            exact outside utf8 first
          · rw [show execution.program.utf8 = true from utf8] at bytes
            cases bytes
          · exact boundary
        have begins := Execution.beginsWith_of_decisionAt compiled areCharacters valid inside
          boundary decided
        exact Attempt.bytes_of_beginsWith ⟨start, path.position⟩ begins

theorem matched_iff_occursAt (complete : program.pattern.tree.leadingText.2 = true)
    (anchored : options.anchored = true ∨ program.pattern.options.anchored = true)
    (mayBeEmpty : options.notEmpty = false ∧ options.notEmptyAtStart = false)
    (inside : startOffset ≤ subject.size)
    (boundary : program.utf8 = true → Utf8.isBoundary subject startOffset = true)
    (enough : regex.execAt subject startOffset options ≠ .error (.error .matchLimit)
      ∧ regex.execAt subject startOffset options ≠ .error (.error .recursionLimit)) :
    (∃ captures, regex.execAt subject startOffset options = .ok (.matched captures)) ↔
      OccursAt subject (bytesIn program.utf8 program.pattern.tree.leadingText.1) startOffset := by
  have checked : program.utf8 = true →
      Utf8.isValid subject.toList = true ∧ Utf8.isBoundary subject startOffset = true :=
    fun utf8 => ⟨valid utf8, boundary utf8⟩
  rcases made.exists_runsFreely_unplanned checked present inside options with
    ⟨limits, states, runs⟩
  -- Without a plan and with limits that suffice, the outcome is what the only attempt decides.
  let limited := regex.setLimits limits
  let execution := (limited.execution program subject startOffset options).unplanned
  have same : regex.execAt subject startOffset options =
      .ok (execution.tryStarts none execution.starts) := by
    rcases runs.execAt_cases with same | gaveUp | gaveUp
    · exact same
    · exact absurd gaveUp enough.1
    · exact absurd gaveUp enough.2
  have once : execution.startsOnce = true := by
    rw [Execution.startsOnce, Bool.or_eq_true, Bool.or_eq_true]
    exact .inl anchored
  have starts : execution.starts = [startOffset] := Execution.starts_of_startsOnce once inside
  have decides : (∃ captures, regex.execAt subject startOffset options = .ok (.matched captures)) ↔
      ∃ path, execution.decisionAt startOffset = .matched path := by
    rw [same, starts, ← Execution.matched_tryStarts_singleton]
    simp only [Except.ok.injEq]
  rw [decides]
  constructor
  · rintro ⟨path, decided⟩
    have compiled : Machine.Compiled execution.program := made.compiledProgram present
    exact (Execution.beginsWith_of_decisionAt compiled areCharacters valid inside boundary
      decided).occurs
  · have permitted : execution.options.notEmpty = false
        ∧ execution.options.notEmptyAtStart = false := mayBeEmpty
    exact Execution.decisionAt_of_occursAt complete areCharacters permitted

end Present

/-- The leading text of a checked pattern is sound, and exact where it is all of the pattern. Every
match begins with its bytes and consists of them if it is all, unless in UTF-8 mode it begins at a
start offset within a character. If it is all, an anchored execution that may match nothing has a
match just where the bytes stand. All of this holds of every expression with the program, however it
has been studied and limited, unless it is given up. -/
theorem leadingBytes_exact {text : List UInt8} {compileOptions : CompileOptions}
    (compiled : Program.compile text compileOptions = .ok program)
    (checks : compileOptions.noUtf8Check = false) (made : regex.Made)
    (present : regex.program = some program) (subject : Array UInt8) (startOffset : Nat)
    (options : MatchOptions) (valid : program.utf8 = true → Utf8.isValid subject.toList = true) :
    (∀ captures, regex.execAt subject startOffset options = .ok (.matched captures) →
      ∃ span : Span, captures.head? = some (some span) ∧ startOffset ≤ span.start
        ∧ ((program.utf8 = true → span.start = startOffset →
            Utf8.isBoundary subject startOffset = true) →
          regex.leadingBytes.1 <+: span.bytes subject
          ∧ (regex.leadingBytes.2 = true → span.bytes subject = regex.leadingBytes.1)))
    ∧ (regex.leadingBytes.2 = true →
      options.anchored = true ∨ program.pattern.options.anchored = true →
      options.notEmpty = false ∧ options.notEmptyAtStart = false →
      startOffset ≤ subject.size →
      (program.utf8 = true → Utf8.isBoundary subject startOffset = true) →
      regex.execAt subject startOffset options ≠ .error (.error .matchLimit)
        ∧ regex.execAt subject startOffset options ≠ .error (.error .recursionLimit) →
      ((∃ captures, regex.execAt subject startOffset options = .ok (.matched captures)) ↔
        OccursAt subject regex.leadingBytes.1 startOffset)) := by
  have parsed := Program.parse_of_compile compiled
  have areCharacters : Pattern.AreCharacters program.utf8 program.pattern.tree.leadingText.1 :=
    fun character member => Pattern.areCharacters_of_parse parsed checks character
      (Node.subset_literals _ member)
  rw [leadingBytes_eq present]
  exact ⟨fun captures matched => beginsWith_of_execAt made present areCharacters valid matched,
    fun complete anchored mayBeEmpty inside boundary enough =>
      matched_iff_occursAt made present areCharacters valid complete anchored mayBeEmpty inside
        boundary enough⟩

/-- All of `(é)b` is leading text, of three bytes. The match in `aéb` consists of them, and anchored
behind the `a` there is a match. -/
theorem leadingBytes_exact_group :
    ∃ program, Program.compile "(é)b".toUTF8.toList { utf8 := true } = .ok program
      ∧ let regex : Regex := ⟨some program, none, {}⟩
        regex.leadingBytes = ([0xC3, 0xA9, 0x62], true)
        ∧ regex.execAt "aéb".toUTF8.data 0 {} = .ok (.matched [some ⟨1, 4⟩, some ⟨1, 3⟩])
        ∧ (Span.mk 1 4).bytes "aéb".toUTF8.data = [0xC3, 0xA9, 0x62]
        ∧ ∃ captures, regex.execAt "aéb".toUTF8.data 1 { anchored := true } =
          .ok (.matched captures) := by
  have evaluated : ∃ program, Program.compile "(é)b".toUTF8.toList { utf8 := true } = .ok program
      ∧ leadingBytes ⟨some program, none, {}⟩ = ([0xC3, 0xA9, 0x62], true)
      ∧ execAt ⟨some program, none, {}⟩ "aéb".toUTF8.data 0 {} =
        .ok (.matched [some ⟨1, 4⟩, some ⟨1, 3⟩])
      ∧ execAt ⟨some program, none, {}⟩ "aéb".toUTF8.data 1 { anchored := true } ≠
        .error (.error .matchLimit)
      ∧ execAt ⟨some program, none, {}⟩ "aéb".toUTF8.data 1 { anchored := true } ≠
        .error (.error .recursionLimit) :=
    exists_compiled (by decide +kernel)
  rcases evaluated with ⟨program, compiled, leading, matched, enough⟩
  have made : Made ⟨some program, none, {}⟩ := .compiled (compile_of_program compiled)
  have valid : Utf8.isValid "aéb".toUTF8.data.toList = true := by decide +kernel
  have sound := (leadingBytes_exact compiled rfl made rfl "aéb".toUTF8.data 0 {} fun _ => valid).1
  have exact := (leadingBytes_exact compiled rfl made rfl "aéb".toUTF8.data 1 { anchored := true }
    fun _ => valid).2
  rw [leading] at sound exact
  refine ⟨program, compiled, leading, matched, ?_, ?_⟩
  · rcases sound _ matched with ⟨span, first, _, begins⟩
    cases first
    exact (begins fun _ _ => by decide +kernel).2 rfl
  · exact (exact rfl (.inl rfl) ⟨rfl, rfl⟩ (by decide) (fun _ => by decide +kernel) enough).mpr
      (by decide +kernel)

/-- From within a character, as a search may begin whose text is not checked, decoding gives the
byte at the start offset itself. There `©` matches the second byte of `é`, which is not how its own
bytes begin. -/
theorem leading_text_within_character :
    ∃ program, Program.compile "©".toUTF8.toList { utf8 := true } = .ok program
      ∧ leadingBytes ⟨some program, none, {}⟩ = ([0xC2, 0xA9], true)
      ∧ Utf8.isValid [0xC3, 0xA9] = true
      ∧ execAt ⟨some program, none, {}⟩ #[0xC3, 0xA9] 1 { noUtf8Check := true } =
        .ok (.matched [some ⟨1, 2⟩])
      ∧ ¬ [0xC2, 0xA9] <+: (Span.mk 1 2).bytes #[0xC3, 0xA9] :=
  exists_compiled (by decide +kernel)

end Regex

end PerlRegex
