import PerlRegex.Proofs.Execution
import PerlRegex.Proofs.Keeping
import PerlRegex.Proofs.Machine.Safety
namespace PerlRegex

/-! Executions of compiled programs are safe: they use nothing that does not exist, and the spans
that they report lie in the subject the right way round. -/

/-! ## Spans -/

/-- The spans reported for a match in a text of the given size that was looked for from an offset
on. -/
structure Captures.WellFormed (captures : Captures) (groups startOffset size : Nat) : Prop where
  length : captures.length = groups + 1
  whole : ∃ span, captures.head? = some (some span) ∧ startOffset ≤ span.start
  ordered : ∀ span, some span ∈ captures → span.start ≤ span.stop
  inside : ∀ span, some span ∈ captures → span.stop ≤ size

namespace Node

variable {attempt : Machine.Attempt}

/-- A tree changes captures by setting spans that lead forward, and in no other way. -/
theorem related_captures_of_mem_results {related : Captures → Captures → Prop}
    (refl : ∀ captures, related captures captures)
    (trans : ∀ {first second third}, related first second → related second third →
      related first third)
    (set : ∀ captures number start stop, start ≤ stop →
      related captures (captures.set number (some ⟨start, stop⟩)))
    {node : Node (List Nat)} {path result : Path} (member : result ∈ node.results attempt path) :
    related path.captures result.captures := by
  induction node generalizing path result with
  | empty =>
      rw [List.mem_singleton.mp member]
      exact refl _
  | literal | anyCharacter | charSet =>
      rcases Machine.Attempt.mem_results_searchCharacter.mp member with ⟨_, _, _, _, rfl⟩
      exact refl _
  | notNewline =>
      rcases Machine.Attempt.mem_results_searchCharacter.mp
        (Machine.Attempt.mem_results_searchNotNewline member) with ⟨_, _, _, _, rfl⟩
      exact refl _
  | lineBreak =>
      rcases Machine.Attempt.mem_results_searchLineBreak.mp member with ⟨_, _, rfl⟩
      exact refl _
  | assertion condition =>
      rw [(Machine.Attempt.mem_results_searchCondition.mp member).2]
      exact refl _
  | group body induction => exact induction member
  | capture number body induction =>
      rw [results_capture] at member
      rcases List.mem_map.mp member with ⟨inner, innerMember, rfl⟩
      exact trans (induction innerMember)
        (set _ _ _ _ (advances_of_mem_results innerMember).forward)
  | sequence first second firstInduction secondInduction =>
      rw [results_sequence] at member
      rcases List.mem_flatMap.mp member with ⟨middle, middleMember, resultMember⟩
      exact trans (firstInduction middleMember) (secondInduction resultMember)
  | alternation first second firstInduction secondInduction =>
      rw [results_alternation] at member
      rcases List.mem_append.mp member with member | member
      · exact firstInduction member
      · exact secondInduction member
  | repetition body least greatest greedy induction =>
      let relatedPaths : Path → Path → Prop := fun path result =>
        related path.captures result.captures
      have reflPaths : ∀ path, relatedPaths path path := fun path => refl path.captures
      have transPaths : ∀ {first second third}, relatedPaths first second →
          relatedPaths second third → relatedPaths first third := trans
      have bodyRelated : ∀ path, ∀ result ∈ (body.interpret attempt path).results,
          relatedPaths path result := fun _ _ => induction
      rw [results_repetition] at member
      rcases List.mem_flatMap.mp member with ⟨middle, middleMember, resultMember⟩
      have mandatory : relatedPaths path middle :=
        Search.related_exactly reflPaths transPaths bodyRelated _ _ middle middleMember
      have optional : relatedPaths middle result :=
        Search.related_optional reflPaths transPaths bodyRelated _ _ _ _ result resultMember
      exact trans mandatory optional
  | backreference groups caseless =>
      rcases Machine.Attempt.mem_results_searchReference member with
        rfl | ⟨_, _, _, _, _, _, rfl⟩
      · exact refl _
      · exact refl _
  | look direction negated body induction =>
      rcases mem_results_look member with rfl | ⟨_, _, _, seenMember, rfl⟩
      · exact refl _
      · have inner := induction seenMember
        exact inner
  | atomic body induction =>
      rw [results_atomic] at member
      exact induction (List.mem_of_mem_take member)

theorem ordered_of_mem_results {node : Node (List Nat)} {path result : Path}
    (ordered : ∀ span, some span ∈ path.captures → span.start ≤ span.stop)
    (member : result ∈ node.results attempt path) :
    ∀ span, some span ∈ result.captures → span.start ≤ span.stop := by
  let forward : Captures → Prop := fun captures =>
    ∀ span, some span ∈ captures → span.start ≤ span.stop
  let kept : Captures → Captures → Prop := fun captures later => forward captures → forward later
  have keptBySet : ∀ captures number start stop, start ≤ stop →
      kept captures (captures.set number (some ⟨start, stop⟩)) := by
    intro captures number start stop le forward span member
    rcases List.mem_or_eq_of_mem_set member with member | same
    · exact forward span member
    · injection same with same
      rw [same]
      exact le
  have refl : ∀ captures, kept captures captures := fun _ => id
  have trans : ∀ {first second third}, kept first second → kept second third →
      kept first third := fun begun continued forward => continued (begun forward)
  have related : kept path.captures result.captures :=
    related_captures_of_mem_results refl trans keptBySet member
  exact related ordered

end Node

namespace Execution

variable {execution : Execution}

theorem wellFormed_of_decisionAt {start : Nat} {path : Path}
    (inside : start ≤ execution.subject.size)
    (decided : execution.decisionAt start = .matched path) :
    Captures.WellFormed (path.captures.set 0 (some ⟨start, path.position⟩))
      execution.program.pattern.captures start execution.subject.size := by
  have member := Machine.Attempt.mem_results_of_decide decided
  have advances := Node.advances_of_mem_results member
  have allInside := Node.all_of_mem_results (execution.attemptAt start).keeps_inside
    (.of_unset inside) member
  have ordered := Node.ordered_of_mem_results
    (fun span unset => by cases List.eq_of_mem_replicate unset) member
  have length : path.captures.length = execution.program.pattern.captures + 1 :=
    advances.captures.trans List.length_replicate
  constructor
  · rw [List.length_set, length]
  · refine ⟨⟨start, path.position⟩, ?_, Nat.le_refl _⟩
    rw [List.head?_eq_getElem?, List.getElem?_set_self (by omega)]
  · intro span listed
    rcases List.mem_or_eq_of_mem_set listed with listed | same
    · exact ordered span listed
    · injection same with same
      rw [same]
      exact advances.forward
  · intro span listed
    rcases List.mem_or_eq_of_mem_set listed with listed | same
    · exact allInside.stop span listed
    · injection same with same
      rw [same]
      exact allInside.position

/-! ## What an execution comes to -/

/-- What a search comes to by the attempts it makes up to `last`, at positions that satisfy `tried`:
it is given up, or one of them decides for a match, or the first of them that notes the end of the
subject for a partial one, or there is nothing to report. -/
inductive Finds (execution : Execution) (tried : Nat → Prop) (last : Nat) :
    Except ExecError Outcome → Prop
  | exhausted {result : Except ExecError Outcome} :
      Exhausted result → Finds execution tried last result
  | noMatch : Finds execution tried last (.ok .noMatch)
  | matched {start : Nat} {path : Path} : tried start → start ≤ last →
      execution.decisionAt start = .matched path →
      Finds execution tried last
        (.ok (.matched (path.captures.set 0 (some ⟨start, path.position⟩))))
  | cutShort {start : Nat} : tried start → start ≤ last →
      execution.decisionAt start = .cutShort ∨ execution.decisionAt start = .failed true →
      Finds execution tried last (.ok (.cutShort ⟨start, execution.subject.size⟩))

theorem finds_withoutMatch {tried : Nat → Prop} {last : Nat} {cut : Option Nat}
    (noted : ∀ start ∈ cut, tried start ∧ start ≤ last
      ∧ execution.decisionAt start = .failed true) :
    execution.Finds tried last (.ok (execution.withoutMatch cut)) := by
  cases cut with
  | none => exact .noMatch
  | some start =>
      rcases noted start rfl with ⟨tries, upTo, decided⟩
      exact .cutShort tries upTo (.inr decided)

section Search

variable (compiled : Machine.Compiled execution.program) {tried : Nat → Prop}
  (next : ∀ start, tried start → tried (execution.nextStart start))
include compiled next

/-- Whatever its plan, a search comes to what its attempts decide, and to nothing else. -/
theorem finds_search {last start : Nat} (lastInside : last ≤ execution.subject.size)
    (tries : tried start) (budget : Nat) {cut : Option Nat}
    (noted : ∀ start ∈ cut, tried start ∧ start ≤ last
      ∧ execution.decisionAt start = .failed true) :
    execution.Finds tried last (execution.search last start budget cut) := by
  induction gap : execution.subject.size + 1 - start using Nat.strongRecOn
    generalizing start budget cut with
  | ind gap induction =>
      rcases search_cases compiled lastInside start budget cut with
        ended | ⟨inside, step⟩
      · rw [ended]
        exact finds_withoutMatch noted
      have behind : ∀ (left : Nat) {cut : Option Nat},
          (∀ start ∈ cut, tried start ∧ start ≤ last
            ∧ execution.decisionAt start = .failed true) →
          execution.Finds tried last (execution.searchBehind last start left cut) := by
        intro left cut noted
        have later := execution.lt_nextStart start
        rw [searchBehind]
        split
        · exact finds_withoutMatch noted
        · exact induction _ (by omega) (next start tries) left noted rfl
      rcases step with skipped | ⟨exhausted, _⟩ | ⟨_, attempted⟩
      · rw [skipped]
        exact behind budget noted
      · exact .exhausted exhausted
      · rw [attempted]
        cases decided : execution.decisionAt start with
        | matched path => exact .matched tries inside decided
        | cutShort => exact .cutShort tries inside (.inl decided)
        | failed touched =>
            apply behind
            intro noticed member
            cases cut with
            | some earlier => exact noted noticed member
            | none =>
                cases touched with
                | false => cases member
                | true =>
                    injection member with same
                    exact same ▸ ⟨tries, inside, decided⟩

theorem finds_outcome (tries : tried execution.startOffset) :
    (∃ failure, execution.checkSubject = .error failure ∧ execution.outcome = .error failure)
      ∨ execution.Finds tried execution.lastStart execution.outcome := by
  cases checked : execution.checkSubject with
  | error failure => exact .inl ⟨failure, rfl, outcome_of_error checked⟩
  | ok =>
      rw [outcome_of_ok checked]
      exact .inr (finds_search compiled next execution.lastStart_le tries _ (by simp))

end Search

theorem finds_outcome_from (compiled : Machine.Compiled execution.program) :
    (∃ failure, execution.checkSubject = .error failure ∧ execution.outcome = .error failure)
      ∨ execution.Finds (execution.startOffset ≤ ·) execution.lastStart execution.outcome := by
  refine finds_outcome compiled (fun start from_ => ?_) (Nat.le_refl _)
  exact Nat.le_trans from_ (Nat.le_of_lt (execution.lt_nextStart start))

theorem outcome_ne_internal (compiled : Machine.Compiled execution.program) :
    execution.outcome ≠ .error .internal := by
  intro failed
  rcases finds_outcome_from compiled with ⟨failure, refused, same⟩ | finds
  · rw [failed] at same
    cases same
    rcases failure_of_checkSubject refused with ⟨_, impossible | impossible⟩ <;> cases impossible
  · rw [failed] at finds
    cases finds with
    | exhausted exhausted => rcases exhausted with impossible | impossible <;> cases impossible

theorem wellFormed_of_outcome (compiled : Machine.Compiled execution.program)
    {captures : Captures} (matched : execution.outcome = .ok (.matched captures)) :
    Captures.WellFormed captures execution.program.pattern.captures execution.startOffset
      execution.subject.size := by
  rcases finds_outcome_from compiled with ⟨_, _, same⟩ | finds
  · rw [matched] at same
    cases same
  · rw [matched] at finds
    cases finds with
    | exhausted exhausted => exact absurd exhausted (not_exhausted_ok _)
    | matched from_ upTo decided =>
        have inside := Nat.le_trans upTo execution.lastStart_le
        have wellFormed := wellFormed_of_decisionAt inside decided
        rcases wellFormed.whole with ⟨span, whole, le⟩
        exact { wellFormed with whole := ⟨span, whole, Nat.le_trans from_ le⟩ }

end Execution

/-! ## Safety -/

/-- The instructions of a compiled program refer to what there is. In every execution, whatever the
subject, the options, the budgets and the plan, each attempt comes only to states that hold
addresses, slots and registers of the program and positions of the subject, and in which the next
instruction can be executed. So an execution never ends in a fault, and the captures that it
reports are well formed. -/
theorem execute_safe {text : List UInt8} {options : CompileOptions} {program : Program}
    (compiled : Program.compile text options = .ok program) :
    (∀ instruction ∈ program.instructions, instruction.Within program.instructions.size
        program.registers (program.pattern.captures + 1))
      ∧ ∀ (plan : Option Plan) (limits : Limits) (subject : Array UInt8) (startOffset : Nat)
          (matchOptions : MatchOptions),
        let execution : Execution :=
          ⟨program, program.usablePlan plan matchOptions, limits, subject, startOffset,
            matchOptions⟩
        (∀ start ≤ subject.size, ∀ state, (execution.attemptAt start).Reaches state →
          state.address < program.instructions.size ∧ state.Sound program subject.size
            ∧ ∀ final, (execution.attemptAt start).step state ≠ .halt .fault final)
        ∧ program.execute plan limits subject startOffset matchOptions ≠ .error .internal
        ∧ ∀ captures,
          program.execute plan limits subject startOffset matchOptions = .ok (.matched captures) →
          captures.WellFormed program.pattern.captures startOffset subject.size := by
  have made := Machine.Compiled.of_compile compiled
  refine ⟨fun instruction member => made.within member, ?_⟩
  intro plan limits subject startOffset matchOptions execution
  refine ⟨?_, Execution.outcome_ne_internal made, ?_⟩
  · intro start inside state reaches
    exact ⟨reaches.address_lt made inside, reaches.sound made inside,
      reaches.step_ne_fault made inside⟩
  · intro captures matched
    exact Execution.wellFormed_of_outcome made matched

/-- `(?<=(x))(a|.)*\1` looks behind its start and goes on over a stray byte. The attempt behind the
`x` begins in a state where its next instruction can be executed, and of the spans that it sets the
first one lies in front of the match. -/
theorem execute_safe_lookbehind :
    ∃ program, Program.compile "(?<=(x))(a|.)*\\1".toUTF8.toList { utf8 := true } = .ok program
      ∧ (∀ final, (Execution.attemptAt ⟨program, none, {}, #[0x78, 0x61, 0xFF, 0x78], 0,
            { noUtf8Check := true }⟩ 1).step (.initial program 1) ≠ .halt .fault final)
      ∧ program.execute none {} #[0x78, 0x61, 0xFF, 0x78] 0 { noUtf8Check := true } =
        .ok (.matched [some ⟨1, 4⟩, some ⟨0, 1⟩, some ⟨2, 3⟩])
      ∧ Captures.WellFormed [some ⟨1, 4⟩, some ⟨0, 1⟩, some ⟨2, 3⟩]
        program.pattern.captures 0 4 := by
  have evaluated : ∃ program,
      Program.compile "(?<=(x))(a|.)*\\1".toUTF8.toList { utf8 := true } = .ok program
        ∧ program.execute none {} #[0x78, 0x61, 0xFF, 0x78] 0 { noUtf8Check := true } =
          .ok (.matched [some ⟨1, 4⟩, some ⟨0, 1⟩, some ⟨2, 3⟩]) :=
    exists_compiled (by decide +kernel)
  rcases evaluated with ⟨program, compiled, matched⟩
  rcases (execute_safe compiled).2 none {} #[0x78, 0x61, 0xFF, 0x78] 0 { noUtf8Check := true } with
    ⟨steps, _, wellFormed⟩
  exact ⟨program, compiled, (steps 1 (by decide) _ .initial).2.2, matched, wellFormed _ matched⟩

end PerlRegex
