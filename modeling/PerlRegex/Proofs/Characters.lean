import Mathlib.Data.List.ReduceOption
import PerlRegex.Proofs.Between
import PerlRegex.Proofs.Regex
import PerlRegex.Proofs.Safety
import PerlRegex.Proofs.Template
import PerlRegex.Proofs.Utf8.Texts
import PerlRegex.Replace
import PerlRegex.Split
namespace PerlRegex

/-! In UTF-8 mode everything that is reported about a well-formed subject begins and ends between
characters. So no text is lost or changed when bytes are turned into texts. -/

/-! ## Spans -/

/-- A span of a subject that begins and ends between characters. -/
structure Span.BetweenCharacters (span : Span) (subject : Array UInt8) : Prop where
  ordered : span.start ≤ span.stop
  inside : span.stop ≤ subject.size
  start : Utf8.isBoundary subject span.start = true
  stop : Utf8.isBoundary subject span.stop = true

def Outcome.spans : Outcome → List Span
  | .noMatch => []
  | .matched captures => captures.reduceOption
  | .cutShort span => [span]

/-- Bytes that a text can stand for: no character of theirs is replaced when they are read. -/
def Utf8.ReadExactly (bytes : List UInt8) : Prop := Utf8.ofText (Utf8.lossyText bytes) = bytes

namespace Span.BetweenCharacters

variable {span : Span} {subject : Array UInt8}

theorem textOf (between : span.BetweenCharacters subject) :
    Regex.textOf? subject span = some (Utf8.lossyText (span.bytes subject)) := by
  simp [Regex.textOf?, between.ordered, between.inside, between.start, between.stop]

variable (formed : Utf8.WellFormed subject.toList)
include formed

theorem between_start (between : span.BetweenCharacters subject) :
    Utf8.Between subject span.start :=
  Utf8.between_of_isBoundary formed (Nat.le_trans between.ordered between.inside) between.start

theorem between_stop (between : span.BetweenCharacters subject) :
    Utf8.Between subject span.stop :=
  Utf8.between_of_isBoundary formed between.inside between.stop

theorem wellFormed (between : span.BetweenCharacters subject) :
    Utf8.WellFormed (span.bytes subject) :=
  (between.between_start formed).wellFormed_extract (between.between_stop formed)

end Span.BetweenCharacters

/-! ## Executions -/

namespace Execution

variable {execution : Execution}

theorem betweenCharacters_of_outcome (compiled : Machine.Compiled execution.program)
    (utf8 : execution.program.utf8 = true) (formed : Utf8.WellFormed execution.subject.toList)
    (boundary : Utf8.isBoundary execution.subject execution.startOffset = true)
    {outcome : Outcome} (found : execution.outcome = .ok outcome) :
    ∀ span ∈ outcome.spans, span.BetweenCharacters execution.subject := by
  have next : ∀ start, Utf8.isBoundary execution.subject start = true →
      Utf8.isBoundary execution.subject (execution.nextStart start) = true := by
    intro start _
    rw [nextStart, if_pos utf8]
    exact isBoundary_nextBoundary _ _
  rcases finds_outcome compiled next boundary with ⟨_, _, same⟩ | finds
  · rw [found] at same
    cases same
  rw [found] at finds
  cases finds with
  | exhausted exhausted => exact absurd exhausted (not_exhausted_ok _)
  | noMatch => exact fun span member => by cases member
  | @cutShort start tries upTo =>
      intro span member
      rw [List.mem_singleton.mp member]
      have atEnd : Utf8.isBoundary execution.subject execution.subject.size = true := by
        simp [Utf8.isBoundary]
      exact ⟨Nat.le_trans upTo execution.lastStart_le, Nat.le_refl _, tries, atEnd⟩
  | @matched start path tries upTo decided =>
      intro span member
      have listed := List.reduceOption_mem_iff.mp member
      have inside := Nat.le_trans upTo execution.lastStart_le
      have wellFormed := wellFormed_of_decisionAt inside decided
      have begins : (execution.attemptAt start).Between start := fun _ =>
        Utf8.between_of_isBoundary formed inside tries
      have all := Node.all_of_mem_results (Machine.Attempt.keeps_between compiled.lines)
        (.of_unset begins) (Machine.Attempt.mem_results_of_decide decided)
      refine ⟨wellFormed.ordered span listed, wellFormed.inside span listed, ?_, ?_⟩
      · rcases List.mem_or_eq_of_mem_set listed with listed | same
        · exact (all.start span listed utf8).isBoundary
        · injection same with same
          exact same ▸ tries
      · rcases List.mem_or_eq_of_mem_set listed with listed | same
        · exact (all.stop span listed utf8).isBoundary
        · injection same with same
          rw [same]
          exact (all.position utf8).isBoundary

theorem checkSubject_of_boundary
    (valid : Utf8.isValid execution.subject.toList = true)
    (boundary : Utf8.isBoundary execution.subject execution.startOffset = true) :
    execution.checkSubject = .ok () := by
  have wellFormed := Option.isNone_iff_eq_none.mp valid
  rw [checkSubject, wellFormed, boundary]
  split <;> rfl

theorem exhausted_of_boundary (compiled : Machine.Compiled execution.program)
    (valid : Utf8.isValid execution.subject.toList = true)
    (boundary : Utf8.isBoundary execution.subject execution.startOffset = true)
    {failure : ExecError} (failed : execution.outcome = .error failure) :
    Exhausted (.error failure) := by
  rcases finds_outcome_from compiled with ⟨_, refused, _⟩ | finds
  · rw [checkSubject_of_boundary valid boundary] at refused
    cases refused
  · rw [failed] at finds
    cases finds with
    | exhausted exhausted => exact exhausted

end Execution

/-! ## Splitting -/

/-- A subject that has been split between characters so far. -/
structure Splitting.BetweenCharacters (splitting : Splitting) (subject : Array UInt8) : Prop where
  pieces : ∀ piece ∈ splitting.pieces, Utf8.WellFormed (piece.bytes subject)
  pieceStart : Utf8.Between subject splitting.pieceStart

namespace Splitting.BetweenCharacters

variable {splitting : Splitting} {subject : Array UInt8}

theorem start (formed : Utf8.WellFormed subject.toList) :
    Splitting.start.BetweenCharacters subject where
  pieces := fun piece member => by cases Array.not_mem_empty piece member
  pieceStart := Utf8.between_zero formed

theorem splitAt (good : splitting.BetweenCharacters subject) (most : Option Nat) {span : Span}
    (start : Utf8.Between subject span.start) (stop : Utf8.Between subject span.stop) :
    (splitting.splitAt most span).value.BetweenCharacters subject := by
  unfold Splitting.splitAt
  split
  · exact good
  · split
    · exact good
    · refine ⟨fun piece member => ?_, stop⟩
      change piece ∈ (if span.stop = 0 then splitting.pieces
        else splitting.pieces.push ⟨splitting.pieceStart, span.start⟩) at member
      split at member
      · exact good.pieces piece member
      · rcases Array.mem_push.mp member with member | rfl
        · exact good.pieces piece member
        · exact good.pieceStart.wellFormed_extract start

theorem finish (good : splitting.BetweenCharacters subject)
    (formed : Utf8.WellFormed subject.toList) :
    ∀ piece ∈ splitting.finish subject, Utf8.WellFormed (piece.bytes subject) := by
  intro piece member
  unfold Splitting.finish at member
  rw [Array.mem_toList_iff] at member
  split at member
  · exact good.pieces piece member
  · rcases Array.mem_push.mp member with member | rfl
    · exact good.pieces piece member
    · exact good.pieceStart.wellFormed_extract (Utf8.between_size formed)

end Splitting.BetweenCharacters

/-! ## Scans -/

namespace Regex

variable {program : Program} {plan : Option Plan} {limits : Limits} {subject : Array UInt8}

/-- Everything that a regular expression reports about a subject lies between characters, if it is
asked to begin there, and it does not refuse to. -/
structure RunsBetween (regex : Regex) (subject : Array UInt8) (options : MatchOptions) : Prop where
  utf8 : regex.options.utf8 = true
  formed : Utf8.WellFormed subject.toList
  spans : ∀ {startOffset outcome}, Utf8.isBoundary subject startOffset = true →
    regex.run subject startOffset options = .ok outcome →
    ∀ span ∈ outcome.spans, span.BetweenCharacters subject
  failures : ∀ {startOffset failure}, Utf8.isBoundary subject startOffset = true →
    regex.run subject startOffset options = .error failure →
    failure = .matchLimit ∨ failure = .recursionLimit

theorem runsBetween_of_compiled (compiled : Machine.Compiled program) (utf8 : program.utf8 = true)
    (valid : Utf8.isValid subject.toList = true) (options : MatchOptions) :
    RunsBetween ⟨some program, plan, limits⟩ subject options where
  utf8 := utf8
  formed := Utf8.wellFormed_of_isValid valid
  spans := by
    intro startOffset outcome boundary found
    rw [run_eq_outcome rfl] at found
    have formed := Utf8.wellFormed_of_isValid valid
    exact Execution.betweenCharacters_of_outcome compiled utf8 formed boundary found
  failures := by
    intro startOffset failure boundary failed
    rw [run_eq_outcome rfl] at failed
    rcases Execution.exhausted_of_boundary compiled valid boundary failed with same | same
    · injection same with same
      exact .inl same
    · injection same with same
      exact .inr same

/-- A scan comes to a state that satisfies a condition, unless it is given up. -/
def Completes (good : σ → Prop) : Except ExecError σ → Prop
  | .ok final => good final
  | .error failure => failure = .matchLimit ∨ failure = .recursionLimit

theorem Completes.exists_of_map {good : σ → Prop} {scan : Except ExecError σ} {finish : σ → τ}
    {result : τ} (completes : Completes good scan)
    (finished : (do return finish (← scan)) = (.ok result : Except ExecError τ)) :
    ∃ final, good final ∧ finish final = result := by
  cases scan with
  | error failure => cases finished
  | ok final =>
      injection finished with same
      exact ⟨final, completes, same⟩

namespace RunsBetween

variable {regex : Regex} {options : MatchOptions} (runs : regex.RunsBetween subject options)
include runs

theorem isBoundary_resumeOffset {span : Span} (between : span.BetweenCharacters subject) :
    Utf8.isBoundary subject (regex.resumeOffset subject span) = true := by
  unfold resumeOffset
  rw [if_pos runs.utf8]
  split
  · exact between.stop
  · rcases Nat.lt_or_ge span.stop subject.size with before | atEnd
    · rcases (between.between_stop runs.formed).decodeAt before with
        ⟨_, _, _, _, _, decoded, next⟩
      rw [decoded]
      exact next.isBoundary
    · have beyond : subject.size ≤ span.stop + (Utf8.decodeAt subject span.stop).elim 1 (·.2) :=
        Nat.le_trans atEnd (Nat.le_add_right _ _)
      simp [Utf8.isBoundary, Array.getElem?_eq_none beyond]

/-- What holds of the state of a scan to begin with, and is kept by every visit to a match between
characters, holds in the end. -/
theorem foldMatchesFrom_keeps {visit : σ → Span → Captures → ForInStep σ} {good : σ → Prop}
    (visits : ∀ state span captures, good state → span.BetweenCharacters subject →
      (∀ group, some group ∈ captures → group.BetweenCharacters subject) →
      good (visit state span captures).value)
    {offset : Nat} (boundary : Utf8.isBoundary subject offset = true) {state : σ}
    (start : good state) (budget : Nat) :
    Completes good (regex.foldMatchesFrom subject options visit budget offset state) := by
  induction budget generalizing offset state with
  | zero => exact start
  | succ budget induction =>
      rw [foldMatchesFrom]
      split
      · exact start
      · cases ran : regex.run subject offset options with
        | error failure => exact runs.failures boundary ran
        | ok outcome =>
            have spans := runs.spans boundary ran
            cases outcome with
            | noMatch => exact start
            | cutShort span => exact start
            | matched captures =>
                have groups : ∀ group, some group ∈ captures → group.BetweenCharacters subject :=
                  fun group listed => spans group (List.reduceOption_mem_iff.mpr listed)
                dsimp only
                cases first : captures.head?.join with
                | none => exact start
                | some span =>
                    have whole := groups span
                      (List.mem_of_head? (Option.join_eq_some_iff.mp first))
                    have visited := visits state span captures start whole groups
                    dsimp only
                    cases step : visit state span captures with
                    | done final =>
                        rw [step] at visited
                        exact visited
                    | yield next =>
                        rw [step] at visited
                        exact induction (runs.isBoundary_resumeOffset whole) visited

theorem foldMatches_keeps (good : σ → Prop) (visit : σ → Span → Captures → ForInStep σ)
    (visits : ∀ state span captures, good state → span.BetweenCharacters subject →
      (∀ group, some group ∈ captures → group.BetweenCharacters subject) →
      good (visit state span captures).value)
    {initial : σ} (start : good initial) :
    Completes good (regex.foldMatches subject options visit initial) :=
  runs.foldMatchesFrom_keeps visits (by simp [Utf8.isBoundary]) start _

theorem foldMatches_ne_badUtf8 (visit : σ → Span → Captures → ForInStep σ) (initial : σ)
    (offset : Nat) :
    regex.foldMatches subject options visit initial ≠ .error (.badUtf8 offset)
      ∧ regex.foldMatches subject options visit initial ≠ .error (.badUtf8Offset offset) := by
  have completes : Completes (fun _ => True) (regex.foldMatches subject options visit initial) :=
    runs.foldMatches_keeps _ visit (fun _ _ _ _ _ _ => trivial) trivial
  constructor
  · intro failed
    rw [failed] at completes
    rcases completes with impossible | impossible <;> cases impossible
  · intro failed
    rw [failed] at completes
    rcases completes with impossible | impossible <;> cases impossible

/-! ## Texts -/

theorem readExactly_of_findAll {spans : List Span}
    (found : regex.findAll subject options = .ok spans) :
    ∀ span ∈ spans, Utf8.ReadExactly (span.bytes subject) := by
  let good : Array Span → Prop := fun spans => ∀ span ∈ spans, span.BetweenCharacters subject
  have start : good #[] := fun span member => by cases Array.not_mem_empty span member
  have completes := runs.foldMatches_keeps good (fun found span _ => .yield (found.push span))
    (by
      intro found span _ good between _ other member
      rcases Array.mem_push.mp member with member | rfl
      · exact good other member
      · exact between)
    start
  rcases completes.exists_of_map found with ⟨final, between, rfl⟩
  intro span member
  exact ((between span (Array.mem_toList_iff.mp member)).wellFormed runs.formed).ofText_lossyText

theorem wellFormed_of_replaceWith {write : Span → Captures → List UInt8}
    (writes : ∀ span captures, (∀ group, some group ∈ captures → group.BetweenCharacters subject) →
      Utf8.WellFormed (write span captures))
    {result : List UInt8 × Nat}
    (replaced : regex.replaceWith subject options write = .ok result) :
    Utf8.WellFormed result.1 := by
  let good : Replacement → Prop := fun replacement =>
    Utf8.WellFormed replacement.written.toList ∧ Utf8.Between subject replacement.reached
  have start : good .start := ⟨.nil, Utf8.between_zero runs.formed⟩
  have completes := runs.foldMatches_keeps good
    (fun replacement span captures =>
      .yield (replacement.replace subject span (write span captures)))
    (by
      intro replacement span captures good between groups
      refine ⟨?_, between.between_stop runs.formed⟩
      have kept := good.2.wellFormed_extract (between.between_start runs.formed)
      have written := (good.1.append kept).append (writes span captures groups)
      simpa [Replacement.replace] using written)
    start
  rcases completes.exists_of_map replaced with ⟨final, ⟨written, reached⟩, rfl⟩
  have finished := written.append (reached.wellFormed_extract (Utf8.between_size runs.formed))
  simpa [Replacement.finish] using finished

theorem readExactly_of_split {limit : Int} {pieces : List Span}
    (parted : regex.split subject limit options = .ok pieces) :
    ∀ piece ∈ pieces, Utf8.ReadExactly (piece.bytes subject) := by
  unfold split at parted
  split at parted
  · cases parted
    exact fun piece member => by cases member
  · split at parted
    · cases parted
      intro piece member
      rw [List.mem_singleton.mp member]
      have empty : Span.bytes ⟨0, 0⟩ subject = [] := by simp [Span.bytes]
      rw [empty]
      exact Utf8.WellFormed.nil.ofText_lossyText
    · extract_lets most at parted
      have completes := runs.foldMatches_keeps (Splitting.BetweenCharacters · subject)
        (fun (splitting : Splitting) span _ => splitting.splitAt most span)
        (fun splitting span _ good between _ =>
          good.splitAt most (between.between_start runs.formed) (between.between_stop runs.formed))
        (.start runs.formed)
      rcases completes.exists_of_map parted with ⟨final, good, rfl⟩
      exact fun piece member => (good.finish runs.formed piece member).ofText_lossyText

/-! ## Single matches -/

theorem betweenCharacters_of_firstCaptures {captures : Captures}
    (found : regex.firstCaptures subject options = some captures) :
    ∀ span, some span ∈ captures → span.BetweenCharacters subject := by
  unfold firstCaptures at found
  split at found
  · rename_i matched
    injection found with same
    have spans := runs.spans (by simp [Utf8.isBoundary]) matched
    rw [← same]
    exact fun span listed => spans span (List.reduceOption_mem_iff.mpr listed)
  · cases found

end RunsBetween

variable {regex : Regex}

theorem find_eq (runs : ∀ options, regex.RunsBetween subject options) :
    regex.find subject =
      (regex.findSpan subject {}).map fun span => Utf8.lossyText (span.bytes subject) := by
  unfold find
  cases found : regex.findSpan subject {} with
  | none => rfl
  | some span =>
      unfold findSpan at found
      rcases Option.bind_eq_some_iff.mp found with ⟨captures, first, whole⟩
      have listed := List.mem_of_head? (Option.join_eq_some_iff.mp whole)
      exact ((runs {}).betweenCharacters_of_firstCaptures first span listed).textOf

theorem captures_eq (runs : ∀ options, regex.RunsBetween subject options) :
    regex.captures subject =
      (regex.firstCaptures subject {}).map fun captures =>
        captures.map fun group => group.map fun span => Utf8.lossyText (span.bytes subject) := by
  unfold Regex.captures
  cases found : regex.firstCaptures subject {} with
  | none => rfl
  | some captures =>
      have between := (runs {}).betweenCharacters_of_firstCaptures found
      refine congrArg some (List.map_congr_left fun group member => ?_)
      cases group with
      | none => rfl
      | some span => exact (between span member).textOf

end Regex

/-! ## Characters stay whole -/

/-- What a regular expression tells about a subject goes by characters. The spans that are reported
lie between them, and no group that took part is left out for lying otherwise. No search of a scan
refuses the subject or the offset where it begins. And where bytes are turned into a text, none of
them has to be replaced. -/
structure Regex.KeepsCharacters (regex : Regex) (subject : Array UInt8) : Prop where
  spans : ∀ (startOffset : Nat) (options : MatchOptions) (outcome : Outcome),
    Utf8.isBoundary subject startOffset = true →
    regex.run subject startOffset options = .ok outcome →
    ∀ span ∈ outcome.spans, span.BetweenCharacters subject
  find : regex.find subject =
    (regex.findSpan subject {}).map fun span => Utf8.lossyText (span.bytes subject)
  captures : regex.captures subject =
    (regex.firstCaptures subject {}).map fun captures =>
      captures.map fun group => group.map fun span => Utf8.lossyText (span.bytes subject)
  scans : ∀ (σ : Type) (options : MatchOptions) (visit : σ → Span → Captures → ForInStep σ)
    (initial : σ) (offset : Nat),
    regex.foldMatches subject options visit initial ≠ .error (.badUtf8 offset)
      ∧ regex.foldMatches subject options visit initial ≠ .error (.badUtf8Offset offset)
  findAll : ∀ (options : MatchOptions) (spans : List Span),
    regex.findAll subject options = .ok spans →
    ∀ span ∈ spans, Utf8.ReadExactly (span.bytes subject)
  replaceAll : ∀ (options : MatchOptions) (replacement : List UInt8) (result : List UInt8 × Nat),
    Utf8.isValid replacement = true →
    regex.replaceAll subject replacement options = .ok result → Utf8.ReadExactly result.1
  replaceAllTemplate : ∀ (options : MatchOptions) (template : List UInt8)
    (result : List UInt8 × Nat), Utf8.isValid template = true →
    regex.replaceAllTemplate subject (Template.parse template) options = .ok result →
    Utf8.ReadExactly result.1
  split : ∀ (limit : Int) (options : MatchOptions) (pieces : List Span),
    regex.split subject limit options = .ok pieces →
    ∀ piece ∈ pieces, Utf8.ReadExactly (piece.bytes subject)

/-- In UTF-8 mode, whatever the pattern, the plan and the limits, every well-formed subject is
matched by whole characters. -/
theorem keepsCharacters_of_utf8 {text : List UInt8} {options : CompileOptions} {program : Program}
    (compiled : Program.compile text options = .ok program) (utf8 : program.utf8 = true)
    (plan : Option Plan) (limits : Limits) {subject : Array UInt8}
    (valid : Utf8.isValid subject.toList = true) :
    Regex.KeepsCharacters ⟨some program, plan, limits⟩ subject := by
  have runs : ∀ matchOptions, Regex.RunsBetween ⟨some program, plan, limits⟩ subject matchOptions :=
    Regex.runsBetween_of_compiled (.of_compile compiled) utf8 valid
  have formed := Utf8.wellFormed_of_isValid valid
  constructor
  case spans => exact fun _ matchOptions _ boundary ran => (runs matchOptions).spans boundary ran
  case find => exact Regex.find_eq runs
  case captures => exact Regex.captures_eq runs
  case scans => exact fun _ matchOptions => (runs matchOptions).foldMatches_ne_badUtf8
  case findAll => exact fun matchOptions _ found => (runs matchOptions).readExactly_of_findAll found
  case replaceAll =>
      intro matchOptions replacement result replacementValid replaced
      have write := Utf8.wellFormed_of_isValid replacementValid
      exact ((runs matchOptions).wellFormed_of_replaceWith (fun _ _ _ => write)
        replaced).ofText_lossyText
  case replaceAllTemplate =>
      intro matchOptions template result templateValid replaced
      have write := Utf8.wellFormed_of_isValid templateValid
      refine ((runs matchOptions).wellFormed_of_replaceWith (fun _ captures groups => ?_)
        replaced).ofText_lossyText
      exact Template.wellFormed_expand_parse _
        (fun span listed => (groups span listed).wellFormed formed) write
  case split =>
      exact fun _ matchOptions _ parted => (runs matchOptions).readExactly_of_split parted

/-- `(?<=(é))(?:x|(ü))+` on `éüx`: the first group is set while looking behind the match, the second
one in the last iteration but one. Both letters take two bytes. -/
theorem keepsCharacters_accented :
    ∃ program, Program.compile "(?<=(é))(?:x|(ü))+".toUTF8.toList { utf8 := true } = .ok program
      ∧ program.execute none {} "éüx".toUTF8.data 0 {} =
        .ok (.matched [some ⟨2, 5⟩, some ⟨0, 2⟩, some ⟨2, 4⟩])
      ∧ (∀ span ∈ [Span.mk 2 5, ⟨0, 2⟩, ⟨2, 4⟩], span.BetweenCharacters "éüx".toUTF8.data)
      ∧ Regex.KeepsCharacters ⟨some program, none, {}⟩ "éüx".toUTF8.data := by
  have evaluated : ∃ program,
      Program.compile "(?<=(é))(?:x|(ü))+".toUTF8.toList { utf8 := true } = .ok program
        ∧ program.utf8 = true
        ∧ program.execute none {} "éüx".toUTF8.data 0 {} =
          .ok (.matched [some ⟨2, 5⟩, some ⟨0, 2⟩, some ⟨2, 4⟩]) :=
    exists_compiled (by decide +kernel)
  rcases evaluated with ⟨program, compiled, utf8, matched⟩
  have valid : Utf8.isValid "éüx".toUTF8.data.toList = true := by decide +kernel
  have keeps := keepsCharacters_of_utf8 compiled utf8 none {} valid
  exact ⟨program, compiled, matched, keeps.spans 0 {} _ (by decide +kernel) matched, keeps⟩

end PerlRegex
