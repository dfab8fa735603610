import PerlRegex.Proofs.Scan
import PerlRegex.Proofs.Template
import PerlRegex.Proofs.Utf8.Texts
import PerlRegex.Replace
namespace PerlRegex

/-! Replacing matches splices a subject: the bytes between the matches stay as they are and where
they are, and each match makes way for its replacement. No byte is lost and none is written twice,
whatever empty, adjacent or final matches there are. -/

/-! ## Spans in order -/

/-- Spans that lie one behind the other, all of them between two positions. -/
inductive Chained : (start : Nat) → List Span → (stop : Nat) → Prop
  | nil {start stop : Nat} : start ≤ stop → Chained start [] stop
  | cons {start stop : Nat} {span : Span} {later : List Span} : start ≤ span.start →
      span.start ≤ span.stop → Chained span.stop later stop → Chained start (span :: later) stop

theorem Chained.le {start stop : Nat} {spans : List Span} (chained : Chained start spans stop) :
    start ≤ stop := by
  induction chained with
  | nil le => exact le
  | cons from_ ordered _ induction => exact Nat.le_trans from_ (Nat.le_trans ordered induction)

namespace Regex

variable {regex : Regex} {subject : Array UInt8} {options : MatchOptions} {offset : Nat}
  {found : List ScannedMatch} {error : Option ExecError}

/-- The matches of a scan lie one behind the other. The scan may go on from behind the end of the
subject, where it finds nothing, so the chain begins at a position in front of its offset. -/
theorem Scans.chained (made : regex.Made)
    (scans : Scans regex subject options offset found error) {reached : Nat}
    (before : reached ≤ offset) (inside : reached ≤ subject.size) :
    Chained reached (found.map (·.span)) subject.size := by
  induction scans generalizing reached with
  | finished | unmatched | failed => exact .nil inside
  | @found offset next captures span later error _ matched whole resumes _ induction =>
      rcases made.follows matched with ⟨other, first, follows⟩
      rw [whole] at first
      cases first
      have beyond := (resumes.beyond follows.ordered).2
      exact .cons (Nat.le_trans before follows.from_) follows.ordered
        (induction beyond follows.inside)

theorem Scans.whole (scans : Scans regex subject options offset found error) :
    ∀ here ∈ found, here.captures[0]?.join = some here.span := by
  induction scans with
  | finished | unmatched | failed => exact fun here member => by cases member
  | @found offset next captures span later error _ _ whole _ _ induction =>
      refine List.forall_mem_cons.mpr ⟨?_, induction⟩
      rw [← List.head?_eq_getElem?, whole]
      rfl

theorem Scans.foldMatches_eq (made : regex.Made)
    (scans : Scans regex subject options 0 found error) (visit : σ → Span → Captures → ForInStep σ)
    (initial : σ) :
    regex.foldMatches subject options visit initial = scanResult visit found error initial :=
  scans.foldMatchesFrom_eq made visit initial (Nat.le_of_eq (Nat.zero_add _).symm)

theorem Scans.findAll_eq (made : regex.Made)
    (scans : Scans regex subject options 0 found error) :
    regex.findAll subject options = collected found error (·.span) := by
  rw [← scanResult_push fun span _ => span, ← scans.foldMatches_eq made]
  rfl

end Regex

/-! ## Splicing -/

/-- What follows a position of a subject, with other bytes in the place of spans. -/
def spliced (subject : Array UInt8) : (reached : Nat) → List (Span × List UInt8) → List UInt8
  | reached, [] => Span.bytes ⟨reached, subject.size⟩ subject
  | reached, (span, bytes) :: later =>
      Span.bytes ⟨reached, span.start⟩ subject ++ bytes ++ spliced subject span.stop later

theorem Span.bytes_append {subject : Array UInt8} {start middle stop : Nat}
    (before : start ≤ middle)
    (behind : middle ≤ stop) :
    Span.bytes ⟨start, middle⟩ subject ++ Span.bytes ⟨middle, stop⟩ subject =
      Span.bytes ⟨start, stop⟩ subject := by
  rw [Span.bytes, Span.bytes, ← Array.toList_append, Array.extract_append_extract,
    Nat.min_eq_left before, Nat.max_eq_right behind]
  rfl

theorem Span.bytes_whole (subject : Array UInt8) :
    Span.bytes ⟨0, subject.size⟩ subject = subject.toList := by
  rw [Span.bytes, Array.extract_size]

theorem spliced_self {subject : Array UInt8} {reached : Nat} {spans : List Span}
    (chained : Chained reached spans subject.size) :
    spliced subject reached (spans.map fun span => (span, span.bytes subject)) =
      Span.bytes ⟨reached, subject.size⟩ subject := by
  generalize size : subject.size = stop at chained
  induction chained with
  | nil => rw [← size]; rfl
  | cons from_ ordered later induction =>
      rw [List.map_cons, spliced, induction size, Span.bytes_append from_ ordered,
        Span.bytes_append (Nat.le_trans from_ ordered) later.le]

namespace Regex

variable {regex : Regex} {subject : Array UInt8} {options : MatchOptions}
  {found : List ScannedMatch} {error : Option ExecError}

def replacements (write : Span → Captures → List UInt8) (found : List ScannedMatch) :
    List (Span × List UInt8) :=
  found.map fun here => (here.span, write here.span here.captures)

theorem visitMatches_replace (write : Span → Captures → List UInt8) (found : List ScannedMatch)
    (replacement : Replacement) :
    ∃ final : Replacement,
      visitMatches (fun (replacement : Replacement) span captures =>
          .yield (replacement.replace subject span (write span captures))) found replacement =
        .yield final
      ∧ final.finish subject = replacement.written.toList
        ++ spliced subject replacement.reached (replacements write found)
      ∧ final.count = replacement.count + found.length := by
  induction found generalizing replacement with
  | nil => exact ⟨replacement, rfl, Array.toList_append, rfl⟩
  | cons here later induction =>
      rcases induction (replacement.replace subject here.span (write here.span here.captures)) with
        ⟨final, visited, finished, count⟩
      refine ⟨final, visited, ?_, ?_⟩
      · rw [finished, replacements, replacements, List.map_cons, spliced]
        simp [Replacement.replace, Span.bytes]
      · rw [count, List.length_cons, Nat.add_comm later.length, ← Nat.add_assoc]
        rfl

theorem Scans.replaceWith_eq (made : regex.Made)
    (scans : Scans regex subject options 0 found error) (write : Span → Captures → List UInt8) :
    regex.replaceWith subject options write =
      match error with
      | some error => .error error
      | none => .ok (spliced subject 0 (replacements write found), found.length) := by
  rcases @visitMatches_replace subject write found .start with ⟨final, visited, finished, count⟩
  rw [replaceWith, scans.foldMatches_eq made, scanResult, visited]
  cases error with
  | some error => rfl
  | none =>
      rw [Replacement.start, Nat.zero_add] at count
      rw [Replacement.start, List.nil_append] at finished
      change Except.ok (final.finish subject, final.count) = _
      rw [finished, count]

theorem expand_whole (regex : Regex) {captures : Captures} {span : Span}
    (whole : captures[0]?.join = some span) :
    Template.expand (.parse "$0".toUTF8.toList) regex subject captures = span.bytes subject := by
  have parsed : Template.parse "$0".toUTF8.toList = [.group 0] := by decide +kernel
  rw [parsed, Template.expand, List.flatMap_singleton]
  dsimp only
  rw [Template.spanOf, whole]
  rfl

theorem Scans.replaceAllTemplate_whole (made : regex.Made)
    (scans : Scans regex subject options 0 found none) :
    regex.replaceAllTemplate subject (.parse "$0".toUTF8.toList) options =
      .ok (subject.toList, (found.map (·.span)).length) := by
  have chained : Chained 0 (found.map (·.span)) subject.size :=
    scans.chained made (Nat.le_refl 0) (Nat.zero_le _)
  have same : replacements (fun _ captures =>
      Template.expand (.parse "$0".toUTF8.toList) regex subject captures) found =
      (found.map (·.span)).map fun span => (span, span.bytes subject) := by
    rw [replacements, List.map_map]
    refine List.map_congr_left fun here member => ?_
    rw [expand_whole regex (scans.whole here member)]
    rfl
  rw [replaceAllTemplate, scans.replaceWith_eq made, same, spliced_self chained, Span.bytes_whole,
    List.length_map]

/-- What becomes of the matches of a subject when they are replaced. -/
structure Splices (regex : Regex) (subject : Array UInt8) (options : MatchOptions)
    (spans : List Span) : Prop where
  /-- All stretches between the matches lie within the subject. -/
  chained : Chained 0 spans subject.size
  bytes : ∀ replacement : List UInt8,
    regex.replaceAll subject replacement options =
      .ok (spliced subject 0 (spans.map (·, replacement)), spans.length)
  text : ∀ transform : String → String,
    regex.replaceAllText subject options transform =
      .ok (spliced subject 0 (spans.map fun span =>
        (span, Utf8.ofText (transform (Utf8.lossyText (span.bytes subject))))), spans.length)
  /-- Every match is replaced once, whatever is written for it. -/
  count : ∀ write : Span → Captures → List UInt8,
    (regex.replaceWith subject options write).map (·.2) = .ok spans.length
  unchanged : regex.replaceAllTemplate subject (.parse "$0".toUTF8.toList) options =
    .ok (subject.toList, spans.length)
  unchangedText : ∀ text : String, subject.toList = Utf8.ofText text →
    (regex.replaceAllTemplate subject (.parse "$0".toUTF8.toList) options).map
      (fun result => Utf8.lossyText result.1) = .ok text

/-- Replacing splices at the spans that a scan finds, and fails with the error of the scan. -/
theorem replaceAll_splices (made : regex.Made) (subject : Array UInt8) (options : MatchOptions) :
    (∀ spans, regex.findAll subject options = .ok spans → Splices regex subject options spans)
      ∧ ∀ error, regex.findAll subject options = .error error →
        ∀ write, regex.replaceWith subject options write = .error error := by
  rcases @exists_scans regex subject options made 0 with ⟨found, failure, scans⟩
  rw [scans.findAll_eq made]
  cases failure with
  | some failure =>
      constructor
      · intro spans impossible
        cases impossible
      · intro error failed write
        cases failed
        rw [scans.replaceWith_eq made]
  | none =>
      refine ⟨fun spans succeeded => ?_, fun error impossible => ?_⟩
      case refine_2 => cases impossible
      cases succeeded
      have chained : Chained 0 (found.map (·.span)) subject.size :=
        scans.chained made (Nat.le_refl 0) (Nat.zero_le _)
      have replaced := fun write => scans.replaceWith_eq made write
      constructor
      case chained => exact chained
      case bytes =>
        intro replacement
        rw [replaceAll, replaced, replacements, List.length_map, List.map_map]
        rfl
      case text =>
        intro transform
        rw [replaceAllText, replaced, replacements, List.length_map, List.map_map]
        rfl
      case count =>
        intro write
        rw [replaced, List.length_map]
        rfl
      case unchanged => exact scans.replaceAllTemplate_whole made
      case unchangedText =>
        intro text stored
        rw [scans.replaceAllTemplate_whole made, stored]
        exact congrArg Except.ok (Utf8.lossyText_ofText text)

/-- `a*` on `baac` has an empty match, one that is not, and an empty one right behind it. With few
instructions `(a+)+b` gives up on `aaaa`, and so does replacing its matches. -/
theorem replaceAll_splices_adjacent :
    ∃ regex, compile "a*".toUTF8.toList {} = .ok regex
      ∧ Splices regex "baac".toUTF8.data {} [⟨0, 0⟩, ⟨1, 3⟩, ⟨3, 3⟩]
      ∧ regex.replaceAll "baac".toUTF8.data "-".toUTF8.toList {} =
        .ok ("-b--c".toUTF8.toList, 3)
      ∧ ∃ failing, compile "(a+)+b".toUTF8.toList {} = .ok failing
        ∧ ∀ write, (failing.setLimits ⟨50, 50⟩).replaceWith "aaaa".toUTF8.data {} write =
          .error .matchLimit := by
  have evaluated : ∃ program, Program.compile "a*".toUTF8.toList {} = .ok program
      ∧ findAll ⟨some program, none, {}⟩ "baac".toUTF8.data {} =
        .ok [⟨0, 0⟩, ⟨1, 3⟩, ⟨3, 3⟩] :=
    exists_compiled (by decide +kernel)
  have evaluatedFailing : ∃ program, Program.compile "(a+)+b".toUTF8.toList {} = .ok program
      ∧ findAll ⟨some program, none, ⟨50, 50⟩⟩ "aaaa".toUTF8.data {} = .error .matchLimit :=
    exists_compiled (by decide +kernel)
  rcases evaluated with ⟨program, compiled, found⟩
  rcases evaluatedFailing with ⟨failingProgram, failingCompiled, failed⟩
  have made := compile_of_program compiled
  have failingMade := compile_of_program failingCompiled
  have splices := (replaceAll_splices (.compiled made) _ _).1 _ found
  refine ⟨_, made, splices, (splices.bytes _).trans (by decide +kernel), _, failingMade, ?_⟩
  exact (replaceAll_splices (.limited _ (.compiled failingMade)) _ _).2 _ failed

end Regex

end PerlRegex
