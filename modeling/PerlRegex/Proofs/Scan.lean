import PerlRegex.Proofs.Regex
import PerlRegex.Proofs.Safety
import PerlRegex.Proofs.Utf8.Decoding
import PerlRegex.Scan
namespace PerlRegex.Regex

/-! A scan goes over its subject from front to back. It finds matches that do not overlap, each by a
search of its own, until a search finds none or the subject is at its end. -/

/-! ## The course of a scan -/

/-- A match that a scan has found, with the offset of the search for it. -/
structure ScannedMatch where
  offset : Nat
  span : Span
  captures : Captures

/-- Where a scan goes on behind a match: where the match ends, or one character further on if the
match is empty. Outside UTF-8 mode every byte is one character. -/
inductive ResumesAt (regex : Regex) (subject : Array UInt8) (span : Span) : Nat → Prop
  | behind : span.start ≠ span.stop → ResumesAt regex subject span span.stop
  | byte : span.start = span.stop → regex.options.utf8 = false →
      ResumesAt regex subject span (span.stop + 1)
  | character {codePoint length : Nat} : span.start = span.stop → regex.options.utf8 = true →
      Utf8.decodeAt subject span.stop = some (codePoint, length) →
      ResumesAt regex subject span (span.stop + length)
  /-- No character is left to go over. -/
  | atEnd : span.start = span.stop → span.stop = subject.size →
      ResumesAt regex subject span (span.stop + 1)

/-- The course of a scan from an offset on: the matches that it finds, one after the other, and the
error of the last search, if it fails. The scan ends where nothing of the subject is left, or with a
search that comes to anything but a full match. -/
inductive Scans (regex : Regex) (subject : Array UInt8) (options : MatchOptions) :
    (offset : Nat) → List ScannedMatch → Option ExecError → Prop
  | finished {offset : Nat} : subject.size ≤ offset → Scans regex subject options offset [] none
  | unmatched {offset : Nat} {outcome : Outcome} : offset < subject.size →
      regex.execAt subject offset options = .ok outcome →
      (∀ captures, outcome ≠ .matched captures) →
      Scans regex subject options offset [] none
  | failed {offset : Nat} {error : ExecError} : offset < subject.size →
      regex.execAt subject offset options = .error (.error error) →
      Scans regex subject options offset [] (some error)
  | found {offset next : Nat} {captures : Captures} {span : Span} {later : List ScannedMatch}
      {error : Option ExecError} : offset < subject.size →
      regex.execAt subject offset options = .ok (.matched captures) →
      captures.head? = some (some span) → ResumesAt regex subject span next →
      Scans regex subject options next later error →
      Scans regex subject options offset (⟨offset, span, captures⟩ :: later) error

def visitMatches (visit : σ → Span → Captures → ForInStep σ) :
    List ScannedMatch → σ → ForInStep σ
  | [], state => .yield state
  | here :: later, state =>
      match visit state here.span here.captures with
      | .done state => .done state
      | .yield state => visitMatches visit later state

/-- What comes of visiting the matches of a scan that may have failed behind the last of them. A
visitor that is done before has no need of the rest. -/
def scanResult (visit : σ → Span → Captures → ForInStep σ) (found : List ScannedMatch)
    (error : Option ExecError) (initial : σ) : Except ExecError σ :=
  match visitMatches visit found initial with
  | .done state => .ok state
  | .yield state =>
      match error with
      | some error => .error error
      | none => .ok state

section Scanning

variable {regex : Regex} {subject : Array UInt8} {options : MatchOptions} {offset : Nat}

/-! ## One search of a scan -/

/-- A match of a search that begins at an offset. -/
structure Follows (subject : Array UInt8) (offset : Nat) (span : Span) : Prop where
  from_ : offset ≤ span.start
  ordered : span.start ≤ span.stop
  inside : span.stop ≤ subject.size

theorem Made.follows (made : regex.Made) {captures : Captures}
    (matched : regex.execAt subject offset options = .ok (.matched captures)) :
    ∃ span, captures.head? = some (some span) ∧ Follows subject offset span := by
  rcases exists_outcome_of_execAt matched with ⟨program, present, ran⟩
  have wellFormed := Execution.wellFormed_of_outcome (made.compiledProgram present) ran
  rcases wellFormed.whole with ⟨span, whole, from_⟩
  have listed : some span ∈ captures := List.mem_of_head? whole
  exact ⟨span, whole, from_, wellFormed.ordered span listed, wellFormed.inside span listed⟩

theorem resumesAt_iff {span : Span} (inside : span.stop ≤ subject.size) {next : Nat} :
    ResumesAt regex subject span next ↔ next = regex.resumeOffset subject span := by
  constructor
  · intro resumes
    cases resumes with
    | behind nonempty => simp [resumeOffset, Span.isEmpty, nonempty]
    | byte empty bytes => simp [resumeOffset, Span.isEmpty, empty, bytes]
    | character empty utf8 decoded => simp [resumeOffset, Span.isEmpty, empty, utf8, decoded]
    | atEnd empty atEnd =>
        have nothingLeft := Utf8.decodeAt_eq_none_iff.mpr (Nat.le_of_eq atEnd.symm)
        simp [resumeOffset, Span.isEmpty, empty, nothingLeft]
  · rintro rfl
    unfold resumeOffset
    by_cases empty : span.start = span.stop
    case neg =>
      rw [if_pos (by simp [Span.isEmpty, empty])]
      exact .behind empty
    case pos =>
      rw [if_neg (by simp [Span.isEmpty, empty])]
      cases utf8 : regex.options.utf8 with
      | false => exact .byte empty utf8
      | true =>
          rw [if_pos rfl]
          cases decoded : Utf8.decodeAt subject span.stop with
          | none =>
              have atEnd := Utf8.decodeAt_eq_none_iff.mp decoded
              exact .atEnd empty (Nat.le_antisymm inside atEnd)
          | some character => exact .character empty utf8 decoded

theorem ResumesAt.beyond {span : Span} {next : Nat} (resumes : ResumesAt regex subject span next)
    (ordered : span.start ≤ span.stop) : span.start < next ∧ span.stop ≤ next := by
  cases resumes with
  | behind nonempty => omega
  | byte => omega
  | character _ _ decoded =>
      have length := (Utf8.length_of_decodeAt decoded).1
      omega
  | atEnd => omega

/-! ## All searches of a scan -/

theorem exists_scans (made : regex.Made) (offset : Nat) :
    ∃ found error, Scans regex subject options offset found error := by
  induction gap : subject.size - offset using Nat.strongRecOn generalizing offset with
  | ind gap induction =>
      rcases Nat.lt_or_ge offset subject.size with inside | beyond
      case inr => exact ⟨[], none, .finished beyond⟩
      have same := @execAt_eq_run regex subject offset (Nat.le_of_lt inside) options
      cases ran : regex.run subject offset options with
      | error error =>
          rw [ran] at same
          exact ⟨[], some error, .failed inside same⟩
      | ok outcome =>
          rw [ran] at same
          cases outcome with
          | noMatch => exact ⟨[], none, .unmatched inside same (by simp)⟩
          | cutShort => exact ⟨[], none, .unmatched inside same (by simp)⟩
          | matched captures =>
              rcases made.follows same with ⟨span, whole, follows⟩
              have resumes : ResumesAt regex subject span (regex.resumeOffset subject span) :=
                (resumesAt_iff follows.inside).mpr rfl
              have onward := (resumes.beyond follows.ordered).1
              have from_ := follows.from_
              rcases induction _ (by omega) (regex.resumeOffset subject span) rfl with
                ⟨later, error, scans⟩
              exact ⟨_, error, .found inside same whole resumes scans⟩

/-- The matches of a scan from an offset on are in order: every one is found from its own offset on
and lies within the subject, behind the one before it. -/
structure InOrder (subject : Array UInt8) (offset : Nat) (found : List ScannedMatch) : Prop where
  follows : ∀ here ∈ found, Follows subject here.offset here.span
  offsets : ∀ here ∈ found, offset ≤ here.offset ∧ here.offset < subject.size
  increasing : found.Pairwise fun earlier later => earlier.offset < later.offset
  disjoint : found.Pairwise fun earlier later => earlier.span.stop ≤ later.span.start
  distinct : (found.map (·.span)).Nodup
  count : found.length ≤ subject.size - offset

theorem InOrder.nil : InOrder subject offset [] where
  follows := by simp
  offsets := by simp
  increasing := .nil
  disjoint := .nil
  distinct := .nil
  count := Nat.zero_le _

theorem InOrder.cons {next : Nat} {later : List ScannedMatch} {here : ScannedMatch}
    (inside : here.offset < subject.size) (follows : Follows subject here.offset here.span)
    (resumes : ResumesAt regex subject here.span next) (inOrder : InOrder subject next later) :
    InOrder subject here.offset (here :: later) := by
  have beyond := resumes.beyond follows.ordered
  have from_ := follows.from_
  have behind : ∀ other ∈ later, here.offset < other.offset
      ∧ here.span.stop ≤ other.span.start ∧ here.span.start < other.span.start := by
    intro other member
    have later := (inOrder.offsets other member).1
    have otherFrom := (inOrder.follows other member).from_
    omega
  constructor
  case follows => exact List.forall_mem_cons.mpr ⟨follows, inOrder.follows⟩
  case offsets =>
    refine List.forall_mem_cons.mpr ⟨⟨Nat.le_refl _, inside⟩, fun other member => ?_⟩
    exact ⟨Nat.le_of_lt (behind other member).1, (inOrder.offsets other member).2⟩
  case increasing => exact .cons (fun other member => (behind other member).1) inOrder.increasing
  case disjoint => exact .cons (fun other member => (behind other member).2.1) inOrder.disjoint
  case distinct =>
    refine List.nodup_cons.mpr ⟨fun repeated => ?_, inOrder.distinct⟩
    rcases List.mem_map.mp repeated with ⟨other, member, same⟩
    have later := (behind other member).2.2
    rw [same] at later
    exact Nat.lt_irrefl _ later
  case count =>
    have count := inOrder.count
    rw [List.length_cons]
    omega

theorem Scans.inOrder (made : regex.Made) {found : List ScannedMatch} {error : Option ExecError}
    (scans : Scans regex subject options offset found error) :
    InOrder subject offset found := by
  induction scans with
  | finished => exact .nil
  | unmatched => exact .nil
  | failed => exact .nil
  | @found offset next captures span later error inside matched whole resumes _ induction =>
      rcases made.follows matched with ⟨other, first, follows⟩
      rw [whole] at first
      cases first
      let here : ScannedMatch := ⟨offset, span, captures⟩
      have hereFollows : Follows subject here.offset here.span := follows
      exact induction.cons inside hereFollows resumes

/-! ## What a scan reports -/

theorem run_of_execAt_ok {outcome : Outcome}
    (ran : regex.execAt subject offset options = .ok outcome) :
    regex.run subject offset options = .ok outcome := by
  rcases exists_outcome_of_execAt ran with ⟨program, present, ended⟩
  rw [run_eq_outcome present, ended]

/-- Every match moves the scan on by at least one byte, so a budget of as many matches as there are
bytes left never ends it. -/
theorem Scans.foldMatchesFrom_eq (made : regex.Made) {found : List ScannedMatch}
    {error : Option ExecError} (scans : Scans regex subject options offset found error)
    (visit : σ → Span → Captures → ForInStep σ) (state : σ) {budget : Nat}
    (enough : subject.size ≤ offset + budget) :
    regex.foldMatchesFrom subject options visit budget offset state =
      scanResult visit found error state := by
  induction scans generalizing budget state with
  | finished beyond =>
      cases budget with
      | zero => rfl
      | succ budget =>
          rw [foldMatchesFrom, if_pos beyond]
          rfl
  | @unmatched offset outcome inside ran unmatched =>
      cases budget with
      | zero => omega
      | succ budget =>
          rw [foldMatchesFrom, if_neg (Nat.not_le_of_lt inside), run_of_execAt_ok ran]
          cases outcome with
          | matched captures => exact absurd rfl (unmatched captures)
          | noMatch => rfl
          | cutShort => rfl
  | @failed offset error inside failed =>
      cases budget with
      | zero => omega
      | succ budget =>
          rw [foldMatchesFrom, if_neg (Nat.not_le_of_lt inside)]
          rw [execAt_eq_run (Nat.le_of_lt inside)] at failed
          cases ran : regex.run subject offset options with
          | ok outcome =>
              rw [ran] at failed
              cases failed
          | error other =>
              rw [ran] at failed
              cases failed
              rfl
  | @found offset next captures span later error inside matched whole resumes scans induction =>
      cases budget with
      | zero => omega
      | succ budget =>
          rw [foldMatchesFrom, if_neg (Nat.not_le_of_lt inside), run_of_execAt_ok matched]
          rcases made.follows matched with ⟨other, first, follows⟩
          rw [whole] at first
          cases first
          have next_eq := (resumesAt_iff follows.inside).mp resumes
          have onward := (resumes.beyond follows.ordered).1
          have from_ := follows.from_
          have rest := fun state => @induction state budget (by omega)
          simp only [whole, Option.join_some, scanResult, visitMatches]
          cases visited : visit state span captures with
          | done final => rfl
          | yield onwards =>
              dsimp only
              rw [← next_eq, rest onwards]
              rfl

def collected (found : List ScannedMatch) (error : Option ExecError)
    (part : ScannedMatch → ρ) : Except ExecError (List ρ) :=
  match error with
  | some error => .error error
  | none => .ok (found.map part)

theorem visitMatches_push (part : Span → Captures → ρ) (found : List ScannedMatch)
    (collected : Array ρ) :
    visitMatches (fun collected span captures => .yield (collected.push (part span captures)))
        found collected =
      .yield (collected ++ found.map fun here => part here.span here.captures) := by
  induction found generalizing collected with
  | nil => simp [visitMatches]
  | cons here later induction =>
      rw [visitMatches]
      dsimp only
      rw [induction]
      simp

theorem scanResult_push (part : Span → Captures → ρ) (found : List ScannedMatch)
    (error : Option ExecError) :
    (scanResult (fun collected span captures => .yield (collected.push (part span captures)))
        found error #[]).map Array.toList =
      collected found error fun here => part here.span here.captures := by
  rw [scanResult, visitMatches_push]
  cases error with
  | none => simp [collected, Except.map]
  | some error => rfl

/-- A scan from the front of its subject comes to an end, and it reports everything that it comes
across: matches in order, at most one for each byte of the subject, each found from where the match
before it was left. An error of any of its searches is the result of the whole, unless a visitor is
done before. -/
theorem foldMatches_exhaustive (made : regex.Made) (subject : Array UInt8)
    (options : MatchOptions) :
    ∃ found error, Scans regex subject options 0 found error
      ∧ InOrder subject 0 found
      ∧ (∀ (σ : Type) (visit : σ → Span → Captures → ForInStep σ) (initial : σ),
        regex.foldMatches subject options visit initial = scanResult visit found error initial)
      ∧ regex.findAll subject options = collected found error (·.span)
      ∧ regex.capturesAll subject options = collected found error (·.captures) := by
  rcases @exists_scans regex subject options made 0 with ⟨found, error, scans⟩
  have folds : ∀ (σ : Type) (visit : σ → Span → Captures → ForInStep σ) (initial : σ),
      regex.foldMatches subject options visit initial = scanResult visit found error initial :=
    fun σ visit initial => scans.foldMatchesFrom_eq made visit initial (by omega)
  refine ⟨found, error, scans, scans.inOrder made, folds, ?_, ?_⟩
  · rw [← scanResult_push fun span _ => span, ← folds]
    rfl
  · rw [← scanResult_push fun _ captures => captures, ← folds]
    rfl

end Scanning

/-- `x*` on `é`, a stray byte and `x`, unchecked: two empty matches, each left by a whole character,
and one that is not. -/
theorem foldMatches_exhaustive_stray_byte :
    ∃ regex, compile "x*".toUTF8.toList { utf8 := true } = .ok regex
      ∧ ∃ found, Scans regex #[0xC3, 0xA9, 0xFF, 0x78] { noUtf8Check := true } 0 found none
        ∧ InOrder #[0xC3, 0xA9, 0xFF, 0x78] 0 found
        ∧ found.map (·.span) = [⟨0, 0⟩, ⟨2, 2⟩, ⟨3, 4⟩] := by
  have evaluated : ∃ program, Program.compile "x*".toUTF8.toList { utf8 := true } = .ok program
      ∧ findAll ⟨some program, none, {}⟩ #[0xC3, 0xA9, 0xFF, 0x78] { noUtf8Check := true } =
        .ok [⟨0, 0⟩, ⟨2, 2⟩, ⟨3, 4⟩] :=
    exists_compiled (by decide +kernel)
  rcases evaluated with ⟨program, compiled, spans⟩
  have made := compile_of_program compiled
  refine ⟨_, made, ?_⟩
  rcases foldMatches_exhaustive (.compiled made) #[0xC3, 0xA9, 0xFF, 0x78]
    { noUtf8Check := true } with ⟨found, error, scans, inOrder, _, found_eq, _⟩
  rw [spans] at found_eq
  cases error with
  | some error => cases found_eq
  | none =>
      injection found_eq with same
      exact ⟨found, scans, inOrder, same.symm⟩

end PerlRegex.Regex
