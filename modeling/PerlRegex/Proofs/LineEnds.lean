import PerlRegex.Proofs.Caseless
import PerlRegex.Proofs.Lines
import PerlRegex.Proofs.Utf8.WellFormed
namespace PerlRegex

/-! A newline is recognised by where it begins and by where it ends, and the two tests do not share
any of their work. In a well-formed text they recognise the same newlines. -/

/-! ## Newlines in a text -/

/-- Whether a byte is a newline by itself. -/
def Newline.isSingle : Newline → UInt8 → Bool
  | .lf, byte => byte = 0x0A
  | .cr, byte => byte = 0x0D
  | .crLf, _ => false
  | .anyCrLf, byte => byte = 0x0A || byte = 0x0D
  | .any, byte => 0x0A ≤ byte && byte ≤ 0x0D

/-- Whether a CR and the LF behind it are one newline. -/
def Newline.joinsCrLf : Newline → Bool
  | .lf | .cr => false
  | .crLf | .anyCrLf | .any => true

section Beyond

variable {byte : UInt8} (beyond : 0x80 ≤ byte)
include beyond

theorem ne_cr_of_beyond : byte ≠ 0x0D := by
  rintro rfl
  exact absurd beyond (by decide)

theorem Newline.isSingle_of_beyond (newline : Newline) : newline.isSingle byte = false := by
  have bounds : ¬ byte ≤ 0x0D := fun le => absurd (UInt8.le_trans beyond le) (by decide)
  have other : ∀ single ≤ 0x0D, byte ≠ single := fun single le same => bounds (same ▸ le)
  have notLf := other 0x0A (by decide)
  have notCr := other 0x0D (by decide)
  cases newline <;> simp [Newline.isSingle, bounds, notLf, notCr]

end Beyond

namespace LineRules

/-- A newline stands in a text between two positions. -/
inductive NewlineStands (rules : LineRules) (text : Array UInt8) : (start stop : Nat) → Prop
  | single {start : Nat} {byte : UInt8} : text[start]? = some byte →
      rules.newline.isSingle byte = true →
      ¬ (rules.newline.joinsCrLf = true ∧ byte = 0x0D ∧ text[start + 1]? = some 0x0A) →
      NewlineStands rules text start (start + 1)
  | crLf {start : Nat} : rules.newline.joinsCrLf = true → text[start]? = some 0x0D →
      text[start + 1]? = some 0x0A → NewlineStands rules text start (start + 2)
  | wide {start length : Nat} : rules.newline = .any →
      rules.unicodeBreakAt? text start = some length →
      NewlineStands rules text start (start + length)

variable {rules : LineRules} {text : Array UInt8} {start stop position length : Nat}

/-- No byte of a line break beyond ASCII is an ASCII character, and in a well-formed text it has
three bytes at most. -/
structure WideBreak (text : Array UInt8) (start length : Nat) : Prop where
  positive : 1 ≤ length
  short : length ≤ 3
  first : ∃ byte, text[start]? = some byte ∧ 0x80 ≤ byte
  last : ∃ byte, text[start + length - 1]? = some byte ∧ 0x80 ≤ byte

theorem wideBreak_of_encodes {codePoint : Nat} {lead : UInt8} {front tail rest : List UInt8}
    (encodes : Utf8.Encodes codePoint lead tail)
    (listed : [0x85, 0x2028, 0x2029].contains codePoint = true)
    (same : text.toList = front ++ lead :: (tail ++ rest)) :
    WideBreak text front.length (tail.length + 1) := by
  -- None of the three is a single byte in UTF-8, and none needs four.
  have bounds : 0x80 ≤ codePoint ∧ codePoint < 0x10000 := by
    simp only [List.contains_cons, List.contains_nil, Bool.or_false, Bool.or_eq_true,
      beq_iff_eq] at listed
    omega
  have size := encodes.length
  rw [Utf8.encodedLength, if_neg (by omega), if_pos bounds.2] at size
  have wide : tail ≠ [] := by
    intro alone
    rw [alone, List.length_nil] at size
    split at size <;> omega
  have member := List.getLast_mem wide
  have leadBounds := Utf8.announcedLength_eq lead
  rw [encodes.announced] at leadBounds
  have tailLength := List.length_pos_iff.mpr wide
  constructor
  case positive => omega
  case short => split at size <;> omega
  case first =>
    refine ⟨lead, Utf8.getElem?_front_length same, ?_⟩
    rw [UInt8.le_iff_toNat_le]
    split at leadBounds
    · omega
    · exact Nat.le_trans (by decide : (0x80 : UInt8).toNat ≤ 0xC2) (Nat.le_of_not_lt ‹_›)
  case last =>
    refine ⟨tail.getLast wide, ?_, ?_⟩
    · rw [← Array.getElem?_toList, same, List.getElem?_append_right (by omega),
        show front.length + (tail.length + 1) - 1 - front.length = tail.length - 1 + 1 by omega,
        List.getElem?_cons_succ, List.getElem?_append_left (by omega),
        List.getLast_eq_getElem, List.getElem?_eq_getElem]
    · rw [UInt8.le_iff_toNat_le]
      exact (Utf8.isContinuation_iff.mp (encodes.continues _ member)).1

theorem wideBreak_of_unicodeBreakAt
    (formed : rules.utf8 = true → Utf8.WellFormed text.toList)
    (found : rules.unicodeBreakAt? text start = some length) : WideBreak text start length := by
  rcases unicodeBreakAt_eq_some_iff.mp found with
    ⟨utf8, codePoint, decoded, listed, wide⟩ | ⟨_, present, rfl⟩
  · have inside : start < text.size := by
      have := Utf8.length_of_decodeAt decoded
      omega
    have present := Array.getElem?_eq_getElem inside
    -- A continuation byte is taken for a character by itself, and a wide one is longer.
    cases continues : Utf8.isContinuation text[start] with
    | true =>
        rw [Utf8.decodeAt_of_isContinuation present continues] at decoded
        cases decoded
        omega
    | false =>
        have boundary : Utf8.isBoundary text start = true := by
          simp [Utf8.isBoundary, present, continues]
        rcases Utf8.between_of_isBoundary (formed utf8) (Nat.le_of_lt inside) boundary with
          ⟨front, back, same, there, _, backFormed⟩
        cases backFormed with
        | nil =>
            have whole := congrArg List.length same
            rw [List.append_nil, Array.length_toList] at whole
            omega
        | cons encodes _ =>
            rw [← there, Utf8.decodeAt_of_encodes encodes same] at decoded
            cases decoded
            exact there ▸ wideBreak_of_encodes encodes listed same
  · exact ⟨by decide, by decide, ⟨_, present, by decide⟩, ⟨_, present, by decide⟩⟩

/-! ## Recognising newlines -/

theorem newlineAt_of_present {byte : UInt8} (present : text[start]? = some byte) :
    rules.newlineAt? text start =
      if rules.newline.joinsCrLf = true ∧ byte = 0x0D ∧ text[start + 1]? = some 0x0A then some 2
      else if rules.newline.isSingle byte = true then some 1
      else if rules.newline = .any then rules.unicodeBreakAt? text start
      else none := by
  have control : 0x0A ≤ byte ∧ byte ≤ 0x0D ↔ byte = 0x0D ∨ 0x0A ≤ byte ∧ byte ≤ 0x0C := by
    simp only [UInt8.le_iff_toNat_le, ← UInt8.toNat_inj]
    change 10 ≤ byte.toNat ∧ byte.toNat ≤ 13 ↔
      byte.toNat = 13 ∨ 10 ≤ byte.toNat ∧ byte.toNat ≤ 12
    omega
  rw [newlineAt?, present]
  by_cases cr : byte = 0x0D <;> by_cases followed : text[start + 1]? = some 0x0A <;>
    cases rules.newline <;>
    simp [Newline.joinsCrLf, Newline.isSingle, control, cr, followed]

theorem newlineEndsAt_iff_of_present {byte : UInt8} (positive : 0 < stop)
    (present : text[stop - 1]? = some byte) :
    rules.newlineEndsAt text stop = true ↔
      (rules.newline.isSingle byte = true
        ∧ ¬ (rules.newline.joinsCrLf = true ∧ byte = 0x0D ∧ text[stop]? = some 0x0A))
      ∨ (rules.newline.joinsCrLf = true ∧ byte = 0x0A ∧ 2 ≤ stop ∧ text[stop - 2]? = some 0x0D)
      ∨ (rules.newline = .any ∧ ¬ (byte = 0x0D ∧ text[stop]? = some 0x0A)
        ∧ ∃ length ∈ [1, 2, 3], length ≤ stop
          ∧ rules.unicodeBreakAt? text (stop - length) = some length) := by
  rw [newlineEndsAt, if_neg (Nat.ne_of_gt positive), present]
  by_cases lf : byte = 0x0A <;> by_cases followed : text[stop]? = some 0x0A <;>
    cases rules.newline <;>
    simp [Newline.joinsCrLf, Newline.isSingle, lf, followed]
  grind

theorem newlineAt_iff (formed : rules.utf8 = true → Utf8.WellFormed text.toList) :
    rules.newlineAt? text start = some length ↔
      NewlineStands rules text start (start + length) := by
  constructor
  · intro found
    cases present : text[start]? with
    | none =>
        rw [newlineAt?, present] at found
        cases found
    | some byte =>
        rw [newlineAt_of_present present] at found
        split at found
        · rename_i joined
          cases found
          exact .crLf joined.1 (joined.2.1 ▸ present) joined.2.2
        · rename_i apart
          split at found
          · cases found
            exact .single present ‹_› apart
          · split at found
            · exact .wide ‹_› found
            · cases found
  · intro stands
    generalize there : start + length = stop at stands
    cases stands with
    | single present single apart =>
        rw [newlineAt_of_present present, if_neg apart, if_pos single,
          Nat.add_left_cancel there]
    | crLf joins cr lf =>
        rw [newlineAt_of_present cr, if_pos ⟨joins, rfl, lf⟩, Nat.add_left_cancel there]
    | wide any found =>
        rcases (wideBreak_of_unicodeBreakAt formed found).first with ⟨byte, present, beyond⟩
        have notCr := ne_cr_of_beyond beyond
        have notSingle := Bool.eq_false_iff.mp (rules.newline.isSingle_of_beyond beyond)
        rw [newlineAt_of_present present, if_neg fun joined => notCr joined.2.1,
          if_neg notSingle, if_pos any, found, Nat.add_left_cancel there]

theorem newlineEndsAt_iff (formed : rules.utf8 = true → Utf8.WellFormed text.toList) :
    rules.newlineEndsAt text stop = true ↔ ∃ start, NewlineStands rules text start stop := by
  constructor
  · intro ends
    have positive : 0 < stop := by
      rw [newlineEndsAt] at ends
      split at ends
      · cases ends
      · omega
    cases present : text[stop - 1]? with
    | none =>
        rw [newlineEndsAt, if_neg (Nat.ne_of_gt positive), present] at ends
        cases ends
    | some byte =>
        rcases (newlineEndsAt_iff_of_present positive present).mp ends with
          ⟨single, apart⟩ | ⟨joins, lf, room, cr⟩ | ⟨any, _, length, _, room, found⟩
        · have there : stop - 1 + 1 = stop := Nat.sub_add_cancel positive
          have stands := NewlineStands.single present single (there.symm ▸ apart)
          rw [there] at stands
          exact ⟨stop - 1, stands⟩
        · have there : stop - 2 + 1 = stop - 1 := by omega
          have stands := NewlineStands.crLf joins cr (there.symm ▸ lf ▸ present)
          rw [Nat.sub_add_cancel room] at stands
          exact ⟨stop - 2, stands⟩
        · have stands := NewlineStands.wide any found
          rw [Nat.sub_add_cancel room] at stands
          exact ⟨stop - length, stands⟩
  · rintro ⟨start, stands⟩
    cases stands with
    | single present single apart =>
        exact (newlineEndsAt_iff_of_present (Nat.succ_pos _) present).mpr (.inl ⟨single, apart⟩)
    | crLf joins cr lf =>
        exact (newlineEndsAt_iff_of_present (Nat.succ_pos _) lf).mpr
          (.inr (.inl ⟨joins, rfl, by omega, cr⟩))
    | @wide length any found =>
        have bounds := wideBreak_of_unicodeBreakAt formed found
        rcases bounds.last with ⟨byte, present, beyond⟩
        have positive := bounds.positive
        have short := bounds.short
        refine (newlineEndsAt_iff_of_present (by omega) present).mpr (.inr (.inr ⟨any, ?_, length,
          ?_, by omega, ?_⟩))
        · exact fun half => ne_cr_of_beyond beyond half.1
        · simp only [List.mem_cons, List.not_mem_nil, or_false]
          omega
        · rw [Nat.add_sub_cancel]
          exact found

theorem NewlineStands.lt (formed : rules.utf8 = true → Utf8.WellFormed text.toList)
    (stands : NewlineStands rules text start stop) : start < stop := by
  cases stands with
  | single | crLf => omega
  | wide _ found =>
      have positive := (wideBreak_of_unicodeBreakAt formed found).positive
      omega

end LineRules

/-! ## The tests of the machine -/

namespace Machine.Attempt

variable {attempt : Attempt} {state : State} (before : state.position < attempt.subject.size)
include before

theorem execute_assertion_iff {condition : Assertion} :
    attempt.execute state (.assertion condition) = state.advance state.position ↔
      attempt.holds state.position condition = true := by
  have settled : attempt.asksForMore state condition = false := by
    rw [asksForMore, decide_eq_false (Nat.ne_of_lt before), Bool.false_and]
  rw [execute, test_of_not_asks settled, goOnIf]
  split
  · exact iff_of_true rfl ‹_›
  · exact iff_of_false (state.fail_ne_advance _) ‹_›

theorem execute_notNewline_iff :
    attempt.execute state .notNewline = state.fail ↔
      (attempt.program.pattern.lineRules.newlineAt? attempt.subject state.position).isSome
        = true := by
  rw [execute]
  split
  · exact iff_of_true rfl ‹_›
  · refine iff_of_false ?_ ‹_›
    rcases present : attempt.characterAt state.position with _ | ⟨character, length⟩
    · exact absurd (characterAt_eq_none_iff.mp present) (Nat.not_le_of_lt before)
    · rw [consume_of_some present, if_pos rfl]
      exact (state.fail_ne_advance _).symm

end Machine.Attempt

/-- Whatever ends a line, in a text that is well formed in UTF-8 mode a newline ends at a position
if and only if one that begins in front of it reaches up to it. Therefore the `^` of multiline mode
holds within a subject exactly where a newline ends that the `$` of that mode, `.` and `\N` see
where it begins: there `$` holds, and the other two do not match. -/
theorem newlines_agree (rules : LineRules) (text : Array UInt8)
    (valid : rules.utf8 = true → Utf8.isValid text.toList = true) :
    (∀ position ≤ text.size, rules.newlineEndsAt text position = true ↔
      ∃ start < position, rules.newlineAt? text start = some (position - start))
    ∧ ∀ (attempt : Machine.Attempt) (state : Machine.State),
      attempt.program.pattern.lineRules = rules → attempt.subject = text →
      state.position < text.size →
      (0 < state.position →
        (attempt.execute state (.assertion (.lineStart true)) = state.advance state.position ↔
          ∃ start < state.position,
            rules.newlineAt? text start = some (state.position - start)))
      ∧ (∀ endOnly,
        attempt.execute state (.assertion (.lineEnd true endOnly)) = state.advance state.position ↔
          ∃ length, rules.newlineAt? text state.position = some length)
      ∧ (attempt.execute state .notNewline = state.fail ↔
          ∃ length, rules.newlineAt? text state.position = some length) := by
  have formed := fun utf8 => Utf8.wellFormed_of_isValid (valid utf8)
  have agree : ∀ position, rules.newlineEndsAt text position = true ↔
      ∃ start < position, rules.newlineAt? text start = some (position - start) := by
    intro position
    rw [LineRules.newlineEndsAt_iff formed]
    refine exists_congr fun start => ?_
    rw [LineRules.newlineAt_iff formed]
    constructor
    · intro stands
      have lt := stands.lt formed
      rw [Nat.add_sub_cancel' (Nat.le_of_lt lt)]
      exact ⟨lt, stands⟩
    · rintro ⟨lt, stands⟩
      rw [Nat.add_sub_cancel' (Nat.le_of_lt lt)] at stands
      exact stands
  refine ⟨fun position _ => agree position, ?_⟩
  rintro attempt state rfl rfl before
  refine ⟨fun positive => ?_, fun endOnly => ?_, ?_⟩
  · rw [Machine.Attempt.execute_assertion_iff before, Machine.Attempt.holds,
      if_neg (Nat.ne_of_gt positive), decide_eq_true before, Bool.and_true, Bool.true_and,
      agree state.position]
  · rw [Machine.Attempt.execute_assertion_iff before, Machine.Attempt.holds,
      if_neg (Nat.ne_of_lt before), Option.isSome_iff_exists]
  · rw [Machine.Attempt.execute_notNewline_iff before, Option.isSome_iff_exists]

/-- Where any newline counts, the LINE SEPARATOR between a CRLF and `b` ends at 6, and `^` holds
there. -/
theorem newlines_agree_line_separator :
    ∃ program, Program.compile "(*ANY)(?m)^b".toUTF8.toList { utf8 := true } = .ok program
      ∧ let subject := #[0x61, 0x0D, 0x0A, 0xE2, 0x80, 0xA8, 0x62]
        let attempt := Execution.attemptAt ⟨program, none, {}, subject, 0, {}⟩ 6
        let state := Machine.State.initial program 6
        attempt.execute state (.assertion (.lineStart true)) = state.advance 6 := by
  have evaluated : ∃ program,
      Program.compile "(*ANY)(?m)^b".toUTF8.toList { utf8 := true } = .ok program
        ∧ program.pattern.lineRules = ⟨.any, .unicode, true⟩ :=
    exists_compiled (by decide +kernel)
  rcases evaluated with ⟨program, compiled, rules⟩
  refine ⟨program, compiled, ?_⟩
  let subject : Array UInt8 := #[0x61, 0x0D, 0x0A, 0xE2, 0x80, 0xA8, 0x62]
  have tests := (newlines_agree ⟨.any, .unicode, true⟩ subject fun _ => by decide +kernel).2
    (Execution.attemptAt ⟨program, none, {}, subject, 0, {}⟩ 6) (.initial program 6) rules rfl
    (by decide : 6 < 7)
  have ends : LineRules.newlineAt? ⟨.any, .unicode, true⟩ subject 3 = some 3 := by decide +kernel
  exact (tests.1 (by decide : 0 < 6)).mpr ⟨3, (by decide : 3 < 6), ends⟩

end PerlRegex
