import PerlRegex.Proofs.Pattern.Placement
import PerlRegex.Proofs.Pattern.Shifting
import PerlRegex.Proofs.Transparency.Texts

/-! A pattern may begin with a group of flags, such as `(?im)`. What stands behind the group is read
as it would be on its own, with the options that the flags stand for. -/

namespace PerlRegex

/-! ## Invalid text -/

namespace Utf8

theorem invalidOffsetFrom_shift (distance offset : Nat) (bytes : List UInt8) :
    invalidOffsetFrom? (distance + offset) bytes =
      (invalidOffsetFrom? offset bytes).map (distance + ·) := by
  fun_induction invalidOffsetFrom? offset bytes with
  | case1 offset =>
      rw [invalidOffsetFrom?]
      rfl
  | case2 offset lead rest following read =>
      rw [invalidOffsetFrom?, read]
      rfl
  | case3 offset lead rest codePoint following read induction =>
      rw [invalidOffsetFrom?, read]
      simp only [Nat.add_assoc] at induction ⊢
      exact induction

theorem invalidOffsetFrom_append {front : List UInt8} (ascii : AllAscii front) (offset : Nat)
    (bytes : List UInt8) :
    invalidOffsetFrom? offset (front ++ bytes) =
      invalidOffsetFrom? (front.length + offset) bytes := by
  induction front generalizing offset with
  | nil => rw [List.nil_append, List.length_nil, Nat.zero_add]
  | cons lead front induction =>
      have read : readStrict lead (front ++ bytes) = (some lead.toNat, 0) := if_pos ascii.head
      rw [List.cons_append, invalidOffsetFrom?, read]
      dsimp only
      rw [List.drop_zero, induction ascii.tail, List.length_cons]
      congr 1
      omega

theorem invalidOffset_append {front : List UInt8} (ascii : AllAscii front) (bytes : List UInt8) :
    invalidOffset? (front ++ bytes) = (invalidOffset? bytes).map (front.length + ·) :=
  (invalidOffsetFrom_append ascii 0 bytes).trans (invalidOffsetFrom_shift _ 0 bytes)

end Utf8

/-! ## Flags -/

/-- The flags that a pattern may set for itself. -/
inductive InlineFlag where
  | caseless
  | multiline
  | dotAll
  | extended
  | ungreedy
  | duplicateNames
  deriving DecidableEq, Repr

namespace InlineFlag

def letter : InlineFlag → Char
  | caseless => 'i'
  | multiline => 'm'
  | dotAll => 's'
  | extended => 'x'
  | ungreedy => 'U'
  | duplicateNames => 'J'

def letters (added : List InlineFlag) : List UInt8 := added.map fun flag => flag.letter.toUInt8

/-- The text that sets flags for what follows it. -/
def group (added : List InlineFlag) : List UInt8 := 0x28 :: 0x3F :: (letters added ++ [0x29])

end InlineFlag

def CompileOptions.withFlags (options : CompileOptions) (added : List InlineFlag) :
    CompileOptions :=
  { options with
    caseless := options.caseless || added.contains .caseless
    multiline := options.multiline || added.contains .multiline
    dotAll := options.dotAll || added.contains .dotAll
    extended := options.extended || added.contains .extended
    ungreedy := options.ungreedy || added.contains .ungreedy
    duplicateNames := options.duplicateNames || added.contains .duplicateNames }

namespace Pattern

namespace Flags

def withFlags (flags : Flags) (added : List InlineFlag) : Flags where
  caseless := flags.caseless || added.contains .caseless
  multiline := flags.multiline || added.contains .multiline
  dotAll := flags.dotAll || added.contains .dotAll
  extended := flags.extended || added.contains .extended
  ungreedy := flags.ungreedy || added.contains .ungreedy
  duplicateNames := flags.duplicateNames || added.contains .duplicateNames

variable (flags : Flags)

theorem withFlags_nil : flags.withFlags [] = flags := by
  simp only [withFlags, List.contains_nil, Bool.or_false]

theorem set_letter (flag : InlineFlag) :
    flags.set? true flag.letter = some (flags.withFlags [flag]) := by
  cases flag <;> simp [set?, InlineFlag.letter, withFlags]

theorem withFlags_cons (flag : InlineFlag) (added : List InlineFlag) :
    (flags.withFlags [flag]).withFlags added = flags.withFlags (flag :: added) := by
  simp [withFlags, Bool.or_assoc]

end Flags

section Reading

variable (flags : Flags) (added : List InlineFlag) (text : List UInt8)

theorem readFlags_letters (start offset : Nat) :
    readFlags flags true (InlineFlag.letters added ++ 0x29 :: text) start offset =
      .ok (.setFlags (flags.withFlags added), offset + added.length - start) := by
  induction added generalizing flags offset with
  | nil =>
      rw [Flags.withFlags_nil]
      rfl
  | cons flag added induction =>
      have step : ∀ rest, readFlags flags true (flag.letter.toUInt8 :: rest) start offset =
          (flags.set? true flag.letter).elim (refuse .unrecognizedGroupSyntax offset)
            fun changed => readFlags changed true rest start (offset + 1) := by
        intro rest
        cases flag <;> rfl
      have read := step (InlineFlag.letters added ++ 0x29 :: text)
      rw [Flags.set_letter, Option.elim_some] at read
      refine read.trans ?_
      rw [induction, Flags.withFlags_cons, List.length_cons, Nat.add_right_comm, Nat.add_assoc]

theorem readPiece_group (settings : Settings) (state : State) (offset : Nat) :
    readPiece settings state 0x28 (0x3F :: (InlineFlag.letters added ++ 0x29 :: text)) offset =
      .ok ({ state with flags := state.flags.withFlags added, quantifiable := false },
        added.length + 2) := by
  have visible : ∀ rest, blankLength? state 0x28 rest = none := by
    intro rest
    unfold blankLength?
    cases state.flags.extended <;> rfl
  have opening : readSpecialOpening state.flags (InlineFlag.letters added ++ 0x29 :: text) offset =
      readFlags state.flags true (InlineFlag.letters added ++ 0x29 :: text) offset
        (offset + 2) := by
    cases added with
    | nil => rfl
    | cons flag added => cases flag <;> rfl
  have opened : readOpening settings state.flags
      (0x3F :: (InlineFlag.letters added ++ 0x29 :: text)) offset =
      .ok (.setFlags (state.flags.withFlags added), added.length + 2) := by
    refine opening.trans ?_
    rw [readFlags_letters]
    congr 2
    omega
  unfold readPiece
  rw [visible]
  exact congrArg (· >>= _) opened

theorem length_group : (InlineFlag.group added).length = added.length + 3 := by
  simp [InlineFlag.group, InlineFlag.letters]

/-- Behind the group of flags the pattern is read as it would be on its own with the flags set. -/
theorem readPieces_group (settings : Settings) :
    readPieces settings (.start flags) (InlineFlag.group added ++ text) 0 =
      (readPieces settings (.start (flags.withFlags added)) text 0).shift
        (InlineFlag.group added).length (State.shift (InlineFlag.group added).length) := by
  have shape : InlineFlag.group added ++ text =
      0x28 :: 0x3F :: (InlineFlag.letters added ++ 0x29 :: text) := by
    simp [InlineFlag.group]
  have rest :
      (0x3F :: (InlineFlag.letters added ++ 0x29 :: text)).drop (added.length + 2) = text := by
    simp [InlineFlag.letters, List.drop_append]
  have length : 0 + 1 + (added.length + 2) = (InlineFlag.group added).length + 0 := by
    rw [length_group]
    omega
  rw [shape, readPieces, readPiece_group]
  dsimp only
  rw [rest, length, ← readPieces_shift]
  rfl

/-! ## Whole patterns -/

theorem ascii_of_mem_group {byte : UInt8} (member : byte ∈ InlineFlag.group added) :
    byte ≠ 0 ∧ byte < 0x80 := by
  simp only [InlineFlag.group, InlineFlag.letters, List.mem_cons, List.mem_append, List.mem_map,
    List.not_mem_nil, or_false] at member
  rcases member with rfl | rfl | ⟨flag, _, rfl⟩ | rfl
  · decide
  · decide
  · cases flag <;> decide
  · decide

theorem findIdx_nul_group :
    (InlineFlag.group added ++ text).findIdx? (· == 0) =
      (text.findIdx? (· == 0)).map ((InlineFlag.group added).length + ·) := by
  have none : (InlineFlag.group added).findIdx? (· == 0) = none :=
    List.findIdx?_eq_none_iff.mpr fun byte member =>
      beq_eq_false_iff_ne.mpr (ascii_of_mem_group added member).1
  rw [List.findIdx?_append, none, Option.none_or]
  exact congrArg (Option.map · _) (funext fun offset => Nat.add_comm _ _)

variable (options : CompileOptions)

theorem checkUtf8_group :
    checkUtf8 options (InlineFlag.group added ++ text) =
      (checkUtf8 (options.withFlags added) text).shift (InlineFlag.group added).length id := by
  have ascii : Utf8.AllAscii (InlineFlag.group added) :=
    fun byte member => (ascii_of_mem_group added member).2
  have utf8 : (options.withFlags added).utf8 = options.utf8 := rfl
  have unchecked : (options.withFlags added).noUtf8Check = options.noUtf8Check := rfl
  rw [checkUtf8, checkUtf8, utf8, unchecked, Utf8.invalidOffset_append ascii]
  split
  · cases Utf8.invalidOffset? text <;> rfl
  · rfl

theorem readVerbs_of_not_isPrefix {text : List UInt8} (plain : ¬ [0x28, 0x2A] <+: text) :
    readVerbs options text 0 = .ok (options, 0) := by
  have unnamed : verbName? text = none := by
    rw [verbName?, if_neg]
    intro begins
    rcases Bool.and_eq_true_iff.mp begins with ⟨opens, starred⟩
    rcases exists_of_startsWith opens with ⟨first, rest, rfl, isOpening⟩
    rcases exists_of_startsWith starred with ⟨second, rest, rfl, isStar⟩
    rw [byte_of_ofUInt8 isOpening, byte_of_ofUInt8 isStar] at plain
    exact plain ⟨rest, rfl⟩
  cases text with
  | nil => rw [readVerbs]
  | cons byte rest => rw [readVerbs, unnamed]

theorem not_isPrefix_group : ¬ [0x28, 0x2A] <+: InlineFlag.group added ++ text := by
  rintro ⟨rest, impossible⟩
  cases impossible

theorem lineRulesOf_eq_error {failure : ReadFailure}
    (failed : lineRulesOf options = .error failure) :
    ∃ cause, failure = .fault cause 0 ∧ cause.kind = .inconsistentOptions := by
  unfold lineRulesOf at failed
  split at failed
  · cases failed
    exact ⟨_, rfl, rfl⟩
  · split at failed
    · cases failed
      exact ⟨_, rfl, rfl⟩
    · cases failed
      exact ⟨_, rfl, rfl⟩
    · cases failed

variable (plain : ¬ [0x28, 0x2A] <+: text)
include plain

theorem parse_group_of_consistent {rules : LineRules}
    (consistent : lineRulesOf options = .ok rules) :
    parse (InlineFlag.group added ++ text) options =
      (parse text (options.withFlags added)).shift (InlineFlag.group added).length
        fun pattern => { pattern with options := options } := by
  have sameRules : lineRulesOf (options.withFlags added) = .ok rules := consistent
  rw [parse, parse, findIdx_nul_group]
  cases text.findIdx? (· == 0) with
  | some offset => rfl
  | none =>
      dsimp only [Option.map_none]
      rw [readVerbs_of_not_isPrefix _ (not_isPrefix_group added text),
        readVerbs_of_not_isPrefix _ plain]
      change (lineRulesOf options >>= fun lineRules => _) =
        Reading.shift _ _ (lineRulesOf (options.withFlags added) >>= fun lineRules => _)
      rw [consistent, sameRules]
      change (checkUtf8 options (InlineFlag.group added ++ text) >>= fun _ => _) =
        Reading.shift _ _ (checkUtf8 (options.withFlags added) text >>= fun _ => _)
      rw [checkUtf8_group]
      refine Reading.shift_bind fun _ => ?_
      rw [List.drop_zero, List.drop_zero, readPieces_group]
      refine Reading.shift_bind fun state => ?_
      rw [State.finish_shift]
      refine Reading.shift_bind fun tree => ?_
      rw [resolve_shift]
      exact Reading.shift_bind fun resolved => rfl

theorem parse_group_of_inconsistent {failure : ReadFailure}
    (absent : text.findIdx? (· == 0) = none)
    (inconsistent : lineRulesOf options = .error failure) :
    parse (InlineFlag.group added ++ text) options = .error failure
      ∧ parse text (options.withFlags added) = .error failure := by
  have fails : ∀ next : LineRules → Reading Pattern,
      (lineRulesOf options >>= next) = .error failure := by
    intro next
    rw [inconsistent]
    rfl
  rw [parse, parse, findIdx_nul_group, absent]
  dsimp only [Option.map_none]
  rw [readVerbs_of_not_isPrefix _ (not_isPrefix_group added text),
    readVerbs_of_not_isPrefix _ plain]
  exact ⟨fails _, fails _⟩

/-- A pattern behind a group of flags is read as on its own with the options of the flags: to the
same tree, groups and line rules. If it is not read at all, then for the same cause, which is
reported behind the group where it is reported in the pattern. Options that cannot be reconciled are
reported at the front in both cases. -/
theorem parse_group :
    match parse text (options.withFlags added) with
    | .ok pattern =>
        parse (InlineFlag.group added ++ text) options = .ok { pattern with options := options }
    | .error (.fault cause offset) =>
        parse (InlineFlag.group added ++ text) options =
            .error (.fault cause ((InlineFlag.group added).length + offset))
          ∨ cause.kind = .inconsistentOptions ∧ offset = 0
            ∧ parse (InlineFlag.group added ++ text) options = .error (.fault cause 0)
    | .error .overflow => parse (InlineFlag.group added ++ text) options = .error .overflow := by
  cases rules : lineRulesOf options with
  | ok lineRules =>
      rw [parse_group_of_consistent added text options plain rules]
      cases parse text (options.withFlags added) with
      | ok pattern => rfl
      | error failure =>
          cases failure with
          | fault cause offset => exact .inl rfl
          | overflow => rfl
  | error failure =>
      rcases lineRulesOf_eq_error options rules with ⟨cause, rfl, inconsistent⟩
      cases absent : text.findIdx? (· == 0) with
      | none =>
          rcases parse_group_of_inconsistent added text options plain absent rules with
            ⟨behind, alone⟩
          rw [alone]
          exact .inr ⟨inconsistent, rfl, behind⟩
      | some offset =>
          have alone : parse text (options.withFlags added) = refuse .nulByteInPattern offset := by
            rw [parse, absent]
          have behind : parse (InlineFlag.group added ++ text) options =
              refuse .nulByteInPattern ((InlineFlag.group added).length + offset) := by
            rw [parse, findIdx_nul_group, absent]
            rfl
          rw [alone]
          exact .inl behind

end Reading

end Pattern
end PerlRegex
