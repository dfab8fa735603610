import PerlRegex.Program
import PerlRegex.Proofs.Pattern.Parsing
import PerlRegex.Proofs.Pattern.Words
namespace PerlRegex.Pattern

/-! Reading a pattern overflows in one place only: where a reference counts on from the groups
opened so far. -/

/-! ## Readers that do not overflow -/

section Readers

variable {settings : Settings} {offset captures start : Nat}

theorem refuse_ne_overflow {kind : CompileErrorKind} :
    (refuse kind offset : Reading α) ≠ .error .overflow := by
  intro impossible
  cases impossible

theorem refuseFor_ne_overflow {fault : CompileFault} :
    (refuseFor fault offset : Reading α) ≠ .error .overflow := by
  intro impossible
  cases impossible

theorem ok_ne_overflow {value : α} : (.ok value : Reading α) ≠ .error .overflow := by
  intro impossible
  cases impossible

theorem bind_ne_overflow {reading : Reading α} {next : α → Reading β}
    (begun : reading ≠ .error .overflow) (continued : ∀ value, next value ≠ .error .overflow) :
    (reading >>= next) ≠ .error .overflow := by
  cases reading with
  | error failure =>
      intro impossible
      exact begun (congrArg Except.error (Except.error.inj impossible))
  | ok value => exact continued value

/-- A reader that goes by what it is given, whatever pattern that is part of, can be taken to read
from a pattern of nothing but parentheses, which counts on from no group. -/
theorem ne_overflow_of_ensures {count : Nat} {good : α → Prop} {reading : Reading α}
    (ensures : reading.Ensures (·.Placed (List.replicate count 0x28)) good) :
    reading ≠ .error .overflow := by
  intro overflow
  rw [overflow] at ensures
  rcases ensures with ⟨start, digits, _, _, front | front⟩
  all_goals
    have listed : (0x5C : UInt8) ∈ List.replicate count 0x28 :=
      List.mem_of_mem_drop (front.subset (by simp))
    cases List.eq_of_mem_replicate listed

end Readers

/-! ## References that count on -/

/-- A text begins with a reference that counts on from the groups so far, by a number of these
digits. -/
inductive CountsOn (digits : List UInt8) : List UInt8 → Prop
  | bare {rest : List UInt8} : digits ≠ [] →
      (∀ digit ∈ digits, Ascii.isDigit digit.toNat = true) →
      startsWithAny rest Ascii.isDigit = false →
      CountsOn digits (0x5C :: 0x67 :: 0x2B :: (digits ++ rest))
  | braced {rest : List UInt8} : digits ≠ [] →
      (∀ digit ∈ digits, Ascii.isDigit digit.toNat = true) →
      CountsOn digits (0x5C :: 0x67 :: 0x7B :: 0x2B :: (digits ++ 0x7D :: rest))

section References

variable {captures start offset stop : Nat} {text digits : List UInt8}

theorem referredGroup_eq_overflow_iff {sign : Option Char} {number : Nat} :
    referredGroup sign number captures start = .error .overflow ↔
      (∃ character, sign = some character ∧ character ≠ '-') ∧ 2 ^ 64 ≤ captures + number := by
  constructor
  · intro overflow
    unfold referredGroup at overflow
    split at overflow
    · split at overflow
      · exact absurd overflow refuse_ne_overflow
      · cases overflow
    · rename_i character notMinus
      split at overflow
      · rename_i beyond
        exact ⟨⟨character, rfl, fun same => notMinus (same ▸ rfl)⟩, by omega⟩
      · split at overflow
        · exact absurd overflow refuse_ne_overflow
        · cases overflow
    · split at overflow
      · exact absurd overflow refuse_ne_overflow
      · cases overflow
  · rintro ⟨⟨character, rfl, notMinus⟩, beyond⟩
    unfold referredGroup
    split
    · rename_i same
      cases same
      exact absurd rfl notMinus
    · exact if_pos (by omega)
    · rename_i impossible
      cases impossible

theorem interpretReference_eq_overflow_iff {content : List UInt8} {braced : Bool} :
    interpretReference content braced captures start stop = .error .overflow ↔
      ∃ digits, content = 0x2B :: digits ∧ digits ≠ []
        ∧ (∀ digit ∈ digits, Ascii.isDigit digit.toNat = true)
        ∧ 2 ^ 64 ≤ captures + groupNumber digits := by
  constructor
  · intro overflow
    unfold interpretReference at overflow
    extract_lets sign body at overflow
    split at overflow
    · rename_i number
      simp only [Bool.and_eq_true, Bool.not_eq_true', List.isEmpty_eq_false_iff,
        List.all_eq_true] at number
      cases referred : referredGroup sign (groupNumber body) captures start with
      | ok group =>
          rw [referred] at overflow
          cases overflow
      | error failure =>
          rw [referred] at overflow
          cases Except.error.inj overflow
          rcases referredGroup_eq_overflow_iff.mp referred with
            ⟨⟨character, signed, notMinus⟩, beyond⟩
          have plus : startsWith content '+' = true := by
            by_cases minus : startsWith content '-' = true
            · simp only [sign, minus, if_true, Option.some.injEq] at signed
              exact absurd signed.symm notMinus
            · apply Decidable.byContradiction
              intro unsigned
              simp [sign, minus, unsigned] at signed
          rcases exists_of_startsWith plus with ⟨byte, rest, shape, same⟩
          have isPlus : byte = 0x2B := byte_of_ofUInt8 same
          have isBody : body = rest := by
            simp only [body, signed, Option.isSome_some, if_true, shape, List.tail_cons]
          rw [isBody] at number beyond
          exact ⟨rest, isPlus ▸ shape, number.1, number.2, beyond⟩
    · split at overflow
      · cases overflow
      · exact absurd overflow refuseFor_ne_overflow
  · rintro ⟨digits, rfl, nonempty, allDigits, beyond⟩
    have number : (!digits.isEmpty && digits.all fun byte => Ascii.isDigit byte.toNat) = true := by
      simpa [nonempty] using allDigits
    have overflow : referredGroup (some '+') (groupNumber digits) captures start =
        .error .overflow :=
      referredGroup_eq_overflow_iff.mpr ⟨⟨'+', rfl, by decide⟩, beyond⟩
    have minus : startsWith (0x2B :: digits) '-' = false := rfl
    have plus : startsWith (0x2B :: digits) '+' = true := rfl
    unfold interpretReference
    simp only [minus, plus, Bool.false_eq_true, if_false, if_true, Option.isSome_some,
      List.tail_cons, number, overflow]
    rfl

theorem leadingDigits_ten_eq_iff :
    leadingDigits 10 text = digits ↔
      ∃ rest, text = digits ++ rest ∧ (∀ digit ∈ digits, Ascii.isDigit digit.toNat = true)
        ∧ startsWithAny rest Ascii.isDigit = false := by
  have same : leadingDigits 10 text = text.takeWhile fun byte => Ascii.isDigit byte.toNat := by
    simp only [leadingDigits, leading, isSome_digitValue_ten]
  rw [same]
  constructor
  · rintro rfl
    refine ⟨text.dropWhile fun byte => Ascii.isDigit byte.toNat,
      List.takeWhile_append_dropWhile.symm, List.all_eq_true.mp List.all_takeWhile, ?_⟩
    cases left : text.dropWhile fun byte => Ascii.isDigit byte.toNat with
    | nil => rfl
    | cons byte rest =>
        have stops := List.head?_dropWhile_not (fun byte => Ascii.isDigit byte.toNat) text
        rw [left] at stops
        simpa [startsWithAny] using stops
  · rintro ⟨rest, rfl, allDigits, stops⟩
    rw [List.takeWhile_append_of_pos allDigits]
    cases rest with
    | nil => simp
    | cons byte rest =>
        have notDigit : Ascii.isDigit byte.toNat = false := stops
        simp [notDigit]

theorem upTo_eq_some_iff {character : Char} {before : List UInt8} :
    upTo character text = some before ↔
      (∀ byte ∈ before, Char.ofUInt8 byte ≠ character)
        ∧ ∃ byte rest, text = before ++ byte :: rest ∧ Char.ofUInt8 byte = character := by
  unfold upTo
  dsimp only
  have parted : text.takeWhile (fun byte => Char.ofUInt8 byte != character)
      ++ text.dropWhile (fun byte => Char.ofUInt8 byte != character) = text :=
    List.takeWhile_append_dropWhile
  constructor
  · intro found
    split at found
    · rename_i shorter
      injection found with same
      rw [← same]
      refine ⟨fun byte member => ?_, ?_⟩
      · simpa using List.all_eq_true.mp List.all_takeWhile byte member
      · cases left : text.dropWhile fun byte => Char.ofUInt8 byte != character with
        | nil =>
            rw [left, List.append_nil] at parted
            rw [parted] at shorter
            exact absurd shorter (Nat.lt_irrefl _)
        | cons byte rest =>
            have stops := List.head?_dropWhile_not
              (fun byte => Char.ofUInt8 byte != character) text
            rw [left] at stops parted
            exact ⟨byte, rest, parted.symm, by simpa using stops⟩
    · cases found
  · rintro ⟨before_ne, byte, rest, rfl, same⟩
    have front : (before ++ byte :: rest).takeWhile (fun byte => Char.ofUInt8 byte != character) =
        before := by
      rw [List.takeWhile_append_of_pos fun other member => by simpa using before_ne other member]
      simp [same]
    rw [front, if_pos (by simp)]

theorem readRelativeReference_eq_overflow_iff :
    readRelativeReference text captures start offset = .error .overflow ↔
      ∃ digits, CountsOn digits (0x5C :: 0x67 :: text)
        ∧ 2 ^ 64 ≤ captures + groupNumber digits := by
  have mapped : ∀ {reading : Reading Reference} {used : Nat},
      (do return (← reading, used) : Reading (Reference × Nat)) = .error .overflow ↔
        reading = .error .overflow := by
    intro reading used
    cases reading with
    | ok reference => simp [bind, Except.bind, pure, Except.pure]
    | error failure => simp [bind, Except.bind]
  constructor
  · intro overflow
    unfold readRelativeReference at overflow
    split at overflow
    · rename_i opened
      rcases exists_of_startsWith opened with ⟨byte, rest, rfl, same⟩
      have isBrace : byte = 0x7B := byte_of_ofUInt8 same
      split at overflow
      · exact absurd overflow refuseFor_ne_overflow
      · rename_i content found
        rcases interpretReference_eq_overflow_iff.mp (mapped.mp overflow) with
          ⟨digits, rfl, nonempty, allDigits, beyond⟩
        rcases upTo_eq_some_iff.mp found with ⟨_, closing, behind, shape, closes⟩
        have isClosing : closing = 0x7D := byte_of_ofUInt8 closes
        rw [List.tail_cons] at shape
        refine ⟨digits, ?_, beyond⟩
        rw [isBrace, shape, isClosing]
        exact .braced nonempty allDigits
    · split at overflow
      · exact absurd overflow refuseFor_ne_overflow
      · extract_lets signLength used at overflow
        rcases interpretReference_eq_overflow_iff.mp (mapped.mp overflow) with
          ⟨digits, shape, nonempty, allDigits, beyond⟩
        cases text with
        | nil => simp at shape
        | cons byte rest =>
            cases count : used with
            | zero =>
                rw [count, List.take_zero] at shape
                cases shape
            | succ length =>
                rw [count, List.take_succ_cons] at shape
                injection shape with isPlus taken
                have used_eq : used = 1 + (leadingDigits 10 rest).length := by
                  simp only [used, signLength, isPlus]
                  rfl
                have length_eq : length = (leadingDigits 10 rest).length := by omega
                have front : leadingDigits 10 rest <+: rest := List.takeWhile_prefix _
                rw [length_eq, ← List.prefix_iff_eq_take.mp front] at taken
                rcases leadingDigits_ten_eq_iff.mp taken with ⟨behind, parted, _, stops⟩
                refine ⟨digits, ?_, beyond⟩
                rw [isPlus, parted]
                exact .bare nonempty allDigits stops
  · rintro ⟨digits, countsOn, beyond⟩
    cases countsOn with
    | @bare rest nonempty allDigits stops =>
      have leads : leadingDigits 10 (digits ++ rest) = digits :=
        leadingDigits_ten_eq_iff.mpr ⟨rest, rfl, allDigits, stops⟩
      have content : (0x2B :: (digits ++ rest)).take (1 + digits.length) = 0x2B :: digits := by
        rw [Nat.add_comm, List.take_succ_cons, List.take_left]
      have opened : startsWith (0x2B :: (digits ++ rest)) '\x7b' = false := rfl
      have called : (startsWith (0x2B :: (digits ++ rest)) '<'
          || startsWith (0x2B :: (digits ++ rest)) '\x27') = false := rfl
      have signed : (startsWith (0x2B :: (digits ++ rest)) '-'
          || startsWith (0x2B :: (digits ++ rest)) '+') = true := rfl
      unfold readRelativeReference
      simp only [opened, called, signed, Bool.false_eq_true, if_false, if_true, List.drop_one,
        List.tail_cons, leads, content]
      exact mapped.mpr (interpretReference_eq_overflow_iff.mpr
        ⟨digits, rfl, nonempty, allDigits, beyond⟩)
    | @braced rest nonempty allDigits =>
      have found : upTo '\x7d' (0x2B :: (digits ++ 0x7D :: rest)) = some (0x2B :: digits) := by
        refine upTo_eq_some_iff.mpr ⟨fun byte member closes => ?_, 0x7D, rest, rfl, rfl⟩
        have isClosing : byte = 0x7D := byte_of_ofUInt8 closes
        rw [isClosing] at member
        rcases List.mem_cons.mp member with impossible | member
        · exact absurd impossible (by decide)
        · exact absurd (allDigits _ member) (by decide)
      have opened : startsWith (0x7B :: 0x2B :: (digits ++ 0x7D :: rest)) '\x7b' = true := rfl
      unfold readRelativeReference
      simp only [opened, if_true, List.tail_cons, found]
      exact mapped.mpr (interpretReference_eq_overflow_iff.mpr
        ⟨digits, rfl, nonempty, allDigits, beyond⟩)

end References

/-! ## Pieces -/

section Pieces

variable {settings : Settings} {state reached : State} {text rest : List UInt8} {byte : UInt8}
  {offset position start captures used : Nat}

theorem ne_overflow_of_takesFrom {reading : Reading (α × Nat)}
    (takes : Reading.TakesFrom (List.replicate (offset + text.length) 0x28) offset reading) :
    reading ≠ .error .overflow :=
  ne_overflow_of_ensures takes

theorem there_of_length (offset : Nat) (text : List UInt8) :
    offset + text.length = (List.replicate (offset + text.length) (0x28 : UInt8)).length :=
  List.length_replicate.symm

theorem map_ne_overflow {reading : Reading (α × Nat)} (begun : reading ≠ .error .overflow)
    (next : α × Nat → β) : (reading >>= fun piece => pure (next piece)) ≠ .error .overflow :=
  bind_ne_overflow begun fun _ => ok_ne_overflow

theorem readEscape_eq_overflow_iff :
    readEscape settings captures text start = .error .overflow ↔
      ∃ digits, CountsOn digits (0x5C :: text) ∧ 2 ^ 64 ≤ captures + groupNumber digits := by
  constructor
  · intro overflow
    unfold readEscape at overflow
    split at overflow
    · exact absurd overflow refuse_ne_overflow
    · rename_i byte rest
      dsimp only at overflow
      split at overflow
      · cases overflow
      iterate 8 cases overflow
      · split at overflow
        · exact absurd overflow refuseFor_ne_overflow
        · cases overflow
      · rename_i same
        have isG : byte = 0x67 := byte_of_ofUInt8 same
        rw [isG]
        apply readRelativeReference_eq_overflow_iff.mp
        apply Classical.byContradiction
        intro begun
        exact map_ne_overflow begun _ overflow
      · exact absurd overflow (map_ne_overflow
          (ne_overflow_of_takesFrom (readNamedReference_takesFrom (there_of_length _ rest))) _)
      · exact absurd overflow (map_ne_overflow
          (ne_overflow_of_takesFrom (readProperty_takesFrom (there_of_length _ rest))) _)
      · exact absurd overflow (map_ne_overflow
          (ne_overflow_of_takesFrom (readProperty_takesFrom (there_of_length _ rest))) _)
      iterate 7 exact absurd overflow refuseFor_ne_overflow
      · split at overflow
        · cases overflow
        · split at overflow
          · refine absurd overflow (ne_overflow_of_takesFrom
              (readNumericEscape_takesFrom (there_of_length start (byte :: rest)) ?_))
            rw [← there_of_length]
            exact Nat.le_add_right _ _
          · exact absurd overflow (map_ne_overflow (ne_overflow_of_takesFrom
              (readCharacterEscape_takesFrom (there_of_length _ rest))) _)
  · rintro ⟨digits, countsOn, beyond⟩
    have begun : ∀ rest, CountsOn digits (0x5C :: 0x67 :: rest) →
        readEscape settings captures (0x67 :: rest) start = .error .overflow := by
      intro rest countsOn
      have overflow : readRelativeReference rest captures start (start + 2) = .error .overflow :=
        readRelativeReference_eq_overflow_iff.mpr ⟨digits, countsOn, beyond⟩
      change (readRelativeReference rest captures start (start + 2) >>= fun piece =>
        pure (Escape.reference piece.1, piece.2 + 1)) = _
      rw [overflow]
      rfl
    cases countsOn with
    | bare nonempty allDigits stops => exact begun _ (.bare nonempty allDigits stops)
    | braced nonempty allDigits => exact begun _ (.braced nonempty allDigits)

theorem closeGroup_ne_overflow : state.closeGroup offset ≠ .error .overflow := by
  unfold State.closeGroup
  split
  · exact refuse_ne_overflow
  · rename_i group groups listed
    have inside : group.start ≤ (List.replicate group.start (0x28 : UInt8)).length :=
      Nat.le_of_eq List.length_replicate.symm
    exact bind_ne_overflow (ne_overflow_of_ensures (State.closedForm_ensures inside))
      fun _ => ok_ne_overflow

theorem applyOpening_ne_overflow {opening : Opening} {stop : Nat} :
    state.applyOpening opening start stop ≠ .error .overflow := by
  have length : (List.replicate (start + stop) (0x28 : UInt8)).length = start + stop :=
    List.length_replicate
  exact ne_overflow_of_ensures
    (State.applyOpening_ensures (by rw [length]; omega) (by rw [length]; omega))

theorem readOpening_ne_overflow {flags : Flags} :
    readOpening settings flags rest offset ≠ .error .overflow := by
  have opens : (List.replicate (offset + 1 + rest.length) (0x28 : UInt8))[offset]? = some 0x28 := by
    rw [List.getElem?_replicate, if_pos (by omega)]
  exact ne_overflow_of_takesFrom (readOpening_takesFrom opens (there_of_length _ rest))

theorem readRepeat_ne_overflow {bounds : Reading RepeatBounds} {boundsLength : Nat}
    (bounded : bounds ≠ .error .overflow) :
    readRepeat state bounds boundsLength rest offset ≠ .error .overflow := by
  unfold readRepeat
  split
  · exact refuse_ne_overflow
  · exact bind_ne_overflow bounded fun _ => ok_ne_overflow

theorem bounds_ne_overflow {braces : Braces} (found : Braces.scan? rest = some braces) :
    braces.bounds offset ≠ .error .overflow :=
  ne_overflow_of_ensures (bounds_ensures (there_of_length (offset + 1) rest) found)

theorem readPiece_eq_overflow_iff :
    readPiece settings state byte rest offset = .error .overflow ↔
      ∃ digits, CountsOn digits (byte :: rest) ∧ 2 ^ 64 ≤ state.captures + groupNumber digits := by
  constructor
  · intro overflow
    unfold readPiece at overflow
    split at overflow
    · cases overflow
    · dsimp only at overflow
      split at overflow
      · cases overflow
      · exact absurd overflow (bind_ne_overflow closeGroup_ne_overflow fun _ => ok_ne_overflow)
      iterate 3 exact absurd overflow (readRepeat_ne_overflow ok_ne_overflow)
      · split at overflow
        · rename_i braces found
          exact absurd overflow (readRepeat_ne_overflow (bounds_ne_overflow found))
        · cases overflow
      · refine absurd overflow (bind_ne_overflow readOpening_ne_overflow fun opening => ?_)
        exact bind_ne_overflow applyOpening_ne_overflow fun _ => ok_ne_overflow
      · exact absurd overflow (map_ne_overflow (ne_overflow_of_takesFrom
          (readBrackets_takesFrom (there_of_length _ rest))) _)
      · rename_i same
        have isBackslash : byte = 0x5C := byte_of_ofUInt8 same
        rw [isBackslash]
        apply readEscape_eq_overflow_iff.mp
        apply Classical.byContradiction
        intro begun
        exact map_ne_overflow begun _ overflow
      all_goals cases overflow
  · rintro ⟨digits, countsOn, beyond⟩
    have begun : ∀ rest, CountsOn digits (0x5C :: rest) →
        readPiece settings state 0x5C rest offset = .error .overflow := by
      intro rest countsOn
      have visible : blankLength? state 0x5C rest = none := by
        unfold blankLength?
        split <;> rfl
      have overflow : readEscape settings state.captures rest offset = .error .overflow :=
        readEscape_eq_overflow_iff.mpr ⟨digits, countsOn, beyond⟩
      unfold readPiece
      rw [visible]
      change (readEscape settings state.captures rest offset >>= fun piece =>
        pure (state.addEscape piece.1, piece.2)) = _
      rw [overflow]
      rfl
    cases countsOn with
    | bare nonempty allDigits stops => exact begun _ (.bare nonempty allDigits stops)
    | braced nonempty allDigits => exact begun _ (.braced nonempty allDigits)

/-- What is left to read after some pieces decides what reading comes to. -/
theorem Visits.readPieces_eq (visits : Visits settings state text offset reached rest position) :
    readPieces settings state text offset = readPieces settings reached rest position := by
  induction visits with
  | start => rfl
  | next _ read induction =>
      rw [induction, readPieces]
      simp only [read]

theorem readPieces_eq_overflow_iff :
    readPieces settings state text offset = .error .overflow ↔
      ∃ reached rest position digits, Visits settings state text offset reached rest position
        ∧ CountsOn digits rest ∧ 2 ^ 64 ≤ reached.captures + groupNumber digits := by
  constructor
  · intro overflow
    rcases exists_visits settings state text offset with
      ⟨reached, rest, position, visits, ⟨_, ended⟩ | ⟨byte, later, failure, rfl, read, stopped⟩⟩
    · rw [overflow] at ended
      cases ended
    · rw [overflow] at stopped
      rw [← Except.error.inj stopped] at read
      rcases readPiece_eq_overflow_iff.mp read with ⟨digits, countsOn, beyond⟩
      exact ⟨reached, _, position, digits, visits, countsOn, beyond⟩
  · rintro ⟨reached, rest, position, digits, visits, countsOn, beyond⟩
    rw [visits.readPieces_eq]
    cases rest with
    | nil => cases countsOn
    | cons byte rest =>
        have overflow : readPiece settings reached byte rest position = .error .overflow :=
          readPiece_eq_overflow_iff.mpr ⟨digits, countsOn, beyond⟩
        rw [readPieces, overflow]

end Pieces

/-! ## Whole patterns -/

section WholePatterns

variable {text : List UInt8} {requested options : CompileOptions}

theorem readVerbs_ne_overflow : readVerbs requested text 0 ≠ .error .overflow :=
  ne_overflow_of_ensures (readVerbs_ensures requested (there_of_length 0 text))

theorem lineRulesOf_ne_overflow : lineRulesOf options ≠ .error .overflow := by
  have ensures : (lineRulesOf options).Ensures (·.Placed (List.replicate 0 0x28)) fun _ => True :=
    lineRulesOf_ensures
  exact ne_overflow_of_ensures ensures

theorem checkUtf8_ne_overflow : checkUtf8 options text ≠ .error .overflow := by
  unfold checkUtf8
  split
  · split
    · exact refuse_ne_overflow
    · exact ok_ne_overflow
  · exact ok_ne_overflow

theorem finish_ne_overflow {state : State} : state.finish ≠ .error .overflow := by
  unfold State.finish
  split
  · exact ok_ne_overflow
  · exact refuse_ne_overflow

theorem resolve_ne_overflow {state : State} {tree : Tree} :
    resolve state tree ≠ .error .overflow := by
  unfold resolve
  extract_lets missing
  cases missing with
  | some offset => exact refuse_ne_overflow
  | none => exact ok_ne_overflow

theorem bind_eq_overflow_iff {reading : Reading α} {next : α → Reading β}
    (begun : reading ≠ .error .overflow) :
    (reading >>= next) = .error .overflow ↔
      ∃ value, reading = .ok value ∧ next value = .error .overflow := by
  cases reading with
  | error failure =>
      constructor
      · intro overflow
        exact absurd (congrArg Except.error (Except.error.inj overflow)) begun
      · rintro ⟨value, impossible, _⟩
        cases impossible
  | ok value =>
      constructor
      · exact fun overflow => ⟨value, rfl, overflow⟩
      · rintro ⟨_, same, overflow⟩
        cases same
        exact overflow

/-- Reading the pattern comes to a reference that counts on, and the groups opened so far together
with its number are more than 64 bits hold. -/
def CountsPastWords (text : List UInt8) (requested : CompileOptions) : Prop :=
  0 ∉ text ∧ ∃ options bodyOffset lineRules,
    readVerbs requested text 0 = .ok (options, bodyOffset)
    ∧ lineRulesOf options = .ok lineRules ∧ checkUtf8 options text = .ok ()
    ∧ ∃ reached rest offset digits,
      Visits (settingsOf options) (.start (.ofOptions options)) (text.drop bodyOffset) bodyOffset
        reached rest offset
      ∧ CountsOn digits rest ∧ 2 ^ 64 ≤ reached.captures + groupNumber digits

theorem parse_eq_overflow_iff :
    parse text requested = .error .overflow ↔ CountsPastWords text requested := by
  unfold parse CountsPastWords
  split
  · rename_i offset found
    have member : 0 ∈ text := by
      rcases List.findIdx?_eq_some_iff_getElem.mp found with ⟨inside, isNul, _⟩
      exact beq_iff_eq.mp isNul ▸ List.getElem_mem inside
    constructor
    · exact fun overflow => absurd overflow refuse_ne_overflow
    · exact fun ⟨absent, _⟩ => absurd member absent
  · rename_i missing
    have absent : 0 ∉ text := by
      intro member
      have := List.findIdx?_eq_none_iff.mp missing 0 member
      cases this
    rw [bind_eq_overflow_iff readVerbs_ne_overflow]
    have ending : ∀ (state : State) (options : CompileOptions) (lineRules : LineRules),
        (do
          let tree ← resolve state (← state.finish)
          return (⟨tree, state.captures, state.names, options, lineRules⟩ : Pattern)) ≠
        .error .overflow := fun state options lineRules =>
      bind_ne_overflow finish_ne_overflow fun tree =>
        bind_ne_overflow resolve_ne_overflow fun _ => ok_ne_overflow
    constructor
    · rintro ⟨⟨options, bodyOffset⟩, begun, overflow⟩
      rcases (bind_eq_overflow_iff lineRulesOf_ne_overflow).mp overflow with
        ⟨lineRules, ruled, overflow⟩
      rcases (bind_eq_overflow_iff checkUtf8_ne_overflow).mp overflow with ⟨⟨⟩, checked, overflow⟩
      refine ⟨absent, options, bodyOffset, lineRules, begun, ruled, checked, ?_⟩
      apply readPieces_eq_overflow_iff.mp
      apply Classical.byContradiction
      intro read
      exact bind_ne_overflow read (fun state => ending state options lineRules) overflow
    · rintro ⟨_, options, bodyOffset, lineRules, begun, ruled, checked, counts⟩
      refine ⟨(options, bodyOffset), begun, ?_⟩
      refine (bind_eq_overflow_iff lineRulesOf_ne_overflow).mpr ⟨lineRules, ruled, ?_⟩
      refine (bind_eq_overflow_iff checkUtf8_ne_overflow).mpr ⟨(), checked, ?_⟩
      rw [readPieces_eq_overflow_iff.mpr counts]
      rfl

/-- The other numbers of a pattern, and the measures of its tree, are what the words that hold them
come to. -/
structure NumbersInWords : Prop where
  /-- Numbers in braces are given up before they leave 32 bits. -/
  repeats : ∀ digits endOffset, wordRepeat digits endOffset = Braces.number digits endOffset
  /-- Escapes with octal and with hexadecimal digits take so few that 32 bits hold the number. -/
  escapes : ∀ radix most, (radix, most) ∈ [(8, 2), (8, 3), (16, 2)] → ∀ text,
    wordValue 32 radix (leadingDigits radix (text.take most)) = .ok (readDigits radix most text).1
  /-- Character values in braces stop at the greatest number of 32 bits, which is none of a
  character. -/
  characters : ∀ settings radix digits offset, radix ∈ [8, 16] →
    checkCharacter settings (saturatedValue 32 radix digits) offset =
      checkCharacter settings (Ascii.digitsValue radix digits) offset
  /-- Group numbers stop at the greatest number of 64 bits. -/
  groups : ∀ digits, saturatedValue 64 10 digits = groupNumber digits
  /-- Widths that 64 bits do not hold are not measured. -/
  widths : ∀ (tree : Tree) width, tree.fixedWidth? = some width → width < 2 ^ 64
  /-- The bytes that a match takes at least stop at the greatest number of 64 bits, and are none
  exactly if that is what the tree says. -/
  minimum : ∀ utf8 (tree : Node (List Nat)),
    tree.saturatedMinBytes utf8 = saturated 64 (tree.minBytes utf8)
      ∧ tree.needsCheck utf8 = (tree.saturatedMinBytes utf8 == 0)

theorem numbersInWords : NumbersInWords where
  repeats := wordRepeat_eq
  escapes := by
    intro radix most listed text
    simp only [List.mem_cons, Prod.mk.injEq, List.not_mem_nil, or_false] at listed
    rcases listed with ⟨rfl, rfl⟩ | ⟨rfl, rfl⟩ | ⟨rfl, rfl⟩
    all_goals exact wordValue_readDigits (by decide) (by decide) text
  characters := by
    intro settings radix digits offset listed
    simp only [List.mem_cons, List.not_mem_nil, or_false] at listed
    rcases listed with rfl | rfl
    all_goals exact checkCharacter_saturatedValue settings (by decide) digits offset
  groups := fun digits => (groupNumber_eq digits).symm
  widths := fun _ _ => Node.lt_of_fixedWidth
  minimum := fun utf8 tree =>
    ⟨tree.saturatedMinBytes_eq utf8, tree.needsCheck_eq_saturated utf8⟩

theorem captures_le_of_parse {pattern : Pattern} (parsed : parse text requested = .ok pattern) :
    pattern.captures ≤ text.length := by
  rcases steps_of_parse parsed with ⟨_, _, _, begun, _, read, _, _, captures, _⟩
  rw [captures]
  exact ((readPieces_ensures (standsAt_of_readVerbs begun)).of_ok read).opened.captures

end WholePatterns

end PerlRegex.Pattern

namespace PerlRegex.Program

open Pattern

theorem compile_eq_overflow_iff_parse {text : List UInt8} {requested : CompileOptions} :
    compile text requested = .error .overflow ↔ parse text requested = .error .overflow := by
  unfold compile
  cases parse text requested with
  | ok pattern =>
      unfold Pattern.program
      dsimp only
      split <;> simp
  | error failure => cases failure <;> simp [CompileFailure.ofReading]

/-- Compiling a pattern overflows exactly if reading it comes to a reference that counts on from the
groups so far by a number that takes it beyond 64 bits. Everything else that is counted stays within
the words that hold it: offsets and groups within the length of the pattern, the nesting of groups
and the length of the program within their limits, and the numbers that the pattern writes, however
many digits they have, are put together as `NumbersInWords` says. -/
theorem compile_eq_overflow_iff (text : List UInt8) (requested : CompileOptions) :
    (compile text requested = .error .overflow ↔ CountsPastWords text requested)
    ∧ NumbersInWords
    ∧ (∀ options bodyOffset, readVerbs requested text 0 = .ok (options, bodyOffset) →
        ∀ state rest offset,
          Visits (settingsOf options) (.start (.ofOptions options)) (text.drop bodyOffset)
            bodyOffset state rest offset →
          offset ≤ text.length ∧ state.captures ≤ offset
            ∧ state.groups.length ≤ deepestNesting)
    ∧ ∀ program, compile text requested = .ok program →
        program.instructions.size ≤ longest ∧ program.pattern.captures ≤ text.length := by
  refine ⟨compile_eq_overflow_iff_parse.trans parse_eq_overflow_iff, numbersInWords, ?_, ?_⟩
  · intro options bodyOffset begun state rest offset visits
    have stands := (standsAt_of_readVerbs begun).of_visits visits
    exact ⟨stands.inside, stands.opened.captures, stands.opened.nesting⟩
  · intro program compiled
    unfold compile at compiled
    split at compiled
    · cases compiled
    · rename_i pattern parsed
      unfold Pattern.program at compiled
      dsimp only at compiled
      split at compiled
      · cases compiled
      · rename_i short
        injection compiled with same
        rw [← same]
        refine ⟨?_, captures_le_of_parse parsed⟩
        simpa using short

/-- `(a)(b)\g{+18446744073709551615}` has two groups and counts on from them by the greatest number
of 64 bits: neither a program nor a fault of the pattern comes of it. -/
theorem counts_on_past_words :
    ¬ ∀ (text : List UInt8) (options : CompileOptions),
      (∃ program, compile text options = .ok program)
        ∨ ∃ error, compile text options = .error (.invalid error) := by
  intro always
  let text := "(a)(b)\\g\x7b+18446744073709551615\x7d".toUTF8.toList
  have overflow : (match compile text {} with | .error .overflow => true | _ => false) = true := by
    decide +kernel
  rcases always text {} with ⟨program, other⟩ | ⟨error, other⟩
  all_goals
    rw [other] at overflow
    cases overflow

end PerlRegex.Program
