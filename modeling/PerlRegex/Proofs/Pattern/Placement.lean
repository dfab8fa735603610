import Mathlib.Algebra.Group.Nat.Defs
import PerlRegex.Proofs.Pattern.Numbering
import PerlRegex.Proofs.Utf8.Decoding
namespace PerlRegex.Pattern

/-! Where the faults of a pattern are reported. A reader is handed what the pattern has from some
offset on. It takes no more than that, and reports its faults within the pattern. -/

/-! ## Faults in their places -/

/-- A fault is reported within the pattern: a backslash with nothing behind it at the end of the
pattern, and a missing parenthesis behind the one that it would match. -/
structure PlacedAt (pattern : List UInt8) (fault : CompileFault) (offset : Nat) : Prop where
  inside : offset ≤ pattern.length
  trailing : fault.kind = .trailingEscape → offset = pattern.length
  unclosed : fault.kind = .unterminatedGroup → fault.message = "missing )" →
    ∃ start, pattern[start]? = some 0x28 ∧ offset = start + 1

/-- A pattern that refers to a group by counting on from those opened so far, `\g+…` or `\g{+…`,
and counts beyond the group numbers that 64 bits hold. -/
def CountsBeyond (pattern : List UInt8) : Prop :=
  ∃ start digits, (∀ digit ∈ digits, Ascii.isDigit digit.toNat = true)
    ∧ 2 ^ 64 ≤ pattern.length + Ascii.digitsValue 10 digits
    ∧ ([0x5C, 0x67, 0x2B] ++ digits <+: pattern.drop start
      ∨ [0x5C, 0x67, 0x7B, 0x2B] ++ digits <+: pattern.drop start)

/-- Why reading a pattern may stop. -/
def ReadFailure.Placed (pattern : List UInt8) : ReadFailure → Prop
  | .fault cause offset => PlacedAt pattern cause offset
  | .overflow => CountsBeyond pattern

/-- Reading a piece that begins at an offset takes no more than the pattern has, and stops for
nothing but a fault in its place. -/
def Reading.TakesFrom (pattern : List UInt8) (offset : Nat) (reading : Reading (α × Nat)) : Prop :=
  Reading.Ensures (·.Placed pattern) (fun piece => offset + piece.2 ≤ pattern.length) reading

namespace Reading.TakesFrom

variable {pattern : List UInt8} {offset : Nat} {reading : Reading (α × Nat)}

theorem of_error (taking : Reading.TakesFrom pattern offset reading) {failure : ReadFailure}
    (read : reading = .error failure) : failure.Placed pattern := by
  rw [read] at taking
  exact taking

theorem of_ok (taking : Reading.TakesFrom pattern offset reading) {value : α} {used : Nat}
    (read : reading = .ok (value, used)) : offset + used ≤ pattern.length := by
  rw [read] at taking
  exact taking

theorem behindFirst (taking : Reading.TakesFrom pattern (offset + 1) reading) (make : α → β) :
    Reading.TakesFrom pattern offset
      (reading >>= fun piece => pure (make piece.1, piece.2 + 1)) := by
  refine taking.bind fun piece taken => ?_
  change offset + (piece.2 + 1) ≤ pattern.length
  omega

end Reading.TakesFrom

section Faults

variable {pattern : List UInt8} {offset : Nat} {good : α → Prop}

theorem ensures_refuseFor {fault : CompileFault} (inside : offset ≤ pattern.length)
    (ordinary : fault.kind ≠ .trailingEscape ∧ fault.kind ≠ .unterminatedGroup) :
    Reading.Ensures (·.Placed pattern) good (refuseFor fault offset) where
  inside := inside
  trailing := fun same => absurd same ordinary.1
  unclosed := fun same => absurd same ordinary.2

theorem ensures_refuse {kind : CompileErrorKind} (inside : offset ≤ pattern.length)
    (ordinary : kind ≠ .trailingEscape ∧ kind ≠ .unterminatedGroup) :
    Reading.Ensures (·.Placed pattern) good (refuse kind offset) :=
  ensures_refuseFor inside ordinary

theorem ensures_refuse_trailing (atEnd : offset = pattern.length) :
    Reading.Ensures (·.Placed pattern) good (refuse .trailingEscape offset) where
  inside := Nat.le_of_eq atEnd
  trailing := fun _ => atEnd
  unclosed := fun other => by cases other

theorem ensures_refuse_unclosed {start : Nat} (opens : pattern[start]? = some 0x28) :
    Reading.Ensures (·.Placed pattern) good (refuse .unterminatedGroup (start + 1)) where
  inside := (List.getElem?_eq_some_iff.mp opens).1
  trailing := fun other => by cases other
  unclosed := fun _ _ => ⟨start, opens, rfl⟩

end Faults

/-! ## Bytes at the front -/

section Fronts

variable {text : List UInt8}

theorem length_leading_le (test : Nat → Bool) (text : List UInt8) :
    (leading test text).length ≤ text.length :=
  (List.takeWhile_sublist _).length_le

theorem exists_of_startsWith {character : Char} (starts : startsWith text character = true) :
    ∃ byte rest, text = byte :: rest ∧ Char.ofUInt8 byte = character := by
  cases text with
  | nil => cases starts
  | cons byte rest => exact ⟨byte, rest, rfl, beq_iff_eq.mp starts⟩

theorem lt_length_of_startsWith_drop {count : Nat} {character : Char}
    (starts : startsWith (text.drop count) character = true) : count < text.length := by
  rcases exists_of_startsWith starts with ⟨_, _, shape, _⟩
  have lengths := congrArg List.length shape
  rw [List.length_drop, List.length_cons] at lengths
  omega

theorem length_pos_of_startsWith {character : Char} (starts : startsWith text character = true) :
    0 < text.length := by
  rcases exists_of_startsWith starts with ⟨_, _, rfl, _⟩
  exact Nat.succ_pos _

theorem length_pos_of_startsWithAny {test : Nat → Bool}
    (starts : startsWithAny text test = true) : 0 < text.length := by
  cases text with
  | nil => cases starts
  | cons byte rest => exact Nat.succ_pos _

theorem length_lt_of_upTo {character : Char} {before : List UInt8}
    (found : upTo character text = some before) : before.length < text.length := by
  unfold upTo at found
  extract_lets front at found
  split at found
  · injection found with same
    exact same ▸ ‹_›
  · cases found

theorem prefix_of_upTo {character : Char} {before : List UInt8}
    (found : upTo character text = some before) : before <+: text := by
  unfold upTo at found
  extract_lets front at found
  split at found
  · injection found with same
    exact same ▸ List.takeWhile_prefix _
  · cases found

theorem byte_of_ofUInt8 {byte : UInt8} {character : Char}
    (same : Char.ofUInt8 byte = character) : byte = character.toUInt8 := by
  rw [← same]
  exact UInt8.ofNat_toNat.symm

theorem following_readCharacter_le (settings : Settings) (lead : UInt8) (rest : List UInt8) :
    (readCharacter settings lead rest).2 ≤ rest.length := by
  rw [readCharacter]
  split
  · split
    · rename_i decoded
      have := (Utf8.length_of_decode decoded).2
      rw [List.length_cons] at this
      omega
    · exact Nat.zero_le _
  · exact Nat.zero_le _

theorem used_readDigits_le (radix most : Nat) (text : List UInt8) :
    (readDigits radix most text).2 ≤ text.length :=
  Nat.le_trans (length_leading_le _ _) (List.length_take_le' _ _)

end Fronts

/-! ## Names and references -/

section Readers

variable {pattern text : List UInt8} {settings : Settings} {start offset captures : Nat}

theorem readName_takesFrom (terminator : Char) (there : offset + text.length = pattern.length) :
    Reading.TakesFrom pattern offset (readName terminator text offset) := by
  unfold readName
  extract_lets name
  have nameInside : name.length ≤ text.length := length_leading_le _ _
  split
  · exact ensures_refuseFor (by omega) (by decide)
  · split
    · exact ensures_refuse (by omega) (by decide)
    · rename_i closed
      split
      · exact ensures_refuseFor (by omega) (by decide)
      · simp only [Bool.or_eq_true, Bool.not_eq_true', not_or, Bool.not_eq_false] at closed
        have := lt_length_of_startsWith_drop closed.2
        change offset + (name.length + 1) ≤ pattern.length
        omega

/-- A reference that counts on overflows only if it counts beyond what 64 bits hold. -/
theorem referredGroup_ensures {sign : Option Char} {number : Nat}
    (inside : start ≤ pattern.length) :
    Reading.Ensures
      (fun failure => failure.Placed pattern ∨ failure = .overflow
        ∧ (∃ character, sign = some character ∧ character ≠ '-') ∧ 2 ^ 64 ≤ captures + number)
      (fun _ => True) (referredGroup sign number captures start) := by
  have unknown : Reading.Ensures
      (fun failure => failure.Placed pattern ∨ failure = .overflow
        ∧ (∃ character, sign = some character ∧ character ≠ '-') ∧ 2 ^ 64 ≤ captures + number)
      (fun _ => True) (refuse .unknownGroupReference start : Reading Nat) :=
    (ensures_refuse inside (by decide)).imp (fun _ => .inl) fun _ => id
  unfold referredGroup
  split
  · split
    · exact unknown
    · trivial
  · rename_i character notMinus
    split
    · rename_i beyond
      exact .inr ⟨rfl, ⟨character, rfl, fun same => notMinus (same ▸ rfl)⟩, by omega⟩
    · split
      · exact unknown
      · trivial
  · split
    · exact unknown
    · trivial

theorem interpretReference_ensures {content : List UInt8} {braced : Bool} {stop : Nat}
    (startInside : start ≤ pattern.length) (stopInside : stop ≤ pattern.length) :
    Reading.Ensures
      (fun failure => failure.Placed pattern ∨ failure = .overflow
        ∧ ∃ digits, content = 0x2B :: digits
          ∧ (∀ digit ∈ digits, Ascii.isDigit digit.toNat = true)
          ∧ 2 ^ 64 ≤ captures + Ascii.digitsValue 10 digits)
      (fun _ => True) (interpretReference content braced captures start stop) := by
  unfold interpretReference
  extract_lets sign body
  split
  · rename_i number
    refine .bind_of_forall ?_ fun _ => trivial
    refine (referredGroup_ensures startInside).imp ?_ fun _ => id
    rintro failure (placed | ⟨overflow, ⟨character, signed, notMinus⟩, beyond⟩)
    · exact .inl placed
    refine .inr ⟨overflow, body, ?_, ?_, ?_⟩
    · have plus : startsWith content '+' = true := by
        by_cases minus : startsWith content '-' = true
        · simp only [sign, minus, if_true, Option.some.injEq] at signed
          exact absurd signed.symm notMinus
        · apply Decidable.byContradiction
          intro unsigned
          simp [sign, minus, unsigned] at signed
      rcases exists_of_startsWith plus with ⟨byte, rest, shape, same⟩
      have isPlus : byte = 0x2B := byte_of_ofUInt8 same
      have isBody : body = rest := by
        simp only [body, signed, Option.isSome_some, if_true, shape, List.tail_cons]
      rw [isBody, shape, isPlus]
    · simp only [Bool.and_eq_true, List.all_eq_true] at number
      exact number.2
    · rw [groupNumber] at beyond
      omega
  · split
    · trivial
    · exact (ensures_refuseFor stopInside (by decide)).imp (fun _ => .inl) fun _ => id

theorem readRelativeReference_takesFrom
    (behind : pattern.drop start = 0x5C :: 0x67 :: text) (counted : captures ≤ pattern.length) :
    Reading.TakesFrom pattern (start + 2)
      (readRelativeReference text captures start (start + 2)) := by
  have there : start + 2 + text.length = pattern.length := by
    have lengths := congrArg List.length behind
    rw [List.length_drop, List.length_cons, List.length_cons] at lengths
    omega
  unfold readRelativeReference
  split
  · rename_i braced
    rcases exists_of_startsWith braced with ⟨byte, rest, rfl, same⟩
    have isBrace : byte = 0x7B := byte_of_ofUInt8 same
    rw [List.length_cons] at there
    rw [List.tail_cons]
    split
    · exact ensures_refuseFor (by omega) (by decide)
    · rename_i content found
      have shorter := length_lt_of_upTo found
      extract_lets used
      have inside : start + 2 + used ≤ pattern.length := by omega
      refine .bind_of_forall ?_ fun _ => inside
      refine (interpretReference_ensures (by omega) inside).imp ?_ fun _ => id
      rintro failure (placed | ⟨rfl, digits, shape, allDigits, beyond⟩)
      · exact placed
      · refine ⟨start, digits, allDigits, by omega, .inr ?_⟩
        rw [behind, isBrace]
        have front := prefix_of_upTo found
        rw [shape] at front
        simpa [List.cons_prefix_cons] using front
  · split
    · exact ensures_refuseFor (by omega) (by decide)
    · extract_lets signLength used
      have inside : start + 2 + used ≤ pattern.length := by
        have := length_leading_le (fun codePoint => (Ascii.digitValue? 10 codePoint).isSome)
          (text.drop signLength)
        rw [List.length_drop] at this
        have signInside : signLength ≤ text.length := by
          simp only [signLength]
          split
          · rename_i signed
            rw [Bool.or_eq_true] at signed
            exact signed.elim length_pos_of_startsWith length_pos_of_startsWith
          · exact Nat.zero_le _
        have usedInside : used ≤ text.length := by
          simp only [used, leadingDigits]
          omega
        omega
      refine .bind_of_forall ?_ fun _ => inside
      refine (interpretReference_ensures (by omega) inside).imp ?_ fun _ => id
      rintro failure (placed | ⟨rfl, digits, shape, allDigits, beyond⟩)
      · exact placed
      · refine ⟨start, digits, allDigits, by omega, .inl ?_⟩
        rw [behind]
        have front := List.take_prefix used text
        rw [shape] at front
        simpa [List.cons_prefix_cons] using front

theorem readNamedReference_takesFrom (there : offset + text.length = pattern.length) :
    Reading.TakesFrom pattern offset (readNamedReference text start offset) := by
  have behind : ∀ terminator, 0 < text.length → Reading.TakesFrom pattern offset
      (readName terminator text.tail (offset + 1) >>= fun name =>
        pure (Reference.name name.1 start, name.2 + 1)) := by
    intro terminator nonempty
    have tailThere : offset + 1 + text.tail.length = pattern.length := by
      rw [List.length_tail]
      omega
    exact (readName_takesFrom terminator tailThere).behindFirst fun name =>
      Reference.name name start
  unfold readNamedReference
  split
  · rename_i starts
    exact behind _ (length_pos_of_startsWith starts)
  · split
    · rename_i starts
      exact behind _ (length_pos_of_startsWith starts)
    · split
      · rename_i starts
        exact behind _ (length_pos_of_startsWith starts)
      · exact ensures_refuseFor (by omega) (by decide)

/-! ## Escapes -/

theorem checkCharacter_ensures {value : Nat} (inside : offset ≤ pattern.length) :
    Reading.Ensures (·.Placed pattern) (fun _ => True) (checkCharacter settings value offset) := by
  unfold checkCharacter
  extract_lets greatest
  split
  · exact ensures_refuseFor inside (by decide)
  · split
    · exact ensures_refuseFor inside (by decide)
    · trivial

theorem readBracedNumber_takesFrom (radix : Nat) (there : offset + text.length = pattern.length) :
    Reading.TakesFrom pattern offset (readBracedNumber radix text offset) := by
  unfold readBracedNumber
  extract_lets digits
  have digitsInside : digits.length ≤ text.tail.length := length_leading_le _ _
  rw [List.length_tail] at digitsInside
  split
  · exact ensures_refuse (by omega) (by decide)
  · rename_i opened
    have nonempty := length_pos_of_startsWith (by simpa using opened)
    split
    · exact ensures_refuse (by omega) (by decide)
    · rename_i closed
      simp only [Bool.or_eq_true, Bool.not_eq_true', not_or, Bool.not_eq_false] at closed
      have shorter := lt_length_of_startsWith_drop closed.2
      rw [List.length_tail] at shorter
      change offset + (digits.length + 2) ≤ pattern.length
      omega

theorem readCharacterEscape_takesFrom {byte : UInt8}
    (there : offset + 1 + text.length = pattern.length) :
    Reading.TakesFrom pattern (offset + 1) (readCharacterEscape settings byte text offset) := by
  have digits : ∀ radix most, Reading.TakesFrom pattern (offset + 1)
      (.ok (readDigits radix most text)) := by
    intro radix most
    have := used_readDigits_le radix most text
    change offset + 1 + _ ≤ pattern.length
    omega
  have braced : ∀ radix, Reading.TakesFrom pattern (offset + 1)
      (readBracedNumber radix text (offset + 1) >>= fun number =>
        checkCharacter settings number.1 offset >>= fun value => pure (value, number.2)) := by
    intro radix
    refine (readBracedNumber_takesFrom radix there).bind fun number taken => ?_
    refine (checkCharacter_ensures (by omega)).bind fun _ _ => ?_
    exact taken
  have simple : ∀ character : Nat, Reading.TakesFrom pattern (offset + 1) (.ok (character, 0)) := by
    intro character
    change offset + 1 + 0 ≤ pattern.length
    omega
  unfold readCharacterEscape
  split
  iterate 6 exact simple _
  · exact digits 8 2
  · exact braced 8
  · split
    · exact braced 16
    · exact digits 16 2
  · split
    · exact ⟨Nat.le_of_eq there, fun _ => there, fun other => by cases other⟩
    · rw [List.length_cons] at there
      split
      · exact ensures_refuseFor (by omega) (by decide)
      · change offset + 1 + 1 ≤ pattern.length
        omega
  · split
    · split
      · exact ensures_refuse (by omega) (by decide)
      · exact simple _
    · have := following_readCharacter_le settings byte text
      change offset + 1 + _ ≤ pattern.length
      omega

theorem readProperty_takesFrom {negated : Bool} (there : offset + text.length = pattern.length) :
    Reading.TakesFrom pattern offset (readProperty negated text offset) := by
  unfold readProperty
  split
  · rename_i opened
    have nonempty := length_pos_of_startsWith opened
    extract_lets signLength
    have signInside : signLength ≤ text.tail.length := by
      simp only [signLength]
      split
      · rename_i signed
        exact length_pos_of_startsWith signed
      · exact Nat.zero_le _
    split
    · exact ensures_refuseFor (Nat.le_of_eq there) (by decide)
    · rename_i name found
      have shorter := length_lt_of_upTo found
      rw [List.length_drop, List.length_tail] at shorter
      rw [List.length_tail] at signInside
      extract_lets used
      split
      · exact ensures_refuse (by omega) (by decide)
      · change offset + used ≤ pattern.length
        omega
  · split
    · rename_i starts
      have nonempty := length_pos_of_startsWithAny starts
      split
      · exact ensures_refuse (by omega) (by decide)
      · change offset + 1 ≤ pattern.length
        omega
    · exact ensures_refuseFor (by omega) (by decide)

theorem used_readQuoted_le (settings : Settings) (text : List UInt8) :
    (readQuoted settings text).2 ≤ text.length := by
  fun_induction readQuoted settings text with
  | case1 => exact Nat.le_refl _
  | case2 byte rest closes =>
      rw [Bool.and_eq_true] at closes
      have := length_pos_of_startsWith closes.2
      rw [List.length_cons]
      omega
  | case3 byte rest _ character following read characters used readRest induction =>
      have := following_readCharacter_le settings byte rest
      rw [read] at this
      rw [readRest, List.length_drop] at induction
      rw [List.length_cons]
      omega

theorem readNumericEscape_takesFrom (there : offset + text.length = pattern.length)
    (startInside : start ≤ pattern.length) :
    Reading.TakesFrom pattern offset (readNumericEscape settings captures text start) := by
  unfold readNumericEscape
  extract_lets digits number
  split
  · have shorter : (leadingDigits 8 (text.take 3)).length ≤ text.length :=
      used_readDigits_le 8 3 text
    refine (checkCharacter_ensures startInside).bind fun _ _ => ?_
    change offset + (leadingDigits 8 (text.take 3)).length ≤ pattern.length
    omega
  · have : digits.length ≤ text.length := length_leading_le _ _
    change offset + digits.length ≤ pattern.length
    omega

theorem readEscape_takesFrom (behind : pattern.drop start = 0x5C :: text)
    (counted : captures ≤ pattern.length) :
    Reading.TakesFrom pattern (start + 1) (readEscape settings captures text start) := by
  have there : start + 1 + text.length = pattern.length := by
    have lengths := congrArg List.length behind
    rw [List.length_drop, List.length_cons] at lengths
    omega
  unfold readEscape
  split
  · exact ensures_refuse_trailing there
  · rename_i byte rest
    rw [List.length_cons] at there
    have restThere : start + 2 + rest.length = pattern.length := by omega
    have single : ∀ escape : Escape, Reading.TakesFrom pattern (start + 1) (.ok (escape, 1)) := by
      intro escape
      change start + 1 + 1 ≤ pattern.length
      omega
    extract_lets offset
    split
    · have := used_readQuoted_le settings rest
      change start + 1 + (_ + 1) ≤ pattern.length
      omega
    iterate 8 exact single _
    · split
      · exact ensures_refuseFor (by omega) (by decide)
      · exact single _
    · rename_i same
      have isG : byte = 0x67 := byte_of_ofUInt8 same
      exact (readRelativeReference_takesFrom (isG ▸ behind) counted).behindFirst Escape.reference
    · exact (readNamedReference_takesFrom restThere).behindFirst Escape.reference
    · exact (readProperty_takesFrom restThere).behindFirst Escape.set
    · exact (readProperty_takesFrom restThere).behindFirst Escape.set
    iterate 7 exact ensures_refuseFor (by omega) (by simp [CompileFault.kind])
    · split
      · exact single _
      · split
        · exact readNumericEscape_takesFrom there (by omega)
        · exact (readCharacterEscape_takesFrom restThere).behindFirst fun character =>
            Escape.characters [character]

/-! ## Bracketed classes -/

theorem add_two_le_of_beforeClosingPair {delimiter : Char} {count : Nat}
    (found : beforeClosingPair delimiter text = some count) : count + 2 ≤ text.length := by
  induction text generalizing count with
  | nil => cases found
  | cons byte rest induction =>
      rw [beforeClosingPair] at found
      rw [List.length_cons]
      split at found
      · rename_i closes
        rw [Bool.and_eq_true] at closes
        have := length_pos_of_startsWith closes.2
        injection found with same
        omega
      · rcases Option.map_eq_some_iff.mp found with ⟨before, foundBehind, rfl⟩
        have := induction foundBehind
        omega

theorem readPosixClass_takesFrom (there : offset + 1 + text.length = pattern.length) :
    Reading.TakesFrom pattern (offset + 1) (readPosixClass text offset) := by
  have plain : Reading.TakesFrom pattern (offset + 1) (.ok (BracketMember.character 0x5B, 0)) := by
    change offset + 1 + 0 ≤ pattern.length
    omega
  unfold readPosixClass
  extract_lets plainBracket
  split
  · exact plain
  · rename_i delimiterByte inside
    rw [List.length_cons] at there
    extract_lets delimiter
    split
    · exact plain
    · split
      · exact plain
      · rename_i length found
        have enough := add_two_le_of_beforeClosingPair found
        split
        · exact ensures_refuseFor (by omega) (by decide)
        · extract_lets content negated name
          split
          · exact ensures_refuse (by omega) (by decide)
          · change offset + 1 + (length + 3) ≤ pattern.length
            omega

theorem readBracketEscape_takesFrom (there : offset + text.length = pattern.length) :
    Reading.TakesFrom pattern offset (readBracketEscape settings text offset) := by
  unfold readBracketEscape
  split
  · exact ensures_refuse_trailing there
  · rename_i byte rest
    have restThere : offset + 1 + rest.length = pattern.length := by
      rw [List.length_cons] at there
      omega
    have single : ∀ member : BracketMember,
        Reading.TakesFrom pattern offset (.ok (member, 1)) := by
      intro member
      change offset + 1 ≤ pattern.length
      omega
    split
    iterate 3 exact single _
    iterate 2 exact (readProperty_takesFrom restThere).behindFirst BracketMember.item
    iterate 2 exact single _
    iterate 10 exact ensures_refuseFor (by omega) (by decide)
    · split
      · exact single _
      · split
        · have shorter : (leadingDigits 8 ((byte :: rest).take 3)).length ≤ (byte :: rest).length :=
            used_readDigits_le 8 3 (byte :: rest)
          refine (checkCharacter_ensures (by omega)).bind fun _ _ => ?_
          change offset + (leadingDigits 8 ((byte :: rest).take 3)).length ≤ pattern.length
          omega
        · exact (readCharacterEscape_takesFrom restThere).behindFirst BracketMember.character

theorem readMember_takesFrom {quoted : Bool} {byte : UInt8}
    (there : offset + 1 + text.length = pattern.length) :
    Reading.TakesFrom pattern (offset + 1) (readMember settings quoted byte text offset) := by
  have plain : Reading.TakesFrom pattern (offset + 1)
      (.ok (BracketMember.character (readCharacter settings byte text).1,
        (readCharacter settings byte text).2)) := by
    have := following_readCharacter_le settings byte text
    change offset + 1 + (readCharacter settings byte text).2 ≤ pattern.length
    omega
  unfold readMember
  extract_lets plainCharacter
  split
  · split
    · rename_i closes
      rw [Bool.and_eq_true] at closes
      have := length_pos_of_startsWith closes.2
      change offset + 1 + 1 ≤ pattern.length
      omega
    · exact plain
  · split
    · exact readPosixClass_takesFrom there
    · exact readBracketEscape_takesFrom there
    · exact plain

theorem addRange_ensures (state : BracketState) (low : Nat) (upper : BracketMember) {stop : Nat}
    (inside : stop ≤ pattern.length) :
    Reading.Ensures (·.Placed pattern) (fun _ => True) (state.addRange low upper stop) := by
  unfold BracketState.addRange
  extract_lets separate
  split
  · split
    · exact ensures_refuse inside (by decide)
    · trivial
  · trivial
  · trivial

theorem two_le_of_dashMakesRange {quoted : Bool} (makes : dashMakesRange quoted text = true) :
    2 ≤ text.length := by
  unfold dashMakesRange at makes
  split at makes
  · simp only [List.length_cons]
    omega
  · cases makes

theorem readMembers_ensures {state : BracketState}
    (there : offset + text.length = pattern.length) :
    Reading.Ensures (·.Placed pattern) (fun members => members.2 ≤ pattern.length)
      (readMembers settings state text offset) := by
  fun_induction readMembers settings state text offset with
  | case1 state offset => exact ensures_refuse (Nat.le_of_eq there) (by decide)
  | case2 state offset byte rest =>
      rw [List.length_cons] at there
      change offset + 1 ≤ pattern.length
      omega
  | case3 state offset byte rest _ failure read =>
      rw [List.length_cons] at there
      exact (readMember_takesFrom (by omega)).of_error read
  | case4 state offset byte rest _ item following read induction =>
      rw [List.length_cons] at there
      have taken : offset + 1 + following ≤ pattern.length :=
        (readMember_takesFrom (by omega)).of_ok read
      exact induction (by rw [List.length_drop]; omega)
  | case5 state offset byte rest _ on following read induction =>
      rw [List.length_cons] at there
      have taken : offset + 1 + following ≤ pattern.length :=
        (readMember_takesFrom (by omega)).of_ok read
      exact induction (by rw [List.length_drop]; omega)
  | case6 state offset byte rest _ low following read dash nothing =>
      have behind := two_le_of_dashMakesRange dash
      have lengths := congrArg List.length nothing
      simp only [List.length_drop, List.length_nil] at behind lengths
      omega
  | case7 state offset byte rest _ low following read _ upperByte upperRest shape upperOffset
      failure upperRead =>
      have lengths := congrArg List.length shape
      simp only [List.length_drop, List.length_cons] at lengths there
      exact (readMember_takesFrom (by omega)).of_error upperRead
  | case8 state offset byte rest _ low following read _ upperByte upperRest shape upperOffset
      upper upperFollowing upperRead stop failure added =>
      have lengths := congrArg List.length shape
      simp only [List.length_drop, List.length_cons] at lengths there
      have taken : upperOffset + 1 + upperFollowing ≤ pattern.length :=
        (readMember_takesFrom (by omega)).of_ok upperRead
      have range := addRange_ensures state low upper taken
      rw [added] at range
      exact range
  | case9 state offset byte rest _ low following read _ upperByte upperRest shape upperOffset
      upper upperFollowing upperRead stop next added induction =>
      have lengths := congrArg List.length shape
      simp only [List.length_drop, List.length_cons] at lengths there
      have taken : upperOffset + 1 + upperFollowing ≤ pattern.length :=
        (readMember_takesFrom (by omega)).of_ok upperRead
      exact induction (by rw [List.length_drop]; omega)
  | case10 state offset byte rest _ low following read _ induction =>
      rw [List.length_cons] at there
      have taken : offset + 1 + following ≤ pattern.length :=
        (readMember_takesFrom (by omega)).of_ok read
      exact induction (by rw [List.length_drop]; omega)

theorem readBrackets_takesFrom {caseless : Bool} (there : offset + text.length = pattern.length) :
    Reading.TakesFrom pattern offset (readBrackets settings caseless text offset) := by
  unfold readBrackets
  extract_lets negated signLength
  have signInside : signLength ≤ text.length := by
    simp only [signLength]
    split
    · rename_i signed
      exact length_pos_of_startsWith signed
    · exact Nat.zero_le _
  have membersThere : offset + signLength + (text.drop signLength).length = pattern.length := by
    rw [List.length_drop]
    omega
  refine (readMembers_ensures membersThere).bind fun members inside => ?_
  change offset + (members.2 - offset) ≤ pattern.length
  omega

/-! ## Quantifiers -/

theorem length_lt_of_scan {braces : Braces} (found : Braces.scan? text = some braces) :
    braces.low.length ≤ braces.length ∧ braces.length < text.length := by
  unfold Braces.scan? at found
  extract_lets low rest high at found
  split at found
  · cases found
  · split at found
    · rename_i closed
      injection found with same
      rw [← same]
      exact ⟨Nat.le_refl _, lt_length_of_startsWith_drop closed⟩
    · split at found
      · rename_i comma
        split at found
        · rename_i closed
          injection found with same
          rw [← same]
          have lowInside := lt_length_of_startsWith_drop comma
          have closes := lt_length_of_startsWith_drop closed
          rw [List.length_tail, List.length_drop] at closes
          change low.length ≤ low.length + (high.length + 1)
            ∧ low.length + (high.length + 1) < text.length
          omega
        · cases found
      · cases found

theorem number_ensures {digits : List UInt8} (inside : offset ≤ pattern.length) :
    Reading.Ensures (·.Placed pattern) (fun _ => True) (Braces.number digits offset) := by
  unfold Braces.number
  extract_lets value
  split
  · exact ensures_refuse inside (by decide)
  · trivial

theorem bounds_ensures {braces : Braces} (there : offset + 1 + text.length = pattern.length)
    (found : Braces.scan? text = some braces) :
    Reading.Ensures (·.Placed pattern) (fun _ => True) (braces.bounds offset) := by
  have lengths := length_lt_of_scan found
  unfold Braces.bounds
  refine (number_ensures (by omega)).bind fun least _ => ?_
  split
  · trivial
  · trivial
  · refine (number_ensures (by omega)).bind fun greatest _ => ?_
    split
    · exact ensures_refuse (by omega) (by decide)
    · trivial

theorem used_readManner_le (ungreedy : Bool) (text : List UInt8) :
    (readManner ungreedy text).2 ≤ text.length := by
  unfold readManner
  split
  · exact length_pos_of_startsWith ‹_›
  · split
    · exact length_pos_of_startsWith ‹_›
    · exact Nat.zero_le _

theorem readRepeat_takesFrom {state : State} {bounds : Reading RepeatBounds} {boundsLength : Nat}
    (there : offset + 1 + text.length = pattern.length) (boundsInside : boundsLength ≤ text.length)
    (bounded : Reading.Ensures (·.Placed pattern) (fun _ => True) bounds) :
    Reading.TakesFrom pattern (offset + 1)
      (readRepeat state bounds boundsLength text offset) := by
  unfold readRepeat
  split
  · exact ensures_refuse (by omega) (by decide)
  · refine bounded.bind fun value _ => ?_
    have manner := used_readManner_le state.flags.ungreedy (text.drop boundsLength)
    rw [List.length_drop] at manner
    change offset + 1
      + (boundsLength + (readManner state.flags.ungreedy (text.drop boundsLength)).2)
        ≤ pattern.length
    omega

/-! ## Openings -/

theorem readFlags_takesFrom {flags : Flags} {on : Bool} (opens : pattern[start]? = some 0x28)
    (later : start < offset) (there : offset + text.length = pattern.length) :
    Reading.TakesFrom pattern (start + 1) (readFlags flags on text start offset) := by
  induction text generalizing flags on offset with
  | nil => exact ensures_refuse_unclosed opens
  | cons byte rest induction =>
      rw [List.length_cons] at there
      have here : ∀ opening : Opening,
          Reading.TakesFrom pattern (start + 1) (.ok (opening, offset - start)) := by
        intro opening
        change start + 1 + (offset - start) ≤ pattern.length
        omega
      rw [readFlags]
      split
      · exact here _
      · exact here _
      · split
        · exact induction (by omega) (by omega)
        · split
          · exact induction (by omega) (by omega)
          · exact ensures_refuse (by omega) (by decide)

theorem readSpecialOpening_takesFrom {flags : Flags} (opens : pattern[start]? = some 0x28)
    (there : start + 2 + text.length = pattern.length) :
    Reading.TakesFrom pattern (start + 1) (readSpecialOpening flags text start) := by
  have named : ∀ terminator signs, 1 ≤ signs → signs ≤ text.length + 1 →
      Reading.TakesFrom pattern (start + 1)
        (readName terminator (text.drop (signs - 1)) (start + 1 + signs) >>= fun name =>
          pure (Opening.named name.1, signs + name.2)) := by
    intro terminator signs positive inside
    have nameThere : start + 1 + signs + (text.drop (signs - 1)).length = pattern.length := by
      rw [List.length_drop]
      omega
    refine (readName_takesFrom terminator nameThere).bind fun name taken => ?_
    change start + 1 + (signs + name.2) ≤ pattern.length
    omega
  unfold readSpecialOpening
  extract_lets namedOpening unsupported
  split
  · exact ensures_refuse_unclosed opens
  · rename_i byte rest
    rw [List.length_cons] at there
    have refused : ∀ construct, Reading.TakesFrom pattern (start + 1) (unsupported construct) :=
      fun construct => ensures_refuseFor (by omega) (by simp [CompileFault.kind])
    have complete : ∀ opening : Opening,
        Reading.TakesFrom pattern (start + 1) (.ok (opening, 2)) := by
      intro opening
      change start + 1 + 2 ≤ pattern.length
      omega
    have lookbehind : ∀ negated, 0 < rest.length →
        Reading.TakesFrom pattern (start + 1) (.ok (Opening.lookbehind negated, 3)) := by
      intro negated nonempty
      change start + 1 + 3 ≤ pattern.length
      omega
    split
    · split
      · have atEnd : start + 2 + (byte :: rest).length ≤ pattern.length := by
          rw [List.length_cons]
          omega
        exact ⟨atEnd, (fun other => by cases other), fun _ other => absurd other (by decide)⟩
      · rename_i comment found
        have shorter := length_lt_of_upTo found
        change start + 1 + (comment.length + 3) ≤ pattern.length
        omega
    iterate 4 exact complete _
    · split
      · exact lookbehind _ (length_pos_of_startsWith ‹_›)
      · split
        · exact lookbehind _ (length_pos_of_startsWith ‹_›)
        · exact named '>' 2 (by omega) (by rw [List.length_cons]; omega)
    · exact named '\x27' 2 (by omega) (by rw [List.length_cons]; omega)
    · split
      · have nonempty := length_pos_of_startsWith ‹_›
        exact named '>' 3 (by omega) (by rw [List.length_cons]; omega)
      · split
        · have nonempty := length_pos_of_startsWith ‹_›
          have nameThere : start + 4 + rest.tail.length = pattern.length := by
            rw [List.length_tail]
            omega
          refine (readName_takesFrom ')' nameThere).bind fun name taken => ?_
          change start + 1 + (name.2 + 3) ≤ pattern.length
          omega
        · split
          · exact refused _
          · exact ensures_refuse (by omega) (by decide)
    iterate 6 exact refused _
    · split
      · exact refused _
      · exact readFlags_takesFrom opens (by omega) (by rw [List.length_cons]; omega)

theorem readOpening_takesFrom {flags : Flags} (opens : pattern[start]? = some 0x28)
    (there : start + 1 + text.length = pattern.length) :
    Reading.TakesFrom pattern (start + 1) (readOpening settings flags text start) := by
  have nothing : ∀ opening : Opening, Reading.TakesFrom pattern (start + 1) (.ok (opening, 0)) := by
    intro opening
    change start + 1 + 0 ≤ pattern.length
    omega
  unfold readOpening
  split
  · have nonempty := length_pos_of_startsWith ‹_›
    exact readSpecialOpening_takesFrom opens (by rw [List.length_tail]; omega)
  · split
    · exact ensures_refuseFor (by omega) (by decide)
    · split
      · exact nothing _
      · exact nothing _

end Readers

end PerlRegex.Pattern
