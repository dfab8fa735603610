import PerlRegex.Proofs.CaseFolding.Letters
import PerlRegex.Proofs.ClassText
import PerlRegex.Proofs.Pattern.Shifting

/-! What a caseless class of escapes holds. The members of a caseless class are looked for among all
variants of a character, also where the members are escapes, which have no case outside brackets.
That makes a difference for capitals and small letters, and for the word characters of ASCII. -/

namespace PerlRegex

open CaseFolding (variants)

/-! ## Letters in the classes of characters -/

open Unicode

theorem isWordCharacter_of_isAlphabetic {character : Nat} (letter : isAlphabetic character = true) :
    isWordCharacter true character = true := by
  rw [isWordCharacter, isAlphanumeric_of_isAlphabetic letter, Bool.and_true, Bool.or_true]

theorem EscapeClass.contains_of_isAlphabetic {kind : EscapeClass} {character : Nat} (ucp : Bool)
    (letter : isAlphabetic character = true) (other : kind ≠ .word) :
    kind.contains ucp character = false := by
  have ascii := ascii_of_isAlphabetic letter
  have spaces := not_sign_of_isAlphabetic letter
  cases kind with
  | word => exact absurd rfl other
  | digit =>
      rw [contains, not_isDecimal_of_isAlphabetic letter]
      simp only [Ascii.isDigit, Bool.and_false, Bool.or_false, Bool.and_eq_false_iff,
        decide_eq_false_iff_not]
      omega
  | space =>
      rw [contains, not_isWhiteSpace_of_isAlphabetic letter]
      simp only [Ascii.isSpace, Bool.and_false, Bool.or_false, Bool.and_eq_false_iff,
        Bool.or_eq_false_iff, decide_eq_false_iff_not, beq_eq_false_iff_ne]
      omega
  | horizontalSpace =>
      have first := spaces (0x2000, 0x2029) (by decide)
      have second := spaces (0x202F, 0x205F) (by decide)
      have third := spaces (0x1680, 0x1680) (by decide)
      have fourth := spaces (0x180E, 0x180E) (by decide)
      have fifth := spaces (0x3000, 0x3003) (by decide)
      dsimp only at first second third fourth fifth
      simp only [contains, List.contains_eq_mem, List.mem_cons, List.not_mem_nil, or_false,
        Bool.or_eq_false_iff, Bool.and_eq_false_iff, decide_eq_false_iff_not]
      omega
  | verticalSpace =>
      have first := spaces (0x2000, 0x2029) (by decide)
      dsimp only at first
      simp only [contains, List.contains_eq_mem, List.mem_cons, List.not_mem_nil, or_false,
        Bool.or_eq_false_iff, Bool.and_eq_false_iff, decide_eq_false_iff_not]
      omega

theorem Property.contains_eq_of_isAlphabetic {kind : Property} {first second : Nat}
    (letter : isAlphabetic first = true) (other : isAlphabetic second = true)
    (upper : kind ≠ .uppercase) (lower : kind ≠ .lowercase) (number : kind ≠ .number) :
    kind.contains first = kind.contains second := by
  cases kind with
  | uppercase => exact absurd rfl upper
  | lowercase => exact absurd rfl lower
  | number => exact absurd rfl number
  | any => rw [contains, contains, isScalar_of_isAlphabetic letter, isScalar_of_isAlphabetic other]
  | letter => rw [contains, contains, letter, other]
  | decimalNumber =>
      rw [contains, contains, not_isDecimal_of_isAlphabetic letter,
        not_isDecimal_of_isAlphabetic other]
  | separator =>
      rw [contains, contains, not_isWhiteSpace_of_isAlphabetic letter,
        not_isWhiteSpace_of_isAlphabetic other]
      rfl
  | control =>
      rw [contains, contains, not_isControl_of_isAlphabetic letter,
        not_isControl_of_isAlphabetic other]
  | punctuation =>
      rw [contains, contains, not_isPunctuation_of_isAlphabetic letter,
        not_isPunctuation_of_isAlphabetic other, not_isWidePunctuation_of_isAlphabetic letter,
        not_isWidePunctuation_of_isAlphabetic other]
  | alphanumeric =>
      rw [contains, contains, isAlphanumeric_of_isAlphabetic letter,
        isAlphanumeric_of_isAlphabetic other]
  | perlSpace =>
      rw [contains, contains, not_isWhiteSpace_of_isAlphabetic letter,
        not_isWhiteSpace_of_isAlphabetic other]
  | perlWord =>
      rw [contains, contains, isWordCharacter_of_isAlphabetic letter,
        isWordCharacter_of_isAlphabetic other]

/-! ## Escapes and variants -/

namespace CharSetItem

/-- Whether an item is written with a backslash. -/
def isEscape : CharSetItem → Bool
  | .escape _ _ => true
  | .property _ _ => true
  | _ => false

/-- The characters that an escape tells from one of their variants. -/
def Divides (ucp : Bool) (character : Nat) : CharSetItem → Prop
  | .escape .word _ => ucp = false ∧ character ∈ CaseFolding.asciiCrossings
  | .property .lowercase _ => variants character ≠ [character]
  | .property .uppercase _ =>
      variants character ≠ [character] ∧ character ∉ CaseFolding.iotaCapitals
  | _ => False

theorem bne_ne_bne {first second : Bool} (negated : Bool) :
    ((first != negated) ≠ (second != negated)) ↔ first ≠ second := by
  cases negated <;> simp

section

variable {character : Nat}

theorem divides_lowercase :
    (∃ other ∈ variants character, isLowercase other ≠ isLowercase character) ↔
      variants character ≠ [character] := by
  constructor
  · rintro ⟨other, member, differs⟩ alone
    rw [alone] at member
    exact differs (congrArg isLowercase (List.mem_singleton.mp member))
  · intro cased
    cases lower : isLowercase character with
    | false =>
        rcases CaseFolding.exists_isLowercase_of_cased cased with ⟨small, member, smallLower⟩
        exact ⟨small, member, by simp [smallLower]⟩
    | true =>
        rcases CaseFolding.exists_not_isLowercase_of_cased cased with ⟨other, member, notLower⟩
        exact ⟨other, member, by simp [notLower]⟩

theorem divides_uppercase :
    (∃ other ∈ variants character, isUppercase other ≠ isUppercase character) ↔
      variants character ≠ [character] ∧ character ∉ CaseFolding.iotaCapitals := by
  by_cases alone : variants character = [character]
  · apply iff_of_false
    · rintro ⟨other, member, differs⟩
      rw [alone] at member
      exact differs (congrArg isUppercase (List.mem_singleton.mp member))
    · exact fun divides => divides.1 alone
  · have capitals := CaseFolding.exists_isUppercase_iff_of_cased alone
    cases upper : isUppercase character with
    | false =>
        simp only [Bool.not_eq_false, capitals, ne_eq, alone, not_false_eq_true, true_and]
    | true =>
        have notIota := capitals.mp ⟨character, CaseFolding.mem_variants_self character, upper⟩
        rcases CaseFolding.exists_isLowercase_of_cased alone with ⟨small, member, lower⟩
        refine iff_of_true ⟨small, member, fun smallUpper => ?_⟩ ⟨alone, notIota⟩
        rw [not_isLowercase_of_isUppercase smallUpper] at lower
        cases lower

/-- What all letters agree on is the same for all variants of a character. -/
theorem not_divides {property : Nat → Bool}
    (agree : ∀ first second, isAlphabetic first = true → isAlphabetic second = true →
      property first = property second) :
    ¬ ∃ other ∈ variants character, property other ≠ property character := by
  rintro ⟨other, member, differs⟩
  by_cases alone : variants character = [character]
  · rw [alone] at member
    exact differs (congrArg property (List.mem_singleton.mp member))
  · have letters : ∀ letter ∈ variants character, isAlphabetic letter = true :=
      fun letter => CaseFolding.isAlphabetic_of_cased alone
    exact differs (agree other character (letters other member)
      (letters character (CaseFolding.mem_variants_self character)))

end

theorem divides_iff {item : CharSetItem} (escape : item.isEscape = true) (ucp : Bool)
    (character : Nat) :
    (∃ other ∈ variants character, item.contains ucp other ≠ item.contains ucp character) ↔
      item.Divides ucp character := by
  cases item with
  | range first last => cases escape
  | posix kind negated => cases escape
  | escape kind negated =>
      simp only [CharSetItem.contains, bne_ne_bne]
      by_cases word : kind = .word
      · rw [word]
        cases ucp with
        | false =>
            have asciiWord : ∀ other, EscapeClass.contains false other .word = Ascii.isWord other :=
              fun other => Bool.or_false _
            simp only [asciiWord, CaseFolding.exists_isWord_ne_iff, Divides, true_and]
        | true =>
            apply iff_of_false
            · apply not_divides
              intro first second letter other
              exact (isWordCharacter_of_isAlphabetic letter).trans
                (isWordCharacter_of_isAlphabetic other).symm
            · exact fun divides => nomatch divides.1
      · apply iff_of_false
        · apply not_divides
          intro first second letter other
          exact (EscapeClass.contains_of_isAlphabetic ucp letter word).trans
            (EscapeClass.contains_of_isAlphabetic ucp other word).symm
        · cases kind with
          | word => exact absurd rfl word
          | _ => exact id
  | property kind negated =>
      simp only [CharSetItem.contains, bne_ne_bne]
      cases kind with
      | lowercase => exact divides_lowercase
      | uppercase => exact divides_uppercase
      | number =>
          apply iff_of_false
          · rintro ⟨other, member, differs⟩
            exact differs (CaseFolding.isNumeric_of_mem_variants member)
          · exact id
      | _ =>
          refine iff_of_false (not_divides fun first second letter other => ?_) id
          exact Property.contains_eq_of_isAlphabetic letter other (by decide) (by decide)
            (by decide)

end CharSetItem

/-! ## Classes of escapes -/

namespace CharSet

theorem exists_variants_eq (character : Nat) :
    ∃ others, variants character = character :: others := by
  rcases CaseFolding.prefix_closeFrom CaseFolding.familyBound 0 [character] with ⟨others, same⟩
  exact ⟨others, same.symm⟩

theorem contains_caseless (negated ucp : Bool) (items : List CharSetItem) (character : Nat) :
    (⟨negated, true, items⟩ : CharSet).contains ucp character =
      ((variants character).any (fun other => items.any (·.contains ucp other)) != negated) := by
  rcases exists_variants_eq character with ⟨others, shape⟩
  rw [contains, shape]
  rfl

theorem contains_caseful (negated ucp : Bool) (items : List CharSetItem) (character : Nat) :
    (⟨negated, false, items⟩ : CharSet).contains ucp character =
      (items.any (·.contains ucp character) != negated) := by
  simp [contains, containsExactly]

/-- A caseless set gains a character if no item holds it, but one tells it from a variant. -/
def Gains (ucp : Bool) (character : Nat) (items : List CharSetItem) : Prop :=
  (∀ item ∈ items, item.contains ucp character = false)
    ∧ ∃ item ∈ items, item.Divides ucp character

theorem contains_caseless_eq_caseful_iff {items : List CharSetItem}
    (escapes : ∀ item ∈ items, item.isEscape = true) (negated ucp : Bool) (character : Nat) :
    (⟨negated, true, items⟩ : CharSet).contains ucp character =
        (⟨negated, false, items⟩ : CharSet).contains ucp character ↔
      ¬ Gains ucp character items := by
  rw [contains_caseless, contains_caseful]
  suffices differs : (variants character).any (fun other => items.any (·.contains ucp other)) ≠
      items.any (·.contains ucp character) ↔ Gains ucp character items by
    rw [← differs, ← CharSetItem.bne_ne_bne negated, Ne, Decidable.not_not]
  cases held : items.any (·.contains ucp character) with
  | true =>
      have variant : (variants character).any (fun other => items.any (·.contains ucp other)) =
          true :=
        List.any_eq_true.mpr ⟨character, CaseFolding.mem_variants_self character, held⟩
      rcases List.any_eq_true.mp held with ⟨item, member, holds⟩
      apply iff_of_false
      · exact fun differs => differs variant
      · intro gains
        rw [gains.1 item member] at holds
        cases holds
  | false =>
      have missing : ∀ item ∈ items, item.contains ucp character = false := by
        intro item member
        exact Bool.eq_false_iff.mpr (List.any_eq_false.mp held item member)
      rw [Bool.ne_false_iff, List.any_eq_true]
      constructor
      · rintro ⟨other, variant, holds⟩
        rcases List.any_eq_true.mp holds with ⟨item, member, itemHolds⟩
        refine ⟨missing, item, member, ?_⟩
        apply (CharSetItem.divides_iff (escapes item member) ucp character).mp
        exact ⟨other, variant, by rw [missing item member, itemHolds]; decide⟩
      · rintro ⟨_, item, member, divides⟩
        rcases (CharSetItem.divides_iff (escapes item member) ucp character).mpr divides with
          ⟨other, variant, differs⟩
        rw [missing item member, Bool.ne_false_iff] at differs
        exact ⟨other, variant, List.any_eq_true.mpr ⟨item, member, differs⟩⟩

end CharSet

namespace Pattern

section

variable {settings : Settings} {captures start used : Nat} {byte : UInt8} {rest : List UInt8}
variable {item : CharSetItem}

/-- The escapes that stand for a set of characters. -/
inductive SetEscape (start : Nat) (byte : UInt8) (rest : List UInt8) : CharSetItem → Nat → Prop
  | property {item : CharSetItem} {used : Nat}
      (letter : Char.ofUInt8 byte = 'p' ∨ Char.ofUInt8 byte = 'P')
      (read : readProperty (Char.ofUInt8 byte == 'P') rest (start + 2) = .ok (item, used)) :
      SetEscape start byte rest item (used + 1)
  | kind {kind : EscapeClass} {negated : Bool}
      (letter : escapeClass? (Char.ofUInt8 byte) = some (kind, negated)) :
      SetEscape start byte rest (.escape kind negated) 1

theorem setEscape_of_readEscape
    (read : readEscape settings captures (byte :: rest) start = .ok (.set item, used)) :
    SetEscape start byte rest item used := by
  unfold readEscape at read
  dsimp only at read
  split at read
  iterate 9 cases read
  · split at read
    · cases read
    · cases read
  iterate 2
    rcases Reading.bind_eq_ok.mp read with ⟨_, _, result⟩
    cases Reading.pure_eq_ok.mp result
  · rename_i letter
    rcases Reading.bind_eq_ok.mp read with ⟨_, propertyRead, result⟩
    cases Reading.pure_eq_ok.mp result
    exact .property (.inl letter) propertyRead
  · rename_i letter
    rcases Reading.bind_eq_ok.mp read with ⟨_, propertyRead, result⟩
    cases Reading.pure_eq_ok.mp result
    exact .property (.inr letter) propertyRead
  iterate 7 cases read
  · split at read
    · rename_i kind negated letter
      injection read with read
      injection read with itemSame usedSame
      injection itemSame with itemSame
      rw [← itemSame, ← usedSame]
      exact .kind letter
    · split at read
      · unfold readNumericEscape at read
        dsimp only at read
        split at read
        · rcases Reading.bind_eq_ok.mp read with ⟨_, _, result⟩
          cases Reading.pure_eq_ok.mp result
        · cases read
      · rcases Reading.bind_eq_ok.mp read with ⟨_, _, result⟩
        cases Reading.pure_eq_ok.mp result

theorem readProperty_ok_of_offset {negated : Bool} {text : List UInt8} {offset : Nat}
    {result : CharSetItem × Nat} (read : readProperty negated text offset = .ok result)
    (other : Nat) : readProperty negated text other = .ok result := by
  have there := readProperty_shift offset negated text 0
  have here := readProperty_shift other negated text 0
  rw [Nat.add_zero] at there here
  rw [here]
  rw [read] at there
  cases origin : readProperty negated text 0 with
  | error failure =>
      rw [origin] at there
      cases there
  | ok value =>
      rw [origin] at there
      rw [there]
      rfl

theorem isEscape_of_readProperty {negated : Bool} {text : List UInt8} {offset : Nat}
    (read : readProperty negated text offset = .ok (item, used)) : item.isEscape = true := by
  unfold readProperty at read
  dsimp only at read
  split at read
  · split at read
    · cases read
    · split at read
      · cases read
      · injection read with read
        injection read with same
        rw [← same]
        rfl
  · split at read
    · split at read
      · cases read
      · injection read with read
        injection read with same
        rw [← same]
        rfl
    · cases read

theorem SetEscape.isEscape (escape : SetEscape start byte rest item used) :
    item.isEscape = true := by
  cases escape with
  | property letter read => exact isEscape_of_readProperty read
  | kind letter => rfl

theorem SetEscape.readBracketEscape (escape : SetEscape start byte rest item used)
    (more : List UInt8) (offset : Nat) :
    Pattern.readBracketEscape settings (byte :: (rest ++ more)) offset = .ok (.item item, used) := by
  cases escape with
  | @property item used letter read =>
      have again := readProperty_append (readProperty_ok_of_offset read (offset + 1)) more
      unfold Pattern.readBracketEscape
      rcases letter with letter | letter
      · simp only [letter] at again ⊢
        rw [again]
        rfl
      · simp only [letter] at again ⊢
        rw [again]
        rfl
  | @kind kind negated letter =>
      unfold escapeClass? at letter
      unfold Pattern.readBracketEscape
      split at letter
      iterate 10
        rename_i same
        simp only [same]
        cases letter
        rfl
      cases letter

theorem SetEscape.readBrackets {caseless : Bool}
    (escape : SetEscape start byte rest item (byte :: rest).length) (more : List UInt8)
    (offset : Nat) :
    Pattern.readBrackets settings caseless (0x5C :: (byte :: rest ++ 0x5D :: more)) offset =
      .ok (⟨false, caseless, [item]⟩, (byte :: rest).length + 2) := by
  have member : readMember settings BracketState.start.quoted 0x5C
      (byte :: rest ++ 0x5D :: more) offset = .ok (.item item, (byte :: rest).length) :=
    escape.readBracketEscape (0x5D :: more) (offset + 1)
  have turn : readTurn settings .start 0x5C (byte :: rest ++ 0x5D :: more) offset =
      .ok (BracketState.start.addItems [item], (byte :: rest).length) := by
    rw [readTurn, member]
  have closes : readMembers settings (BracketState.start.addItems [item]) (0x5D :: more)
      (offset + 1 + (byte :: rest).length) =
        .ok ([item], offset + 1 + (byte :: rest).length + 1) :=
    readMembers_of_closes rfl
  have members : readMembers settings .start (0x5C :: (byte :: rest ++ 0x5D :: more)) offset =
      .ok ([item], offset + 1 + (byte :: rest).length + 1) := by
    rw [readMembers_of_goesOn rfl, turn]
    change readMembers settings _ ((byte :: rest ++ 0x5D :: more).drop (byte :: rest).length) _ = _
    rw [List.drop_left, closes]
  have behindSign : Pattern.readBrackets settings caseless
      (0x5C :: (byte :: rest ++ 0x5D :: more)) offset =
        readMembers settings .start (0x5C :: (byte :: rest ++ 0x5D :: more)) offset >>=
          fun members => pure (⟨false, caseless, members.1⟩, members.2 - offset) := rfl
  rw [behindSign, members]
  refine Reading.pure_eq_ok.mpr (congrArg₂ Prod.mk rfl ?_)
  dsimp only
  omega

end

end Pattern

/-- A caseless class of escapes holds the characters that it would hold without regard to that, but
for those that it gains from their variants. An escape outside brackets stands for the same set
as in brackets by itself, with the same exception. -/
theorem CharSet.caseless_escapes_iff {items : List CharSetItem}
    (escapes : ∀ item ∈ items, item.isEscape = true) (negated ucp : Bool) (character : Nat) :
    ((⟨negated, true, items⟩ : CharSet).contains ucp character =
          (⟨negated, false, items⟩ : CharSet).contains ucp character ↔
        ¬ Gains ucp character items)
      ∧ ∀ (settings : Pattern.Settings) (captures start : Nat) (text : List UInt8)
          (item : CharSetItem),
        Pattern.readEscape settings captures text start = .ok (.set item, text.length) →
        ∀ (caseless : Bool) (more : List UInt8) (offset : Nat),
          Pattern.readBrackets settings caseless (0x5C :: (text ++ 0x5D :: more)) offset =
              .ok (⟨false, caseless, [item]⟩, text.length + 2)
            ∧ ((⟨false, caseless, [item]⟩ : CharSet).contains ucp character =
                (CharSet.single item).contains ucp character ↔
              ¬ (caseless = true ∧ Gains ucp character [item])) := by
  refine ⟨contains_caseless_eq_caseful_iff escapes negated ucp character, ?_⟩
  intro settings captures start text item read caseless more offset
  cases text with
  | nil => cases read
  | cons byte rest =>
      have escape := Pattern.setEscape_of_readEscape read
      refine ⟨escape.readBrackets more offset, ?_⟩
      cases caseless with
      | false =>
          apply iff_of_true
          · rfl
          · exact fun impossible => nomatch impossible.1
      | true =>
          have alone : ∀ other ∈ [item], other.isEscape = true := by
            intro other member
            rw [List.mem_singleton.mp member]
            exact escape.isEscape
          rw [eq_self, true_and]
          exact contains_caseless_eq_caseful_iff alone false ucp character

/-- The class `[\W]` without regard to case gains `k` from the Kelvin sign, but not `j`. -/
theorem CharSet.gains_from_kelvin :
    (⟨false, true, [.escape .word true]⟩ : CharSet).contains false 0x6B ≠
        (⟨false, false, [.escape .word true]⟩ : CharSet).contains false 0x6B
      ∧ (⟨false, true, [.escape .word true]⟩ : CharSet).contains false 0x6A =
        (⟨false, false, [.escape .word true]⟩ : CharSet).contains false 0x6A := by
  have escapes : ∀ item ∈ [CharSetItem.escape .word true], item.isEscape = true := by decide
  have kelvin := (caseless_escapes_iff escapes false false 0x6B).1
  have jay := (caseless_escapes_iff escapes false false 0x6A).1
  refine ⟨fun same => kelvin.mp same ⟨by decide, _, List.mem_singleton_self _, rfl, by decide⟩,
    jay.mpr fun gains => ?_⟩
  rcases gains.2 with ⟨item, member, divides⟩
  rw [List.mem_singleton.mp member] at divides
  exact absurd divides.2 (by decide)

/-- Without regard to case `[\W]` matches a letter, and `\W` does not. The class of the capitals
matches a small letter, and the property does not. -/
theorem class_differs_from_escape :
    (∃ program, Program.compile "[\\W]".toUTF8.toList { caseless := true } = .ok program
        ∧ program.execute none {} "k".toUTF8.data 0 {} = .ok (.matched [some ⟨0, 1⟩]))
      ∧ (∃ program, Program.compile "\\W".toUTF8.toList { caseless := true } = .ok program
        ∧ program.execute none {} "k".toUTF8.data 0 {} = .ok .noMatch)
      ∧ (∃ program, Program.compile "[\\p\x7bLu\x7d]".toUTF8.toList { caseless := true } =
          .ok program
        ∧ program.execute none {} "a".toUTF8.data 0 {} = .ok (.matched [some ⟨0, 1⟩]))
      ∧ (∃ program, Program.compile "\\p\x7bLu\x7d".toUTF8.toList { caseless := true } =
          .ok program
        ∧ program.execute none {} "a".toUTF8.data 0 {} = .ok .noMatch)
      ∧ ¬ ∀ (items : List CharSetItem) (negated ucp : Bool) (character : Nat),
        (∀ item ∈ items, item.isEscape = true) →
          (⟨negated, true, items⟩ : CharSet).contains ucp character =
            (⟨negated, false, items⟩ : CharSet).contains ucp character := by
  refine ⟨exists_compiled (by decide +kernel), exists_compiled (by decide +kernel),
    exists_compiled (by decide +kernel), exists_compiled (by decide +kernel), ?_⟩
  intro always
  have same := always [.escape .word true] false false 0x6B (by decide)
  revert same
  decide +kernel

end PerlRegex
