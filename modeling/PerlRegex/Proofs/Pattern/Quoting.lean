import PerlRegex.Proofs.Literals
import PerlRegex.Proofs.Pattern.Numbering
import PerlRegex.Proofs.Transparency.Patterns
import PerlRegex.Quote
namespace PerlRegex.Pattern

/-! A quoted text is read as the characters of the text, one after another, whatever the options
make of the signs in it. -/

/-! ## Plain bytes and signs -/

/-- A byte that never has a meaning of its own: a letter, a digit, an underscore, or no ASCII. -/
def IsPlain (byte : UInt8) : Prop := Ascii.isWord byte.toNat = true ∨ 0x80 ≤ byte

/-- An ASCII character that may have a meaning of its own, and loses it behind a backslash. -/
structure IsSign (byte : UInt8) : Prop where
  ascii : byte < 0x80
  notWord : Ascii.isWord byte.toNat = false

section Signs

variable {settings : Settings} {state : State} {byte : UInt8} {rest : List UInt8} {offset : Nat}

theorem toNat_ofUInt8 (byte : UInt8) : (Char.ofUInt8 byte).toNat = byte.toNat := rfl

theorem IsPlain.ofUInt8_ne (plain : IsPlain byte) {sign : Char}
    (isSign : sign.toNat < 0x80 ∧ Ascii.isWord sign.toNat = false) : Char.ofUInt8 byte ≠ sign := by
  rintro rfl
  rw [toNat_ofUInt8] at isSign
  rcases plain with word | wide
  · rw [isSign.2] at word
    cases word
  · exact absurd isSign.1 (Nat.not_lt_of_le (UInt8.le_iff_toNat_le.mp wide))

theorem IsSign.ofUInt8_ne (isSign : IsSign byte) {letter : Char}
    (word : Ascii.isWord letter.toNat = true) : Char.ofUInt8 byte ≠ letter := by
  rintro rfl
  rw [toNat_ofUInt8, isSign.notWord] at word
  cases word

theorem blankLength_of_isPlain (plain : IsPlain byte) : blankLength? state byte rest = none := by
  have notSpace : Ascii.isSpace byte.toNat = false := by
    rw [Bool.eq_false_iff]
    intro space
    have small : (Char.ofUInt8 byte).toNat < 0x80
        ∧ Ascii.isWord (Char.ofUInt8 byte).toNat = false := by
      rw [toNat_ofUInt8]
      simp [Ascii.isSpace, Ascii.isWord, Ascii.isAlphanumeric, Ascii.isLetter, Ascii.isUpper,
        Ascii.isLower, Ascii.isDigit] at space ⊢
      omega
    exact plain.ofUInt8_ne small rfl
  have notComment : (Char.ofUInt8 byte == '#') = false :=
    beq_eq_false_iff_ne.mpr (plain.ofUInt8_ne (by decide))
  simp [blankLength?, notSpace, notComment]

theorem readPiece_of_isPlain (plain : IsPlain byte) :
    readPiece settings state byte rest offset =
      .ok (state.addCharacters [(readCharacter settings byte rest).1],
        (readCharacter settings byte rest).2) := by
  rw [readPiece, blankLength_of_isPlain plain]
  dsimp only
  split
  iterate 12
    · rename_i sign
      exact absurd sign (plain.ofUInt8_ne (by decide))
  · rfl

theorem readPiece_backslash :
    readPiece settings state 0x5C rest offset = do
      let (escape, used) ← readEscape settings state.captures rest offset
      return (state.addEscape escape, used) := by
  have visible : blankLength? state 0x5C rest = none := by
    unfold blankLength?
    split <;> rfl
  rw [readPiece, visible]
  rfl

theorem escapeClass_of_isSign (isSign : IsSign byte) : escapeClass? (Char.ofUInt8 byte) = none := by
  unfold escapeClass?
  split
  iterate 10
    · rename_i letter
      exact absurd letter (isSign.ofUInt8_ne (by decide))
  · rfl

theorem readCharacterEscape_of_isSign (isSign : IsSign byte) :
    readCharacterEscape settings byte rest offset = .ok (byte.toNat, 0) := by
  have notAlphanumeric : ¬ Ascii.isAlphanumeric byte.toNat = true := by
    intro alphanumeric
    have word := isSign.notWord
    rw [Ascii.isWord, alphanumeric] at word
    cases word
  unfold readCharacterEscape
  split
  iterate 10
    · rename_i letter
      exact absurd letter (isSign.ofUInt8_ne (by decide))
  · rw [if_neg notAlphanumeric, readCharacter_of_ascii settings isSign.ascii]

theorem readEscape_of_isSign (isSign : IsSign byte) (captures : Nat) :
    readEscape settings captures (byte :: rest) offset = .ok (.characters [byte.toNat], 1) := by
  have notDigit : ¬ (Ascii.isDigit byte.toNat && Char.ofUInt8 byte != '0') = true := by
    intro digit
    have word := isSign.notWord
    rw [Ascii.isWord, Ascii.isAlphanumeric, (Bool.and_eq_true_iff.mp digit).1] at word
    simp at word
  unfold readEscape
  dsimp only
  split
  iterate 21
    · rename_i letter
      exact absurd letter (isSign.ofUInt8_ne (by decide))
  · rw [escapeClass_of_isSign isSign]
    dsimp only
    rw [if_neg notDigit, readCharacterEscape_of_isSign isSign]
    rfl

theorem readPiece_of_isSign (isSign : IsSign byte) :
    readPiece settings state 0x5C (byte :: rest) offset =
      .ok (state.addCharacters [byte.toNat], 1) := by
  rw [readPiece_backslash, readEscape_of_isSign isSign]
  rfl

theorem readPiece_nul :
    readPiece settings state 0x5C (0x78 :: 0x30 :: 0x30 :: rest) offset =
      .ok (state.addCharacters [0], 3) := by
  rw [readPiece_backslash]
  rfl

end Signs

/-! ## Quoted characters -/

def quotedBytes (character : Char) : List UInt8 :=
  (quoteCharacter character).flatMap fun other => Utf8.encode other.toNat

/-- What becomes of a character when it is quoted. -/
inductive Quoted (character : Char) : List UInt8 → Prop
  | nul : character.toNat = 0 → Quoted character [0x5C, 0x78, 0x30, 0x30]
  | sign {byte : UInt8} : IsSign byte → byte ≠ 0 → byte.toNat = character.toNat →
      Utf8.encode character.toNat = [byte] → Quoted character [0x5C, byte]
  | plain {lead : UInt8} {tail : List UInt8} : Utf8.Encodes character.toNat lead tail →
      (∀ byte ∈ lead :: tail, IsPlain byte) → Quoted character (lead :: tail)

theorem exists_byte_of_ascii {codePoint : Nat} (ascii : codePoint < 0x80) :
    ∃ byte : UInt8, byte < 0x80 ∧ byte.toNat = codePoint ∧ Utf8.encode codePoint = [byte] := by
  have value : (UInt8.ofNat codePoint).toNat = codePoint :=
    UInt8.toNat_ofNat_of_lt' (Nat.lt_trans ascii (by decide))
  have small : UInt8.ofNat codePoint < 0x80 := by
    rw [UInt8.lt_iff_toNat_lt, value]
    exact ascii
  have encoded := (Utf8.WellFormed.encodes_of_ascii small).encode
  rw [value] at encoded
  exact ⟨_, small, value, encoded⟩

theorem isPlain_of_encodes {codePoint : Nat} {lead : UInt8} {tail : List UInt8}
    (encodes : Utf8.Encodes codePoint lead tail)
    (word : codePoint < 0x80 → Ascii.isWord codePoint = true) :
    ∀ byte ∈ lead :: tail, IsPlain byte := by
  intro byte member
  rcases List.mem_cons.mp member with rfl | member
  · cases tail with
    | nil =>
        rw [← encodes.single rfl] at word
        by_cases small : byte.toNat < 0x80
        · exact .inl (word small)
        · exact .inr (UInt8.le_iff_toNat_le.mpr (Nat.le_of_not_lt small))
    | cons second more =>
        have announced := encodes.announced
        rw [Utf8.announcedLength_eq] at announced
        refine .inr (UInt8.le_iff_toNat_le.mpr ?_)
        change 0x80 ≤ byte.toNat
        split at announced
        · cases announced
        · omega
  · have bounds := Utf8.isContinuation_iff.mp (encodes.continues byte member)
    exact .inr (UInt8.le_iff_toNat_le.mpr bounds.1)

theorem quoted_quotedBytes (character : Char) : Quoted character (quotedBytes character) := by
  unfold quotedBytes quoteCharacter
  dsimp only
  split
  · exact .nul ‹_›
  rename_i notNul
  split
  · rename_i sign
    simp only [Bool.and_eq_true, decide_eq_true_eq, Bool.not_eq_true'] at sign
    rcases exists_byte_of_ascii sign.1 with ⟨byte, ascii, value, encoded⟩
    rw [List.flatMap_cons, List.flatMap_singleton, encoded]
    refine .sign ⟨ascii, value ▸ sign.2⟩ ?_ value encoded
    rintro rfl
    exact notNul value.symm
  · rename_i word
    rcases Utf8.encodes_of_isScalar (Utf8.isScalar_toNat character) with ⟨lead, tail, encodes⟩
    rw [List.flatMap_singleton, encodes.encode]
    exact .plain encodes (isPlain_of_encodes encodes fun ascii => by simpa [ascii] using word)

theorem Quoted.exists_cons {character : Char} {bytes : List UInt8}
    (quoted : Quoted character bytes) :
    ∃ byte rest, bytes = byte :: rest ∧ Char.ofUInt8 byte ≠ '(' := by
  cases quoted with
  | nul => exact ⟨_, _, rfl, by decide⟩
  | sign => exact ⟨_, _, rfl, by decide⟩
  | plain _ plain => exact ⟨_, _, rfl, (plain _ List.mem_cons_self).ofUInt8_ne (by decide)⟩

theorem Quoted.ne_zero {character : Char} {bytes : List UInt8} (quoted : Quoted character bytes) :
    ∀ byte ∈ bytes, byte ≠ 0 := by
  cases quoted with
  | nul => simp
  | sign _ notNul => simpa using notNul
  | plain _ plain =>
      rintro byte member rfl
      exact (plain 0 member).ofUInt8_ne (by decide) rfl

/-- The characters that one of a text stands for in a mode: itself, or outside UTF-8 mode each of
its bytes. -/
def spellingOf (utf8 : Bool) (character : Char) : List Nat :=
  if utf8 then [character.toNat] else (Utf8.encode character.toNat).map UInt8.toNat

def State.addEach (state : State) (characters : List Nat) : State :=
  characters.foldl (fun state character => state.addCharacters [character]) state

section Reading

variable {settings : Settings} {state : State} {text : List UInt8} {offset : Nat}

theorem readPieces_of_piece {next : State} {byte : UInt8} {used : List UInt8}
    (read : readPiece settings state byte (used ++ text) offset = .ok (next, used.length)) :
    readPieces settings state (byte :: (used ++ text)) offset =
      readPieces settings next text (offset + 1 + used.length) := by
  rw [readPieces, read]
  dsimp only
  rw [List.drop_left]

theorem readPieces_of_plainBytes (narrow : settings.utf8 = false) {bytes : List UInt8}
    (plain : ∀ byte ∈ bytes, IsPlain byte) :
    readPieces settings state (bytes ++ text) offset =
      readPieces settings (state.addEach (bytes.map UInt8.toNat)) text (offset + bytes.length) := by
  induction bytes generalizing state offset with
  | nil => rfl
  | cons byte bytes induction =>
      rw [List.forall_mem_cons] at plain
      have single : readCharacter settings byte (bytes ++ text) = (byte.toNat, 0) := by
        rw [readCharacter, if_neg (by simp [narrow])]
      have read : readPiece settings state byte (bytes ++ text) offset = _ :=
        readPiece_of_isPlain plain.1
      rw [single] at read
      rw [List.cons_append, readPieces, read]
      dsimp only
      rw [List.drop_zero, induction plain.2, Nat.add_zero, List.length_cons, Nat.add_right_comm]
      rfl

theorem readPieces_of_encodes (wide : settings.utf8 = true) {codePoint : Nat} {lead : UInt8}
    {tail : List UInt8} (encodes : Utf8.Encodes codePoint lead tail) (plain : IsPlain lead) :
    readPieces settings state (lead :: tail ++ text) offset =
      readPieces settings (state.addEach [codePoint]) text (offset + (lead :: tail).length) := by
  have whole : readCharacter settings lead (tail ++ text) = (codePoint, tail.length) := by
    rw [readCharacter, if_pos wide, encodes.decode_append]
    rfl
  have read : readPiece settings state lead (tail ++ text) offset = _ :=
    readPiece_of_isPlain plain
  rw [whole] at read
  rw [List.length_cons, Nat.add_comm tail.length, ← Nat.add_assoc]
  exact readPieces_of_piece read

theorem readPieces_quotedBytes (character : Char) :
    readPieces settings state (quotedBytes character ++ text) offset =
      readPieces settings (state.addEach (spellingOf settings.utf8 character)) text
        (offset + (quotedBytes character).length) := by
  -- What stands behind the character never matters, so a NUL may have digits behind it.
  have quoted := quoted_quotedBytes character
  generalize quotedBytes character = bytes at quoted
  cases quoted with
  | nul nul =>
      have spelling : spellingOf settings.utf8 character = [0] := by
        rw [spellingOf, nul]
        exact ite_self _
      rw [spelling]
      exact @readPieces_of_piece _ _ _ _ _ _ [0x78, 0x30, 0x30] readPiece_nul
  | @sign byte isSign _ value encoded =>
      have spelling : spellingOf settings.utf8 character = [byte.toNat] := by
        rw [spellingOf, encoded, ← value]
        exact ite_self _
      rw [spelling]
      exact @readPieces_of_piece _ _ _ _ _ _ [byte] (readPiece_of_isSign isSign)
  | @plain lead tail encodes plain =>
      rw [spellingOf]
      split
      · rename_i wide
        exact readPieces_of_encodes wide encodes (plain lead List.mem_cons_self)
      · rename_i narrow
        rw [encodes.encode]
        exact readPieces_of_plainBytes (Bool.not_eq_true _ ▸ narrow) plain

theorem State.addEach_append (state : State) (first second : List Nat) :
    (state.addEach first).addEach second = state.addEach (first ++ second) :=
  List.foldl_append.symm

/-- A quoted text is read character by character. -/
theorem readPieces_flatMap_quotedBytes (characters : List Char) :
    readPieces settings state (characters.flatMap quotedBytes) offset =
      .ok (state.addEach (characters.flatMap (spellingOf settings.utf8))) := by
  induction characters generalizing state offset with
  | nil =>
      rw [List.flatMap_nil, readPieces]
      rfl
  | cons character characters induction =>
      rw [List.flatMap_cons, readPieces_quotedBytes, induction, State.addEach_append,
        List.flatMap_cons]

end Reading

/-! ## Quoted texts -/

theorem State.addEach_eq (state : State) (characters : List Nat) :
    ∃ quantifiable, state.addEach characters = { state with
      items := (characters.map state.literal).reverse ++ state.items
      quantifiable := quantifiable } := by
  induction characters generalizing state with
  | nil => exact ⟨state.quantifiable, rfl⟩
  | cons character characters induction =>
      rcases induction (state.addCharacters [character]) with ⟨quantifiable, same⟩
      refine ⟨quantifiable, same.trans ?_⟩
      have literal : (state.addCharacters [character]).literal = state.literal := rfl
      rw [literal, List.map_cons, List.reverse_cons, List.append_assoc]
      rfl

theorem State.finish_addEach {options : CompileOptions} (caseful : options.caseless = false)
    (characters : List Nat) :
    ((State.start (.ofOptions options)).addEach characters).finish =
      .ok (.ofCharacters characters) := by
  rcases State.addEach_eq (.start (.ofOptions options)) characters with ⟨quantifiable, same⟩
  have literals : (State.start (.ofOptions options)).literal = fun character =>
      .literal character false := by
    funext character
    exact congrArg (Node.literal character) caseful
  rw [same, literals]
  change Except.ok (Node.ofSequence (List.reverse (List.reverse _ ++ []))) = _
  rw [List.append_nil, List.reverse_reverse]
  rfl

section Texts

variable (text : String) {options : CompileOptions}

theorem flatMap_spellingOf (utf8 : Bool) :
    text.toList.flatMap (spellingOf utf8) = charactersOf utf8 text := by
  cases utf8 with
  | true => exact List.map_eq_flatMap.symm
  | false =>
      rw [charactersOf, if_neg Bool.false_ne_true, Utf8.ofText_eq_flatMap_encode, List.map_flatMap]
      rfl

theorem ofText_quote : Utf8.ofText (quote text) = text.toList.flatMap quotedBytes := by
  rw [Utf8.ofText_eq_flatMap_encode, quote, String.toList_ofList, List.flatMap_assoc]
  rfl

theorem findIdx?_quote : (Utf8.ofText (quote text)).findIdx? (· == 0) = none := by
  rw [ofText_quote, List.findIdx?_eq_none_iff]
  intro byte member
  rcases List.mem_flatMap.mp member with ⟨character, _, member⟩
  exact beq_eq_false_iff_ne.mpr ((quoted_quotedBytes character).ne_zero byte member)

theorem readVerbs_quote (offset : Nat) :
    readVerbs options (Utf8.ofText (quote text)) offset = .ok (options, offset) := by
  rw [ofText_quote]
  cases text.toList with
  | nil =>
      rw [List.flatMap_nil, readVerbs]
  | cons character characters =>
      rcases (quoted_quotedBytes character).exists_cons with ⟨byte, rest, shape, notOpening⟩
      have noVerb : verbName? (byte :: (rest ++ characters.flatMap quotedBytes)) = none := by
        simp [verbName?, startsWith, notOpening]
      rw [List.flatMap_cons, shape, List.cons_append, readVerbs, noVerb]

theorem readPieces_quote :
    readPieces (settingsOf options) (.start (.ofOptions options)) (Utf8.ofText (quote text)) 0 =
      .ok ((State.start (.ofOptions options)).addEach (charactersOf options.utf8 text)) := by
  rw [ofText_quote, readPieces_flatMap_quotedBytes, ← flatMap_spellingOf]
  rfl

theorem checkUtf8_ofText : checkUtf8 options (Utf8.ofText text) = .ok () := by
  rw [checkUtf8, Utf8.invalidOffset?, (Utf8.wellFormed_ofText _).invalidOffsetFrom]
  exact ite_self _

/-- A quoted text is read as its characters one after another, unless the options ask for caseless
matching or cannot be reconciled. -/
theorem parse_quote (newline : options.newline?.isSome = true)
    (lineBreaks : options.lineBreaks?.isSome = true) (caseful : options.caseless = false)
    (allowed : ¬ (options.utf8 = true ∧ options.neverUtf = true)) :
    ∃ rules, parse (Utf8.ofText (quote text)) options =
      .ok ⟨.ofCharacters (charactersOf options.utf8 text), 0, [], options, rules⟩ := by
  rcases Option.isSome_iff_exists.mp newline with ⟨newline, newline_eq⟩
  rcases Option.isSome_iff_exists.mp lineBreaks with ⟨lineBreaks, lineBreaks_eq⟩
  refine ⟨⟨newline, lineBreaks, options.utf8⟩, ?_⟩
  have rules : lineRulesOf options = .ok ⟨newline, lineBreaks, options.utf8⟩ := by
    rw [lineRulesOf, if_neg (by simpa using allowed), newline_eq, lineBreaks_eq]
  rcases State.addEach_eq (.start (.ofOptions options)) (charactersOf options.utf8 text) with
    ⟨quantifiable, same⟩
  have finished := State.finish_addEach caseful (charactersOf options.utf8 text)
  rw [parse, findIdx?_quote, readVerbs_quote]
  dsimp only [Bind.bind, Except.bind]
  rw [rules]
  dsimp only
  rw [checkUtf8_ofText]
  dsimp only
  rw [List.drop_zero, readPieces_quote]
  dsimp only
  rw [finished]
  dsimp only
  rw [resolve, Node.references_ofCharacters, Node.mapReferences_ofCharacters, same]
  rfl

end Texts

end PerlRegex.Pattern
