import PerlRegex.Proofs.Literals
import PerlRegex.Proofs.Transparency.Patterns

/-! The literals of a pattern are characters of its mode. Outside UTF-8 mode every byte is one. In
UTF-8 mode the pattern is well formed, so that decoding anywhere within it gives a scalar, and a
character that is named by an escape is checked. -/

namespace PerlRegex

namespace Utf8

/-- What is left of a well-formed text behind some of its bytes. It may begin within a character. -/
def IsTail (text : List UInt8) : Prop := ∃ front, WellFormed (front ++ text)

namespace IsTail

variable {byte : UInt8} {rest text : List UInt8}

theorem of_wellFormed (formed : WellFormed text) : IsTail text := ⟨[], formed⟩

theorem drop (isTail : IsTail text) (count : Nat) : IsTail (text.drop count) := by
  rcases isTail with ⟨front, formed⟩
  refine ⟨front ++ text.take count, ?_⟩
  rw [List.append_assoc, List.take_append_drop]
  exact formed

theorem tail (isTail : IsTail (byte :: rest)) : IsTail rest := isTail.drop 1

end IsTail

theorem isScalar_of_byte (byte : UInt8) : isScalar byte.toNat = true := by
  have small : byte.toNat < 0x100 := byte.toNat_lt
  exact isScalar_iff.mpr (.inl (by omega))

/-- Decoding gives a scalar anywhere in a well-formed text: a byte that continues a character stands
for itself, and all others begin a character. -/
theorem isScalar_of_decode {lead : UInt8} {rest : List UInt8} (isTail : IsTail (lead :: rest))
    {codePoint length : Nat} (decoded : decode (lead :: rest) = some (codePoint, length)) :
    isScalar codePoint = true := by
  rcases isTail with ⟨front, formed⟩
  cases continues : isContinuation lead with
  | true =>
      have bounds := isContinuation_iff.mp continues
      have alone : announcedLength lead = 1 := by
        rw [announcedLength_eq, if_pos]
        omega
      rw [decode, alone] at decoded
      injection decoded with same
      injection same with same
      exact same ▸ isScalar_of_byte lead
  | false =>
      have found : (front ++ lead :: rest)[front.length]? = some lead := by simp
      have stops : ((front ++ lead :: rest)[front.length]?).any isContinuation = false := by
        rw [found]
        exact continues
      rcases formed.split (by simp) (.inr stops) with ⟨before, behind, same, length, _, formed⟩
      rw [← (List.append_inj same length.symm).2] at formed
      generalize whole : lead :: rest = text at decoded formed
      cases formed with
      | nil => cases whole
      | cons encodes _ =>
          rw [encodes.decode_append] at decoded
          injection decoded with same
          injection same with same
          exact same ▸ encodes.scalar

end Utf8

namespace Pattern

/-! ## Characters of a mode -/

/-- Characters that texts in a mode may consist of. -/
def AreCharacters (utf8 : Bool) (characters : List Nat) : Prop :=
  ∀ character ∈ characters, IsCharacter utf8 character

section AreCharacters

variable {utf8 : Bool} {character : Nat}

theorem isCharacter_of_lt (small : character < 0x100) : IsCharacter utf8 character := by
  cases utf8 with
  | false => exact small
  | true => exact Utf8.isScalar_iff.mpr (.inl (by omega))

theorem areCharacters_nil : AreCharacters utf8 [] := fun _ member => by cases member

theorem areCharacters_singleton (isCharacter : IsCharacter utf8 character) :
    AreCharacters utf8 [character] :=
  fun _ member => List.mem_singleton.mp member ▸ isCharacter

theorem areCharacters_append {first second : List Nat} :
    AreCharacters utf8 (first ++ second) ↔
      AreCharacters utf8 first ∧ AreCharacters utf8 second :=
  List.forall_mem_append

end AreCharacters

/-- A reading gives only what satisfies a condition, whatever makes it stop. -/
abbrev Reading.Gives (good : α → Prop) (reading : Reading α) : Prop :=
  reading.Ensures (fun _ => True) good

section Readers

variable {settings : Settings} {byte : UInt8} {rest text : List UInt8}

theorem readCharacter_isCharacter (isTail : settings.utf8 = true → Utf8.IsTail (byte :: rest)) :
    IsCharacter settings.utf8 (readCharacter settings byte rest).1 := by
  have itself : IsCharacter settings.utf8 byte.toNat := isCharacter_of_lt byte.toNat_lt
  unfold readCharacter
  split
  · rename_i utf8
    split
    · rename_i codePoint length decoded
      unfold IsCharacter
      rw [if_pos utf8]
      exact Utf8.isScalar_of_decode (isTail utf8) decoded
    · exact itself
  · exact itself

theorem checkCharacter_gives (value offset : Nat) :
    (checkCharacter settings value offset).Gives (IsCharacter settings.utf8) := by
  unfold checkCharacter
  by_cases fits : (if settings.utf8 then 0x10FFFF else 0xFF) < value
  · rw [if_pos fits]
    trivial
  · rw [if_neg fits]
    split
    · trivial
    · rename_i scalar
      change IsCharacter settings.utf8 value
      cases utf8 : settings.utf8 with
      | false =>
          rw [utf8] at fits
          exact Nat.lt_succ_of_le (Nat.le_of_not_lt fits)
      | true =>
          apply Utf8.isScalar_iff.mpr
          simp [utf8] at fits scalar
          omega

theorem readQuoted_areCharacters (isTail : settings.utf8 = true → Utf8.IsTail text) :
    AreCharacters settings.utf8 (readQuoted settings text).1 := by
  fun_induction readQuoted settings text with
  | case1 => exact areCharacters_nil
  | case2 => exact areCharacters_nil
  | case3 byte rest more character following read characters used quoted induction =>
      have first : IsCharacter settings.utf8 character := by
        have first := readCharacter_isCharacter isTail
        rw [read] at first
        exact first
      have others := induction fun utf8 => (isTail utf8).tail.drop following
      rw [quoted] at others
      exact List.forall_mem_cons.mpr ⟨first, others⟩

theorem readCharacterEscape_gives (isTail : settings.utf8 = true → Utf8.IsTail (byte :: rest))
    (offset : Nat) :
    (readCharacterEscape settings byte rest offset).Gives
      fun read => IsCharacter settings.utf8 read.1 := by
  have braced : ∀ radix, Reading.Gives (fun read : Nat × Nat => IsCharacter settings.utf8 read.1)
      (do
        let number ← readBracedNumber radix rest (offset + 1)
        return (← checkCharacter settings number.1 offset, number.2)) := by
    intro radix
    refine .of_next fun number => ?_
    exact (checkCharacter_gives number.1 offset).bind fun value isCharacter => isCharacter
  unfold readCharacterEscape
  split
  iterate 6 exact isCharacter_of_lt (by decide)
  · have small := readDigits_lt (show 0 < 8 by decide) 2 rest
    exact isCharacter_of_lt (Nat.lt_trans small (by decide))
  · exact braced 8
  · split
    · exact braced 16
    · exact isCharacter_of_lt (readDigits_lt (show 0 < 16 by decide) 2 rest)
  · split
    · trivial
    · rename_i controlled following
      split
      · trivial
      · rename_i accepted
        simp only [Bool.or_eq_true, decide_eq_true_eq, not_or, UInt8.not_le] at accepted
        have small := controlCharacter_lt (UInt8.lt_iff_toNat_lt.mp accepted.1)
        exact isCharacter_of_lt (Nat.lt_trans small (by decide))
  · split
    · split
      · trivial
      · exact isCharacter_of_lt byte.toNat_lt
    · exact readCharacter_isCharacter isTail

theorem readNumericEscape_gives (captures : Nat) (text : List UInt8) (start : Nat) :
    (readNumericEscape settings captures text start).Gives
      fun read => AreCharacters settings.utf8 read.1.literals := by
  unfold readNumericEscape
  dsimp only
  split
  · exact (checkCharacter_gives _ start).bind fun _ isCharacter =>
      areCharacters_singleton isCharacter
  · exact areCharacters_nil

theorem readEscape_gives (isTail : settings.utf8 = true → Utf8.IsTail text)
    (captures start : Nat) :
    (readEscape settings captures text start).Gives
      fun read => AreCharacters settings.utf8 read.1.literals := by
  unfold readEscape
  split
  · trivial
  · rename_i byte rest
    dsimp only
    split
    · exact readQuoted_areCharacters fun utf8 => (isTail utf8).tail
    iterate 8 exact areCharacters_nil
    · split
      · trivial
      · exact areCharacters_nil
    iterate 4 exact .of_next fun _ => areCharacters_nil
    iterate 7 trivial
    · split
      · exact areCharacters_nil
      · split
        · exact readNumericEscape_gives captures _ start
        · exact (readCharacterEscape_gives isTail _).bind fun _ isCharacter =>
            areCharacters_singleton isCharacter

end Readers

/-! ## Pieces -/

section Pieces

variable {settings : Settings} {state next : State}

theorem readPiece_gives {byte : UInt8} {rest : List UInt8}
    (isTail : settings.utf8 = true → Utf8.IsTail (byte :: rest))
    (areCharacters : AreCharacters settings.utf8 state.literals) (offset : Nat) :
    (readPiece settings state byte rest offset).Gives
      fun read => AreCharacters settings.utf8 read.1.literals := by
  have repeated : ∀ bounds boundsLength,
      (readRepeat state bounds boundsLength rest offset).Gives
        fun read => AreCharacters settings.utf8 read.1.literals := by
    intro bounds boundsLength
    cases read : readRepeat state bounds boundsLength rest offset with
    | error failure => trivial
    | ok piece =>
        rcases exists_of_readRepeat read with ⟨value, manner, same⟩
        change AreCharacters settings.utf8 piece.1.literals
        rw [same, State.literals, State.gather_repeatLatest]
        exact areCharacters
  have item : ∀ {item : Tree}, item.literals = [] →
      AreCharacters settings.utf8 (state.addItem item).literals := by
    intro item quiet
    rw [State.literals_addItem quiet]
    exact areCharacters
  have added : ∀ {characters : List Nat}, AreCharacters settings.utf8 characters →
      AreCharacters settings.utf8 (state.literals ++ characters) :=
    fun more => areCharacters_append.mpr ⟨areCharacters, more⟩
  have character : AreCharacters settings.utf8
      (state.addCharacters [(readCharacter settings byte rest).1]).literals := by
    rw [State.literals_addCharacters]
    exact added (areCharacters_singleton (readCharacter_isCharacter isTail))
  -- Only characters and escapes add to the literals. All else leaves or regroups what there is.
  unfold readPiece
  split
  · exact areCharacters
  · dsimp only
    split
    · change AreCharacters settings.utf8 state.nextBranch.literals
      rw [State.literals, State.gather_nextBranch]
      exact areCharacters
    · cases closed : state.closeGroup offset with
      | error failure => trivial
      | ok next =>
          change AreCharacters settings.utf8 next.literals
          rw [State.literals, State.gather_closeGroup _ _ _ closed]
          exact areCharacters
    iterate 3 exact repeated _ _
    · split
      · exact repeated _ _
      · exact character
    · refine .of_next fun opening => ?_
      cases applied : state.applyOpening opening.1 offset (offset + 1 + opening.2) with
      | error failure => trivial
      | ok next =>
          change AreCharacters settings.utf8 next.literals
          rw [State.literals_of_applyOpening applied]
          exact areCharacters
    · exact .of_next fun _ => item rfl
    · refine (readEscape_gives (fun utf8 => (isTail utf8).tail) _ offset).bind
        fun escape escapeCharacters => ?_
      change AreCharacters settings.utf8 (state.addEscape escape.1).literals
      rw [State.literals_addEscape]
      exact added escapeCharacters
    · exact item (by split <;> rfl)
    · exact item rfl
    · exact item rfl
    · exact character

theorem areCharacters_of_readPieces {text : List UInt8} {offset : Nat}
    (isTail : settings.utf8 = true → Utf8.IsTail text)
    (areCharacters : AreCharacters settings.utf8 state.literals)
    (read : readPieces settings state text offset = .ok next) :
    AreCharacters settings.utf8 next.literals := by
  fun_induction readPieces settings state text offset with
  | case1 =>
      injection read with same
      exact same ▸ areCharacters
  | case2 => cases read
  | case3 state offset byte rest following used piece induction =>
      have given := (readPiece_gives isTail areCharacters offset).of_ok piece
      exact induction (fun utf8 => (isTail utf8).tail.drop used) given read

end Pieces

/-! ## Whole patterns -/

section WholePatterns

variable {text : List UInt8} {requested : CompileOptions} {pattern : Pattern}

theorem noUtf8Check_of_apply {options changed : CompileOptions} {verb : Verb} {offset : Nat}
    (applied : verb.apply options offset = .ok changed) :
    changed.noUtf8Check = options.noUtf8Check := by
  cases verb with
  | utf =>
      unfold Verb.apply at applied
      dsimp only at applied
      split at applied
      · exact absurd applied refuseFor_ne_ok
      · injection applied with same
        rw [← same]
  | newline convention =>
      injection applied with same
      rw [← same]
      cases convention <;> rfl
  | lineBreaks convention =>
      injection applied with same
      rw [← same]
      cases convention <;> rfl
  | _ =>
      injection applied with same
      rw [← same]

theorem noUtf8Check_of_readVerbs {options : CompileOptions} {offset stop : Nat}
    (read : readVerbs requested text offset = .ok (options, stop)) :
    options.noUtf8Check = requested.noUtf8Check := by
  refine (readVerbs_commutes id (·.noUtf8Check = requested.noUtf8Check) ?_ rfl read).2
  intro _ _ _ _ kept applied
  exact ⟨applied, (noUtf8Check_of_apply applied).trans kept⟩

theorem wellFormed_of_parse (parsed : parse text requested = .ok pattern)
    (checks : requested.noUtf8Check = false) (utf8 : pattern.options.utf8 = true) :
    Utf8.WellFormed text := by
  unfold parse at parsed
  split at parsed
  · exact absurd parsed refuse_ne_ok
  · rcases Reading.bind_eq_ok.mp parsed with ⟨⟨options, offset⟩, verbs, parsed⟩
    rcases Reading.bind_eq_ok.mp parsed with ⟨_, _, parsed⟩
    rcases Reading.bind_eq_ok.mp parsed with ⟨_, checked, parsed⟩
    rcases Reading.bind_eq_ok.mp parsed with ⟨_, _, parsed⟩
    rcases Reading.bind_eq_ok.mp parsed with ⟨_, _, parsed⟩
    rcases Reading.bind_eq_ok.mp parsed with ⟨_, _, parsed⟩
    have same := Reading.pure_eq_ok.mp parsed
    rw [← same] at utf8
    have stillChecks := noUtf8Check_of_readVerbs verbs
    rw [checks] at stillChecks
    have applies : (options.utf8 && !options.noUtf8Check) = true := by
      rw [show options.utf8 = true from utf8, show options.noUtf8Check = false from stillChecks]
      rfl
    rw [checkUtf8, if_pos applies] at checked
    split at checked
    · exact absurd checked refuse_ne_ok
    · rename_i valid
      exact Utf8.wellFormed_of_invalidOffset valid

theorem areCharacters_of_parse (parsed : parse text requested = .ok pattern)
    (checks : requested.noUtf8Check = false) :
    AreCharacters pattern.options.utf8 pattern.tree.literals := by
  rcases steps_of_parse parsed with ⟨bodyOffset, state, tree, _, _, read, finished, resolving, _⟩
  have isTail : pattern.options.utf8 = true → Utf8.IsTail (text.drop bodyOffset) :=
    fun utf8 => (Utf8.IsTail.of_wellFormed (wellFormed_of_parse parsed checks utf8)).drop bodyOffset
  rw [(of_resolve resolving).1, Node.literals_mapReferences, Node.literals,
    State.gather_of_finish _ _ _ finished]
  exact areCharacters_of_readPieces isTail areCharacters_nil read

end WholePatterns

end Pattern

end PerlRegex
