import PerlRegex.Pattern.Brackets
import PerlRegex.Proofs.Pattern.Placement
import PerlRegex.Proofs.Pattern.Reading

/-! Readers on a text that goes on behind its end. What a reader answers is not changed by more text,
as long as there is a closing bracket in the old text behind what it read. The reader of POSIX classes
is the exception: it looks for a closing pair without regard to closing brackets. -/

namespace PerlRegex

namespace Utf8

theorem decode_append {lead stop : UInt8} {rest : List UInt8} (stops : isContinuation stop = false)
    (member : stop ∈ rest) (more : List UInt8) :
    decode (lead :: (rest ++ more)) = decode (lead :: rest) := by
  rcases Nat.lt_or_ge rest.length (announcedLength lead - 1) with short | enough
  · -- The stop is one of the bytes asked for, so the lead stands alone either way.
    have alone : ∀ continuation : List UInt8, stop ∈ continuation →
        continuation.all isContinuation = false := by
      intro continuation inside
      exact List.all_eq_false.mpr ⟨stop, inside, by simp [stops]⟩
    have shortMember : stop ∈ rest.take (announcedLength lead - 1) := by
      rw [List.take_of_length_le (Nat.le_of_lt short)]
      exact member
    have longMember : stop ∈ (rest ++ more).take (announcedLength lead - 1) := by
      rw [List.take_append]
      exact List.mem_append_left _ shortMember
    simp only [decode, alone _ shortMember, alone _ longMember, Bool.not_false, Bool.or_true,
      if_true]
  · simp only [decode, List.take_append_of_le_length enough]

end Utf8

theorem PosixClass.not_mem_of_ofName? {name : String} {kind : PosixClass}
    (named : PosixClass.ofName? name = some kind) : ']' ∉ name.toList := by
  unfold PosixClass.ofName? at named
  split at named
  iterate 14 decide
  cases named

namespace Pattern

section Fronts

variable {text : List UInt8}

theorem startsWith_append (present : text ≠ []) (more : List UInt8) (character : Char) :
    startsWith (text ++ more) character = startsWith text character := by
  cases text with
  | nil => exact absurd rfl present
  | cons byte rest => rfl

theorem leading_append_of_lt {test : Nat → Bool}
    (ended : (leading test text).length < text.length) (more : List UInt8) :
    leading test (text ++ more) = leading test text :=
  (List.takeWhile_append ..).trans (if_neg (Nat.ne_of_lt ended))

theorem leading_append {test : Nat → Bool} {stop : UInt8} (stops : test stop.toNat = false)
    (member : stop ∈ text) (more : List UInt8) :
    leading test (text ++ more) = leading test text := by
  apply leading_append_of_lt
  apply Nat.lt_of_le_of_ne (length_leading_le test text)
  intro whole
  have all : leading test text = text := (List.takeWhile_prefix _).eq_of_length whole
  have goesOn : test stop.toNat = true :=
    List.all_eq_true.mp List.all_takeWhile stop (all.symm ▸ member : stop ∈ leading test text)
  rw [stops] at goesOn
  cases goesOn

theorem readDigits_append {radix : Nat} {stop : UInt8}
    (stops : Ascii.digitValue? radix stop.toNat = none) (member : stop ∈ text) (most : Nat)
    (more : List UInt8) : readDigits radix most (text ++ more) = readDigits radix most text := by
  have cut : ∀ digits : List UInt8,
      leadingDigits radix (digits.take most) = (leadingDigits radix digits).take most :=
    fun _ => List.take_takeWhile.symm
  have same : leadingDigits radix (text ++ more) = leadingDigits radix text :=
    leading_append (by rw [stops]; rfl) member more
  simp only [readDigits, cut, same]

theorem upTo_append {character : Char} {before : List UInt8}
    (found : upTo character text = some before) (more : List UInt8) :
    upTo character (text ++ more) = some before := by
  have shorter := length_lt_of_upTo found
  unfold upTo at found ⊢
  extract_lets front at found
  have same : front = before := by
    split at found
    · injection found
    · cases found
  have ended : front.length ≠ text.length := by
    rw [same]
    exact Nat.ne_of_lt shorter
  have kept : (text ++ more).takeWhile (fun byte => Char.ofUInt8 byte != character) = front :=
    (List.takeWhile_append ..).trans (if_neg ended)
  rw [kept, same, List.length_append]
  exact if_pos (by omega)

theorem readCharacter_append {lead stop : UInt8} (stops : Utf8.isContinuation stop = false)
    (member : stop ∈ text) (settings : Settings) (more : List UInt8) :
    readCharacter settings lead (text ++ more) = readCharacter settings lead text := by
  rw [readCharacter, readCharacter, Utf8.decode_append stops member]

end Fronts

/-! ## Escapes -/

section Escapes

variable {text : List UInt8} {offset : Nat}

theorem readBracedNumber_append {radix : Nat} {result : Nat × Nat}
    (read : readBracedNumber radix text offset = .ok result) (more : List UInt8) :
    readBracedNumber radix (text ++ more) offset = .ok result := by
  rw [← read]
  unfold readBracedNumber at read ⊢
  cases text with
  | nil => cases read
  | cons byte rest =>
      extract_lets digits at read
      have within : digits.length < rest.length := by
        apply Decidable.byContradiction
        intro beyond
        have nothing : startsWith ((byte :: rest).tail.drop digits.length) '\x7d' = false := by
          rw [List.tail_cons, List.drop_of_length_le (Nat.le_of_not_lt beyond)]
          rfl
        rw [nothing, Bool.not_false, Bool.or_true, if_pos rfl] at read
        split at read
        · cases read
        · cases read
      have same : leadingDigits radix ((byte :: rest) ++ more).tail = digits :=
        leading_append_of_lt within more
      have behind : ((byte :: rest) ++ more).tail.drop digits.length =
          rest.drop digits.length ++ more :=
        List.drop_append_of_le_length (Nat.le_of_lt within)
      have left : rest.drop digits.length ≠ [] := by
        rw [Ne, List.drop_eq_nil_iff]
        omega
      simp only [same, behind, startsWith_append left]
      rfl

theorem readCharacterEscape_append {settings : Settings} {byte : UInt8} {result : Nat × Nat}
    (member : 0x5D ∈ text)
    (read : readCharacterEscape settings byte text offset = .ok result) (more : List UInt8) :
    readCharacterEscape settings byte (text ++ more) offset = .ok result := by
  have present : text ≠ [] := List.ne_nil_of_mem member
  unfold readCharacterEscape at read ⊢
  split at read
  iterate 6 exact read
  · rw [readDigits_append (by decide) member]
    exact read
  · rcases Reading.bind_eq_ok.mp read with ⟨number, numberRead, rest⟩
    exact Reading.bind_eq_ok.mpr ⟨number, readBracedNumber_append numberRead more, rest⟩
  · rw [startsWith_append present]
    split at read
    · rw [if_pos ‹_›]
      rcases Reading.bind_eq_ok.mp read with ⟨number, numberRead, rest⟩
      exact Reading.bind_eq_ok.mpr ⟨number, readBracedNumber_append numberRead more, rest⟩
    · rw [if_neg ‹_›, readDigits_append (by decide) member]
      exact read
  · cases text with
    | nil => exact absurd rfl present
    | cons => exact read
  · rw [readCharacter_append (by decide) member]
    exact read

theorem readProperty_append {negated : Bool} {result : CharSetItem × Nat}
    (read : readProperty negated text offset = .ok result) (more : List UInt8) :
    readProperty negated (text ++ more) offset = .ok result := by
  unfold readProperty at read ⊢
  cases text with
  | nil => cases read
  | cons byte rest =>
      have first : ∀ character, startsWith (byte :: rest ++ more) character =
          startsWith (byte :: rest) character := fun _ => rfl
      have letter : startsWithAny (byte :: rest ++ more) Ascii.isLetter =
          startsWithAny (byte :: rest) Ascii.isLetter := rfl
      rw [first]
      split at read
      · rw [if_pos ‹_›]
        extract_lets signLength at read
        split at read
        · cases read
        · rename_i name found
          have inside := length_lt_of_upTo found
          rw [List.length_drop, List.tail_cons] at inside
          have sign : startsWith (byte :: rest ++ more).tail '^' =
              startsWith (byte :: rest).tail '^' := by
            apply startsWith_append
            rw [← List.length_pos_iff]
            omega
          have behind : (byte :: rest ++ more).tail.drop signLength =
              (byte :: rest).tail.drop signLength ++ more :=
            List.drop_append_of_le_length (Nat.le_of_lt (Nat.lt_of_sub_pos (by omega)))
          have foundAgain := upTo_append found more
          rw [← behind] at foundAgain
          rw [sign]
          extract_lets
          rw [foundAgain]
          exact read
      · rw [if_neg ‹_›, letter]
        exact read

/-- Behind the backslash a member takes one byte at least, so a closing bracket behind the member is
not the first byte. -/
theorem readBracketEscape_append {settings : Settings} {result : BracketMember × Nat}
    (member : 0x5D ∈ text.tail)
    (read : readBracketEscape settings text offset = .ok result) (more : List UInt8) :
    readBracketEscape settings (text ++ more) offset = .ok result := by
  cases text with
  | nil => cases member
  | cons byte rest =>
      unfold readBracketEscape at read ⊢
      rw [List.cons_append]
      dsimp only at read ⊢
      split at read
      iterate 3 exact read
      iterate 2
        rcases Reading.bind_eq_ok.mp read with ⟨property, propertyRead, left⟩
        exact Reading.bind_eq_ok.mpr ⟨property, readProperty_append propertyRead more, left⟩
      iterate 12 exact read
      · split at read
        · exact read
        · split at read
          · rw [if_pos ‹_›]
            have digits : readDigits 8 3 (byte :: (rest ++ more)) = readDigits 8 3 (byte :: rest) :=
              readDigits_append (by decide) (List.mem_cons_of_mem byte member) 3 more
            rw [digits]
            exact read
          · rw [if_neg ‹_›]
            rcases Reading.bind_eq_ok.mp read with ⟨character, characterRead, left⟩
            exact Reading.bind_eq_ok.mpr
              ⟨character, readCharacterEscape_append member characterRead more, left⟩

theorem mem_tail_of_readBracketEscape {settings : Settings} {member : BracketMember}
    {following : Nat} (closed : text.getLast? = some 0x5D)
    (read : readBracketEscape settings text offset = .ok (member, following))
    (within : following < text.length) : 0x5D ∈ text.tail := by
  cases text with
  | nil => cases closed
  | cons first rest =>
      cases rest with
      | nil =>
          have last : first = 0x5D := Option.some.inj closed
          have whole : readBracketEscape settings [0x5D] offset = .ok (.character 0x5D, 1) := by
            cases settings with
            | mk utf8 => cases utf8 with
              | false => rfl
              | true => rfl
          rw [last, whole] at read
          injection read with read
          injection read with _ used
          rw [← used] at within
          exact absurd within (Nat.lt_irrefl 1)
      | cons second rest =>
          rw [List.getLast?_cons_cons] at closed
          exact List.mem_of_getLast? closed

end Escapes

/-! ## Members -/

section Members

variable {text : List UInt8} {offset : Nat}

theorem beforeClosingPair_append_of_some {delimiter : Char} {count : Nat}
    (found : beforeClosingPair delimiter text = some count) (more : List UInt8) :
    beforeClosingPair delimiter (text ++ more) = some count := by
  induction text generalizing count with
  | nil => cases found
  | cons byte rest induction =>
      rw [List.cons_append, beforeClosingPair]
      rw [beforeClosingPair] at found
      split at found
      · rename_i closes
        have present : rest ≠ [] := by
          rintro rfl
          simp [startsWith] at closes
        rw [startsWith_append present, if_pos closes]
        exact found
      · rename_i goesOn
        rcases Option.map_eq_some_iff.mp found with ⟨before, foundBehind, rfl⟩
        have present : rest ≠ [] := by
          rintro rfl
          cases foundBehind
        rw [startsWith_append present, if_neg goesOn, induction foundBehind]
        rfl

/-- A pair that is not within a text ending with a closing bracket is not across its end either. -/
theorem beforeClosingPair_append_of_none {delimiter : Char} (apart : delimiter ≠ ']')
    (closed : text.getLast? = some 0x5D) (missing : beforeClosingPair delimiter text = none)
    (more : List UInt8) :
    beforeClosingPair delimiter (text ++ more) =
      (beforeClosingPair delimiter more).map (· + text.length) := by
  induction text with
  | nil => cases closed
  | cons byte rest induction =>
      rw [List.cons_append, beforeClosingPair]
      rw [beforeClosingPair] at missing
      cases rest with
      | nil =>
          have last : byte = 0x5D := Option.some.inj closed
          have other : (Char.ofUInt8 byte == delimiter) = false := by
            rw [last]
            exact beq_false_of_ne (Ne.symm apart)
          rw [other, Bool.false_and, if_neg Bool.false_ne_true]
          rfl
      | cons second rest =>
          rw [List.getLast?_cons_cons] at closed
          split at missing
          · cases missing
          · rename_i goesOn
            rw [startsWith_append (List.cons_ne_nil second rest), if_neg goesOn,
              induction closed (Option.map_eq_none_iff.mp missing), Option.map_map]
            rfl

/-- What begins a POSIX class behind an opening bracket. -/
def IsDelimiter (character : Char) : Prop :=
  character = ':' ∨ character = '.' ∨ character = '='

theorem isDelimiter_iff {character : Char} :
    (character != ':' && character != '.' && character != '=') = true ↔
      ¬ IsDelimiter character := by
  simp [IsDelimiter, and_assoc]

/-- A delimiter behind an opening bracket that stands for itself, for want of a pair which would make
a POSIX class of it. -/
structure Unpaired (delimiter : Char) (inside : List UInt8) : Prop where
  delimits : IsDelimiter delimiter
  missing : beforeClosingPair delimiter inside = none

/-- How reading stops at an opening bracket that does not begin one of the classes there are. -/
inductive RefusesPosix (bracket : Nat) : ReadFailure → Prop where
  | unknown : RefusesPosix bracket (.fault (.usual .unknownPosixClass) bracket)
  | collating : RefusesPosix bracket (.fault (.unsupported .collatingElement) bracket)

section Posix

variable {byte : UInt8}

theorem readPosixClass_of_plain (plain : ¬ IsDelimiter (Char.ofUInt8 byte)) :
    readPosixClass (byte :: text) offset = .ok (.character 0x5B, 0) :=
  if_pos (isDelimiter_iff.mpr plain)

theorem readPosixClass_of_unpaired (unpaired : Unpaired (Char.ofUInt8 byte) text) :
    readPosixClass (byte :: text) offset = .ok (.character 0x5B, 0) := by
  refine (if_neg ?_).trans ?_
  · exact fun plain => isDelimiter_iff.mp plain unpaired.delimits
  · rw [unpaired.missing]

theorem readPosixClass_of_paired {length : Nat} (delimits : IsDelimiter (Char.ofUInt8 byte))
    (found : beforeClosingPair (Char.ofUInt8 byte) text = some length) :
    readPosixClass (byte :: text) offset =
      if Char.ofUInt8 byte != ':' then refuseFor (.unsupported .collatingElement) offset
      else
        let content := text.take length
        let name := if startsWith content '^' then content.tail else content
        match PosixClass.ofName? (Ascii.text name) with
        | none => refuse .unknownPosixClass offset
        | some kind => .ok (.item (.posix kind (startsWith content '^')), length + 3) := by
  refine (if_neg ?_).trans ?_
  · exact fun plain => isDelimiter_iff.mp plain delimits
  · rewrite [found]
    rfl

theorem ne_bracket_of_isDelimiter {character : Char} (delimits : IsDelimiter character) :
    character ≠ ']' := by
  rcases delimits with rfl | rfl | rfl
  all_goals decide

theorem getLast?_of_isDelimiter (delimits : IsDelimiter (Char.ofUInt8 byte))
    (closed : (byte :: text).getLast? = some 0x5D) : text.getLast? = some 0x5D := by
  cases text with
  | nil =>
      have last : byte = 0x5D := Option.some.inj closed
      rw [last] at delimits
      exact absurd rfl (ne_bracket_of_isDelimiter delimits)
  | cons second rest =>
      rw [List.getLast?_cons_cons] at closed
      exact closed

theorem readPosixClass_append {result : BracketMember × Nat}
    (closed : (byte :: text).getLast? = some 0x5D)
    (read : readPosixClass (byte :: text) offset = .ok result) (more : List UInt8)
    (unpaired : Unpaired (Char.ofUInt8 byte) text →
      beforeClosingPair (Char.ofUInt8 byte) more = none) :
    readPosixClass (byte :: (text ++ more)) offset = .ok result := by
  by_cases delimits : IsDelimiter (Char.ofUInt8 byte)
  · cases found : beforeClosingPair (Char.ofUInt8 byte) text with
    | none =>
        rw [readPosixClass_of_unpaired ⟨delimits, found⟩] at read
        rw [← read]
        apply readPosixClass_of_unpaired
        refine ⟨delimits, ?_⟩
        rw [beforeClosingPair_append_of_none (ne_bracket_of_isDelimiter delimits)
          (getLast?_of_isDelimiter delimits closed) found, unpaired ⟨delimits, found⟩]
        rfl
    | some length =>
        have enough := add_two_le_of_beforeClosingPair found
        rw [readPosixClass_of_paired delimits found] at read
        rw [readPosixClass_of_paired delimits (beforeClosingPair_append_of_some found more),
          List.take_append_of_le_length (Nat.le_trans (Nat.le_add_right length 2) enough)]
        exact read
  · rw [readPosixClass_of_plain delimits] at read ⊢
    exact read

theorem readPosixClass_append_of_stray (closed : (byte :: text).getLast? = some 0x5D)
    (unpaired : Unpaired (Char.ofUInt8 byte) text) {more : List UInt8}
    (stray : (beforeClosingPair (Char.ofUInt8 byte) more).isSome) :
    ∃ failure, readPosixClass (byte :: (text ++ more)) offset = .error failure
      ∧ RefusesPosix offset failure := by
  rcases Option.isSome_iff_exists.mp stray with ⟨count, foundBehind⟩
  have insideClosed := getLast?_of_isDelimiter unpaired.delimits closed
  have found := beforeClosingPair_append_of_none (ne_bracket_of_isDelimiter unpaired.delimits)
    insideClosed unpaired.missing more
  rw [foundBehind] at found
  rw [readPosixClass_of_paired unpaired.delimits found]
  split
  · exact ⟨_, rfl, .collating⟩
  · extract_lets content name
    have all : content = text ++ more.take count := by
      simp only [content]
      rw [List.take_append, List.take_of_length_le (Nat.le_add_left _ _), Nat.add_sub_cancel]
    have bracket : 0x5D ∈ content := by
      rw [all]
      exact List.mem_append_left _ (List.mem_of_getLast? insideClosed)
    have inName : 0x5D ∈ name := by
      simp only [name]
      split
      · rename_i negated
        rcases exists_of_startsWith negated with ⟨sign, rest, shape, same⟩
        rw [shape] at bracket ⊢
        rcases List.mem_cons.mp bracket with rfl | behind
        · exact absurd same (by decide)
        · exact behind
      · exact bracket
    split
    · exact ⟨_, rfl, .unknown⟩
    · rename_i kind named
      apply absurd (PosixClass.not_mem_of_ofName? named)
      rw [Ascii.text, String.toList_ofList, Decidable.not_not]
      exact List.mem_map.mpr ⟨0x5D, inName, rfl⟩

end Posix

/-- A member that is an opening bracket which stands for itself, in front of a delimiter. -/
structure LooseMember (quoted : Bool) (byte : UInt8) (rest : List UInt8) (delimiter : Char) :
    Prop where
  plain : quoted = false
  bracket : byte = 0x5B
  behind : ∃ delimiterByte inside, rest = delimiterByte :: inside
    ∧ Char.ofUInt8 delimiterByte = delimiter ∧ Unpaired delimiter inside

section

variable {settings : Settings} {quoted : Bool} {byte : UInt8}

theorem readMember_append {member : BracketMember} {following : Nat}
    (closed : text.getLast? = some 0x5D)
    (read : readMember settings quoted byte text offset = .ok (member, following))
    (within : following < text.length) (more : List UInt8)
    (unpaired : ∀ delimiter, LooseMember quoted byte text delimiter →
      beforeClosingPair delimiter more = none) :
    readMember settings quoted byte (text ++ more) offset = .ok (member, following) := by
  have bracket : 0x5D ∈ text := List.mem_of_getLast? closed
  have present : text ≠ [] := List.ne_nil_of_mem bracket
  have character : readCharacter settings byte (text ++ more) = readCharacter settings byte text :=
    readCharacter_append (by decide) bracket settings more
  unfold readMember at read ⊢
  simp only [character, startsWith_append present]
  dsimp only at read
  split at read
  · rw [if_pos ‹_›]
    exact read
  · rename_i plain
    rw [if_neg plain]
    split at read
    · rename_i opens
      cases text with
      | nil => exact absurd rfl present
      | cons delimiter inside =>
          apply readPosixClass_append closed read
          intro loose
          exact unpaired _ ⟨Bool.eq_false_iff.mpr plain, byte_of_ofUInt8 opens,
            delimiter, inside, rfl, rfl, loose⟩
    · exact readBracketEscape_append (mem_tail_of_readBracketEscape closed read within) read more
    · exact read

theorem readMember_append_of_stray {delimiter : Char} (closed : text.getLast? = some 0x5D)
    (loose : LooseMember quoted byte text delimiter) {more : List UInt8}
    (stray : (beforeClosingPair delimiter more).isSome) :
    ∃ failure, readMember settings quoted byte (text ++ more) offset = .error failure
      ∧ RefusesPosix offset failure := by
  rcases loose with ⟨rfl, rfl, _, inside, rfl, rfl, unpaired⟩
  exact readPosixClass_append_of_stray closed unpaired stray

end

end Members

end Pattern

end PerlRegex
