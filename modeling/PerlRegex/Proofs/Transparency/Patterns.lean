import PerlRegex.Proofs.Pattern.Marks
import PerlRegex.Proofs.Pattern.Numbering
import PerlRegex.Proofs.Pattern.Words
import PerlRegex.Proofs.Transparency.Texts

/-! Reading a pattern of ASCII characters in UTF-8 mode. Whatever is read outside of the mode is
read in it too, and comes to the same tree. The characters that the pattern names by escapes need
not be ASCII characters, but outside of the mode each of them is a byte. -/

namespace PerlRegex

def CompileOptions.inUtf8 (options : CompileOptions) : CompileOptions :=
  { options with utf8 := true }

namespace Pattern

/-! ## Readings that carry over -/

namespace Reading

/-- What the first reading gives, if it gives anything, the second one gives too, and a condition
holds of it. -/
def CarriesOver (good : α → Prop) (reading other : Reading α) : Prop :=
  ∀ value, reading = .ok value → other = .ok value ∧ good value

namespace CarriesOver

variable {good : α → Prop}

theorem ok {value : α} (holds : good value) : CarriesOver good (.ok value) (.ok value) := by
  intro result read
  injection read with same
  exact same ▸ ⟨rfl, holds⟩

theorem error (failure : ReadFailure) (other : Reading α) :
    CarriesOver good (.error failure) other := by
  intro result read
  cases read

theorem same {reading : Reading α} (holds : ∀ value, reading = .ok value → good value) :
    CarriesOver good reading reading :=
  fun value read => ⟨read, holds value read⟩

theorem refl (reading : Reading α) : CarriesOver (fun _ => True) reading reading :=
  .same fun _ _ => trivial

theorem bind {reading other : Reading α} {next otherNext : α → Reading β} {result : β → Prop}
    (first : CarriesOver good reading other)
    (rest : ∀ value, good value → CarriesOver result (next value) (otherNext value)) :
    CarriesOver result (reading >>= next) (other >>= otherNext) := by
  intro value read
  rcases bind_eq_ok.mp read with ⟨middle, begun, read⟩
  rcases first middle begun with ⟨otherBegun, holds⟩
  rw [otherBegun]
  exact rest middle holds value read

theorem bind_refl {reading : Reading α} {next otherNext : α → Reading β} {result : β → Prop}
    (rest : ∀ value, CarriesOver result (next value) (otherNext value)) :
    CarriesOver result (reading >>= next) (reading >>= otherNext) :=
  (refl reading).bind fun value _ => rest value

end CarriesOver

end Reading

/-! ## Characters -/

/-- Characters of a pattern outside UTF-8 mode. -/
def AreBytes (characters : List Nat) : Prop := ∀ character ∈ characters, character < 0x100

theorem areBytes_singleton {character : Nat} (small : character < 0x100) : AreBytes [character] :=
  fun _ member => List.mem_singleton.mp member ▸ small

theorem areBytes_append {first second : List Nat} :
    AreBytes (first ++ second) ↔ AreBytes first ∧ AreBytes second :=
  List.forall_mem_append

def Settings.inUtf8 (settings : Settings) : Settings := { settings with utf8 := true }

theorem readCharacter_of_ascii (settings : Settings) {lead : UInt8} (ascii : lead < 0x80)
    (rest : List UInt8) : readCharacter settings lead rest = (lead.toNat, 0) := by
  have single : Utf8.announcedLength lead = 1 := if_pos (UInt8.lt_trans ascii (by decide))
  rw [readCharacter, Utf8.decode, single]
  split <;> rfl

theorem controlCharacter_lt {codePoint : Nat} (ascii : codePoint < 0x80) :
    controlCharacter codePoint < 0x80 := by
  have upper : Ascii.toUpper codePoint < 2 ^ 7 := by
    rw [Ascii.toUpper]
    split <;> omega
  exact Nat.xor_lt_two_pow upper (by decide)

theorem readQuoted_of_ascii (settings : Settings) {text : List UInt8} (ascii : Utf8.AllAscii text) :
    readQuoted settings.inUtf8 text = readQuoted settings text
      ∧ AreBytes (readQuoted settings text).1 := by
  fun_induction readQuoted settings text with
  | case1 => exact ⟨by rw [readQuoted], fun _ member => by cases member⟩
  | case2 byte rest ends =>
      exact ⟨by rw [readQuoted, if_pos ends], fun _ member => by cases member⟩
  | case3 byte rest more character following read characters used quoted induction =>
      rw [readCharacter_of_ascii settings ascii.head] at read
      injection read with isByte nothing
      rw [← nothing, List.drop_zero] at quoted induction
      rcases induction ascii.tail with ⟨same, bytes⟩
      rw [quoted] at same bytes
      constructor
      · rw [readQuoted, if_neg more, readCharacter_of_ascii _ ascii.head]
        dsimp only
        rw [List.drop_zero, same, isByte, ← nothing]
      · intro other member
        rcases List.mem_cons.mp member with rfl | member
        · exact isByte ▸ byte.toNat_lt
        · exact bytes other member

section Readers

variable {settings : Settings} (narrow : settings.utf8 = false)
include narrow

theorem checkCharacter_carries (value offset : Nat) :
    Reading.CarriesOver (· < 0x100) (checkCharacter settings value offset)
      (checkCharacter settings.inUtf8 value offset) := by
  rcases Nat.lt_or_ge value 0x100 with small | great
  · have accepted : ∀ settings : Settings, checkCharacter settings value offset = .ok value := by
      intro settings
      have fits : ¬ (if settings.utf8 then 0x10FFFF else 0xFF) < value := by split <;> omega
      have scalar : ¬ 0xD800 ≤ value := by omega
      simp [checkCharacter, fits, scalar]
    rw [accepted, accepted]
    exact .ok small
  · have refused : checkCharacter settings value offset = refuseFor .characterTooLarge offset := by
      rw [checkCharacter, narrow]
      exact if_pos great
    rw [refused]
    exact .error _ _

/-! ## Escapes -/

theorem readCharacterEscape_carries {byte : UInt8} {rest : List UInt8}
    (ascii : Utf8.AllAscii (byte :: rest)) (offset : Nat) :
    Reading.CarriesOver (·.1 < 0x100) (readCharacterEscape settings byte rest offset)
      (readCharacterEscape settings.inUtf8 byte rest offset) := by
  have itself : byte.toNat < 0x100 := byte.toNat_lt
  have braced : ∀ radix, Reading.CarriesOver (·.1 < 0x100)
      (do
        let number ← readBracedNumber radix rest (offset + 1)
        return (← checkCharacter settings number.1 offset, number.2))
      (do
        let number ← readBracedNumber radix rest (offset + 1)
        return (← checkCharacter settings.inUtf8 number.1 offset, number.2)) := by
    intro radix
    refine .bind_refl fun number => ?_
    exact (checkCharacter_carries narrow number.1 offset).bind fun value small => .ok small
  unfold readCharacterEscape
  split
  iterate 6 exact .ok (by decide)
  · have small := readDigits_lt (show 0 < 8 by decide) 2 rest
    exact .ok (Nat.lt_trans small (by decide))
  · exact braced 8
  · split
    · exact braced 16
    · exact .ok (readDigits_lt (show 0 < 16 by decide) 2 rest)
  · split
    · exact .error _ _
    · rename_i controlled following
      split
      · exact .error _ _
      · have small := UInt8.lt_iff_toNat_lt.mp ascii.tail.head
        exact .ok (Nat.lt_trans (controlCharacter_lt small) (by decide))
  · split
    · have sameExtra : settings.inUtf8.extra = settings.extra := rfl
      rw [sameExtra]
      split
      · exact .error _ _
      · exact .ok itself
    · rw [readCharacter_of_ascii settings ascii.head, readCharacter_of_ascii _ ascii.head]
      exact .ok itself

def Escape.literals : Escape → List Nat
  | .characters added => added
  | _ => []

theorem readNumericEscape_carries (captures : Nat) (text : List UInt8) (start : Nat) :
    Reading.CarriesOver (AreBytes ·.1.literals) (readNumericEscape settings captures text start)
      (readNumericEscape settings.inUtf8 captures text start) := by
  unfold readNumericEscape
  dsimp only
  split
  · refine (checkCharacter_carries narrow _ start).bind fun character small => ?_
    exact .ok (areBytes_singleton small)
  · exact .ok fun _ member => by cases member

theorem readEscape_carries {text : List UInt8} (ascii : Utf8.AllAscii text) (captures start : Nat) :
    Reading.CarriesOver (AreBytes ·.1.literals) (readEscape settings captures text start)
      (readEscape settings.inUtf8 captures text start) := by
  have nothing : AreBytes [] := fun _ member => by cases member
  unfold readEscape
  split
  · exact .error _ _
  · rename_i byte rest
    dsimp only
    split
    · rcases readQuoted_of_ascii settings ascii.tail with ⟨same, bytes⟩
      rw [same]
      exact .ok bytes
    iterate 8 exact .ok nothing
    · split
      · exact .error _ _
      · exact .ok nothing
    iterate 4 exact .bind_refl fun _ => .ok nothing
    iterate 7 exact .error _ _
    · split
      · exact .ok nothing
      · split
        · exact readNumericEscape_carries narrow captures _ start
        · refine (readCharacterEscape_carries narrow ascii _).bind fun character small => ?_
          exact .ok (areBytes_singleton small)

/-! ## Brackets -/

theorem readBracketEscape_carries {text : List UInt8} (ascii : Utf8.AllAscii text) (offset : Nat) :
    Reading.CarriesOver (fun _ => True) (readBracketEscape settings text offset)
      (readBracketEscape settings.inUtf8 text offset) := by
  unfold readBracketEscape
  split
  · exact .error _ _
  · rename_i byte rest
    split
    iterate 7 exact .refl _
    iterate 10 exact .error _ _
    · split
      · exact .refl _
      · split
        · exact (checkCharacter_carries narrow _ offset).bind fun _ _ => .refl _
        · exact (readCharacterEscape_carries narrow ascii offset).bind fun _ _ => .refl _

theorem readMember_carries {byte : UInt8} {rest : List UInt8}
    (ascii : Utf8.AllAscii (byte :: rest)) (quoted : Bool) (offset : Nat) :
    Reading.CarriesOver (fun _ => True) (readMember settings quoted byte rest offset)
      (readMember settings.inUtf8 quoted byte rest offset) := by
  unfold readMember
  rw [readCharacter_of_ascii settings ascii.head, readCharacter_of_ascii _ ascii.head]
  dsimp only
  split
  · exact .refl _
  · split
    · exact .refl _
    · exact readBracketEscape_carries narrow ascii.tail (offset + 1)
    · exact .refl _

theorem readMembers_carries {state : BracketState} {text : List UInt8} {offset : Nat}
    (ascii : Utf8.AllAscii text) :
    Reading.CarriesOver (fun _ => True) (readMembers settings state text offset)
      (readMembers settings.inUtf8 state text offset) := by
  have member : ∀ {byte : UInt8} {rest : List UInt8} {quoted : Bool} {offset : Nat}
      {read : BracketMember × Nat}, Utf8.AllAscii (byte :: rest) →
      readMember settings quoted byte rest offset = .ok read →
      readMember settings.inUtf8 quoted byte rest offset = .ok read :=
    fun ascii read => (readMember_carries narrow ascii _ _ _ read).1
  -- The cases are those of the first reading. The second one comes to the same case each time,
  -- because the member that decides has been read alike.
  fun_induction readMembers settings state text offset with
  | case1 | case3 | case6 | case7 | case8 => exact .error _ _
  | case2 state offset byte rest closes =>
      rw [readMembers, if_pos closes]
      exact .refl _
  | case4 state offset byte rest more item following read induction =>
      rw [readMembers, if_neg more, member ascii read]
      exact induction (ascii.tail.drop following)
  | case5 state offset byte rest more on following read induction =>
      rw [readMembers, if_neg more, member ascii read]
      exact induction (ascii.tail.drop following)
  | case9 state offset byte rest more low following read ranges upperByte upperRest left
      upperOffset upper upperFollowing upperRead stop next added induction =>
      have upperAscii := ascii.tail.drop (following + 1)
      rw [left] at upperAscii
      rw [readMembers, if_neg more, member ascii read]
      dsimp only
      rw [if_pos ranges, left]
      dsimp only
      rw [member upperAscii upperRead]
      dsimp only
      rw [added]
      exact induction (ascii.tail.drop (following + 2 + upperFollowing))
  | case10 state offset byte rest more low following read single induction =>
      rw [readMembers, if_neg more, member ascii read]
      dsimp only
      rw [if_neg single]
      exact induction (ascii.tail.drop following)

theorem readBrackets_carries {text : List UInt8} (ascii : Utf8.AllAscii text) (caseless : Bool)
    (offset : Nat) :
    Reading.CarriesOver (fun _ => True) (readBrackets settings caseless text offset)
      (readBrackets settings.inUtf8 caseless text offset) :=
  (readMembers_carries narrow (ascii.drop _)).bind fun _ _ => .refl _

end Readers

/-! ## Pieces -/

namespace State

def literals (state : State) : List Nat := state.gather ([·]) (fun _ => []) fun _ => []

variable {state next : State}

theorem literals_addCharacters (state : State) (characters : List Nat) :
    (state.addCharacters characters).literals = state.literals ++ characters := by
  rw [literals, gather_addCharacters, List.flatMap_singleton']
  rfl

theorem literals_addItem {item : Tree} (quiet : item.literals = []) :
    (state.addItem item).literals = state.literals := by
  rw [Node.literals] at quiet
  rw [literals, gather_addItem, quiet, List.append_nil]
  rfl

theorem literals_addEscape (state : State) (escape : Escape) :
    (state.addEscape escape).literals = state.literals ++ escape.literals := by
  cases escape with
  | characters characters => exact state.literals_addCharacters characters
  | _ => exact (literals_addItem rfl).trans (List.append_nil _).symm

theorem literals_of_openGroup {form : GroupForm} {flags : Flags} {start : Nat}
    (opened : state.openGroup form flags start = .ok next) : next.literals = state.literals := by
  have quiet : form.gather (fun _ => ([] : List Nat)) = [] := by cases form <;> rfl
  rw [literals, gather_openGroup _ _ _ opened, quiet, List.append_nil]
  rfl

theorem literals_of_applyOpening {opening : Opening} {start stop : Nat}
    (applied : state.applyOpening opening start stop = .ok next) :
    next.literals = state.literals := by
  cases opening with
  | comment | setFlags =>
      injection applied with same
      exact same ▸ rfl
  | reference name =>
      injection applied with same
      exact same ▸ literals_addItem rfl
  | plain | atomic | lookahead | lookbehind => exact literals_of_openGroup applied
  | capture => exact (literals_of_openGroup applied).trans rfl
  | named name =>
      unfold State.applyOpening at applied
      dsimp only at applied
      split at applied
      · exact absurd applied refuse_ne_ok
      · exact (literals_of_openGroup applied).trans rfl

end State

section Pieces

variable {settings : Settings} (narrow : settings.utf8 = false) {state : State}
  (bytes : AreBytes state.literals)
include narrow bytes

theorem readPiece_carries {byte : UInt8} {rest : List UInt8}
    (ascii : Utf8.AllAscii (byte :: rest)) (offset : Nat) :
    Reading.CarriesOver (AreBytes ·.1.literals) (readPiece settings state byte rest offset)
      (readPiece settings.inUtf8 state byte rest offset) := by
  have repeated : ∀ bounds boundsLength,
      Reading.CarriesOver (AreBytes ·.1.literals) (readRepeat state bounds boundsLength rest offset)
        (readRepeat state bounds boundsLength rest offset) := by
    refine fun bounds boundsLength => .same fun piece read => ?_
    rcases exists_of_readRepeat read with ⟨value, manner, same⟩
    rw [same, State.literals, State.gather_repeatLatest]
    exact bytes
  have item : ∀ {item : Tree} {used : Nat}, item.literals = [] →
      Reading.CarriesOver (AreBytes ·.1.literals) (.ok (state.addItem item, used))
        (.ok (state.addItem item, used)) := by
    intro item used quiet
    apply Reading.CarriesOver.ok
    rw [State.literals_addItem quiet]
    exact bytes
  have character : Reading.CarriesOver (AreBytes ·.1.literals)
      (.ok (state.addCharacters [byte.toNat], 0)) (.ok (state.addCharacters [byte.toNat], 0)) := by
    apply Reading.CarriesOver.ok
    rw [State.literals_addCharacters]
    exact areBytes_append.mpr ⟨bytes, areBytes_singleton byte.toNat_lt⟩
  unfold readPiece
  rw [readCharacter_of_ascii settings ascii.head, readCharacter_of_ascii _ ascii.head]
  -- Only brackets and escapes are read by the mode, in what they say about characters.
  split
  · exact .ok bytes
  · dsimp only
    split
    · apply Reading.CarriesOver.ok
      rw [State.literals, State.gather_nextBranch]
      exact bytes
    · refine Reading.CarriesOver.bind (.same fun next closed => ?_) fun next nextBytes =>
        .ok nextBytes
      rw [State.literals, State.gather_closeGroup _ _ _ closed]
      exact bytes
    iterate 3 exact repeated _ _
    · split
      · exact repeated _ _
      · exact character
    · refine .bind_refl fun opening => ?_
      refine Reading.CarriesOver.bind (.same fun next applied => ?_) fun next nextBytes =>
        .ok nextBytes
      rw [State.literals_of_applyOpening applied]
      exact bytes
    · exact (readBrackets_carries narrow ascii.tail _ _).bind fun _ _ => item rfl
    · refine (readEscape_carries narrow ascii.tail _ offset).bind fun escape escapeBytes => ?_
      apply Reading.CarriesOver.ok
      rw [State.literals_addEscape]
      exact areBytes_append.mpr ⟨bytes, escapeBytes⟩
    · exact item (by split <;> rfl)
    · exact item rfl
    · exact item rfl
    · exact character

theorem readPieces_carries {text : List UInt8} {offset : Nat} (ascii : Utf8.AllAscii text) :
    Reading.CarriesOver (AreBytes ·.literals) (readPieces settings state text offset)
      (readPieces settings.inUtf8 state text offset) := by
  fun_induction readPieces settings state text offset with
  | case1 state offset =>
      rw [readPieces]
      exact .ok bytes
  | case2 => exact .error _ _
  | case3 state offset byte rest next following read induction =>
      rcases readPiece_carries narrow bytes ascii offset _ read with ⟨wideRead, nextBytes⟩
      rw [readPieces, wideRead]
      exact induction nextBytes (ascii.tail.drop following)

end Pieces

theorem readPieces_start_carries (settings : Settings) {text : List UInt8} {offset : Nat}
    (ascii : Utf8.AllAscii text) (flags : Flags) :
    Reading.CarriesOver (fun final => settings.utf8 = false → AreBytes final.literals)
      (readPieces settings (.start flags) text offset)
      (readPieces settings.inUtf8 (.start flags) text offset) := by
  cases mode : settings.utf8 with
  | true =>
      have same : settings.inUtf8 = settings := by rw [Settings.inUtf8, ← mode]
      rw [same]
      exact .same fun _ _ impossible => by cases impossible
  | false =>
      have nothing : AreBytes (State.start flags).literals := fun _ member => by cases member
      intro final read
      rcases readPieces_carries mode nothing ascii final read with ⟨wideRead, bytes⟩
      exact ⟨wideRead, fun _ => bytes⟩

/-! ## Whole patterns -/

def inUtf8 (pattern : Pattern) : Pattern :=
  { pattern with
    options := pattern.options.inUtf8
    lineRules := pattern.lineRules.inUtf8 }

section WholePatterns

variable {options changed : CompileOptions} (allowed : options.neverUtf = false)
include allowed

theorem apply_inUtf8 {verb : Verb} {offset : Nat}
    (applied : verb.apply options offset = .ok changed) :
    verb.apply options.inUtf8 offset = .ok changed.inUtf8 ∧ changed.neverUtf = false := by
  have stillAllowed : ¬ options.neverUtf = true := by simp [allowed]
  cases verb with
  | utf =>
      rw [Verb.apply, if_neg stillAllowed] at applied
      injection applied with same
      rw [Verb.apply, CompileOptions.inUtf8, if_neg stillAllowed, ← same]
      exact ⟨rfl, allowed⟩
  | _ =>
      injection applied with same
      exact same ▸ ⟨rfl, allowed⟩

theorem readVerbs_inUtf8 {text : List UInt8} {offset stop : Nat}
    (read : readVerbs options text offset = .ok (changed, stop)) :
    readVerbs options.inUtf8 text offset = .ok (changed.inUtf8, stop)
      ∧ changed.neverUtf = false :=
  readVerbs_commutes CompileOptions.inUtf8 (·.neverUtf = false)
    (fun allowed applied => apply_inUtf8 allowed applied) allowed read

theorem lineRulesOf_inUtf8 {rules : LineRules} (given : lineRulesOf options = .ok rules) :
    lineRulesOf options.inUtf8 = .ok rules.inUtf8 := by
  have accepted : ∀ utf8 : Bool, ¬ (utf8 && options.neverUtf) = true := by simp [allowed]
  rw [lineRulesOf, if_neg (accepted _)] at given
  split at given
  · exact absurd given refuse_ne_ok
  · exact absurd given refuseFor_ne_ok
  · rename_i newline lineBreaks newlineGiven lineBreaksGiven
    injection given with same
    have wideNewline : options.inUtf8.newline? = some newline := newlineGiven
    have wideLineBreaks : options.inUtf8.lineBreaks? = some lineBreaks := lineBreaksGiven
    rw [lineRulesOf, wideNewline, wideLineBreaks, ← same]
    exact if_neg (accepted _)

/-- A pattern of ASCII characters is read in UTF-8 mode as outside of it. -/
theorem parse_inUtf8 {text : List UInt8} {pattern : Pattern} (ascii : Utf8.AllAscii text)
    (parsed : parse text options = .ok pattern) :
    parse text options.inUtf8 = .ok pattern.inUtf8
      ∧ (pattern.options.utf8 = false → AreBytes pattern.tree.literals) := by
  have noNul : text.findIdx? (· == 0) = none := by
    cases found : text.findIdx? (· == 0) with
    | none => rfl
    | some offset =>
        rw [parse, found] at parsed
        exact absurd parsed refuse_ne_ok
  rcases steps_of_parse parsed with
    ⟨bodyOffset, state, tree, verbs, lines, read, finished, resolving, captures, names⟩
  rcases readVerbs_inUtf8 allowed verbs with ⟨wideVerbs, stillAllowed⟩
  have wideLines := lineRulesOf_inUtf8 stillAllowed lines
  have checked : checkUtf8 pattern.options.inUtf8 text = .ok () := by
    rw [checkUtf8, ascii.invalidOffset]
    split <;> rfl
  rcases readPieces_start_carries (settingsOf pattern.options) (ascii.drop bodyOffset) _ state read
    with ⟨wideRead, bytes⟩
  constructor
  · rw [parse, noNul]
    refine Reading.bind_eq_ok.mpr ⟨_, wideVerbs, ?_⟩
    refine Reading.bind_eq_ok.mpr ⟨_, wideLines, ?_⟩
    refine Reading.bind_eq_ok.mpr ⟨_, checked, ?_⟩
    refine Reading.bind_eq_ok.mpr ⟨_, wideRead, ?_⟩
    refine Reading.bind_eq_ok.mpr ⟨_, finished, ?_⟩
    refine Reading.bind_eq_ok.mpr ⟨_, resolving, ?_⟩
    rw [← captures, ← names]
    rfl
  · intro narrow
    rw [(of_resolve resolving).1, Node.literals_mapReferences, Node.literals,
      State.gather_of_finish _ _ _ finished]
    exact bytes narrow

end WholePatterns

end Pattern

end PerlRegex
