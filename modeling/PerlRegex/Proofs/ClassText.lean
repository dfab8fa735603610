import PerlRegex.Proofs.Execution
import PerlRegex.Proofs.Pattern.Extending

/-! A bracketed class is read from its own text. What stands behind it takes no part, but for one
thing: an opening bracket in the class, with a delimiter behind it, is taken for the beginning of a
POSIX class as soon as the pair that would end one stands anywhere in the pattern. -/

namespace PerlRegex.Pattern

/-! ## Turns -/

def BracketState.closes (state : BracketState) (byte : UInt8) : Bool :=
  Char.ofUInt8 byte == ']' && !state.first && !state.quoted

/-- The upper end of a range, given the text behind the dash. -/
def readUpper (settings : Settings) (state : BracketState) (low : Nat) (text : List UInt8)
    (offset : Nat) : Reading (BracketState × Nat) :=
  match text with
  | [] => refuse .unterminatedClass offset
  | byte :: rest => do
      let (upper, following) ← readMember settings state.quoted byte rest offset
      return (← state.addRange low upper (offset + 1 + following), following + 1)

/-- One turn in the reading of members: a member, or the two members of a range. The length read does
not count the first byte. -/
def readTurn (settings : Settings) (state : BracketState) (byte : UInt8) (rest : List UInt8)
    (offset : Nat) : Reading (BracketState × Nat) :=
  match readMember settings state.quoted byte rest offset with
  | .error failure => .error failure
  | .ok (.item item, following) => .ok (state.addItems [item], following)
  | .ok (.quoting on, following) => .ok (state.setQuoted on, following)
  | .ok (.character low, following) =>
      if dashMakesRange state.quoted (rest.drop following) then do
        let (next, used) ←
          readUpper settings state low (rest.drop (following + 1)) (offset + 1 + following + 1)
        return (next, following + 1 + used)
      else .ok (state.addCharacter low, following)

/-- A text that is one class to its end, from a state in the midst of its members. -/
inductive Members (settings : Settings) (items : List CharSetItem) :
    BracketState → List UInt8 → Nat → Prop
  | closing {state : BracketState} {offset : Nat} (closes : state.closes 0x5D = true)
      (all : state.items.reverse = items) : Members settings items state [0x5D] offset
  | turn {state next : BracketState} {byte : UInt8} {rest : List UInt8} {offset following : Nat}
      (goesOn : state.closes byte = false)
      (read : readTurn settings state byte rest offset = .ok (next, following))
      (within : following < rest.length)
      (later : Members settings items next (rest.drop following) (offset + 1 + following)) :
      Members settings items state (byte :: rest) offset

section

variable {settings : Settings} {state next : BracketState} {byte : UInt8} {rest : List UInt8}
variable {offset following : Nat} {items : List CharSetItem}

theorem BracketState.eq_of_closes (closes : state.closes byte = true) :
    Char.ofUInt8 byte = ']' := by
  simp only [BracketState.closes, Bool.and_eq_true, beq_iff_eq] at closes
  exact closes.1.1

theorem readMembers_of_closes (closes : state.closes byte = true) :
    readMembers settings state (byte :: rest) offset = .ok (state.items.reverse, offset + 1) := by
  rw [readMembers]
  exact if_pos closes

theorem readMembers_of_goesOn (goesOn : state.closes byte = false) :
    readMembers settings state (byte :: rest) offset =
      readTurn settings state byte rest offset >>= fun turn =>
        readMembers settings turn.1 (rest.drop turn.2) (offset + 1 + turn.2) := by
  rw [readMembers, readTurn]
  refine (if_neg (Bool.eq_false_iff.mp goesOn)).trans ?_
  cases readMember settings state.quoted byte rest offset with
  | error failure => rfl
  | ok member =>
      rcases member with ⟨low | item | on, following⟩
      · dsimp only
        split
        · cases rest.drop (following + 1) with
          | nil => rfl
          | cons upperByte upperRest =>
              rw [readUpper]
              dsimp only
              cases readMember settings state.quoted upperByte upperRest
                  (offset + 1 + following + 1) with
              | error failure => rfl
              | ok upper =>
                  dsimp only [bind, Except.bind]
                  cases state.addRange low upper.1 (offset + 1 + following + 1 + 1 + upper.2) with
                  | error failure => rfl
                  | ok next =>
                      have used : following + 2 + upper.2 = following + 1 + (upper.2 + 1) := by
                        omega
                      have stop : offset + 1 + following + 1 + 1 + upper.2 =
                          offset + 1 + (following + 1 + (upper.2 + 1)) := by omega
                      rw [used, stop]
                      rfl
        · rfl
      · rfl
      · rfl

theorem members_of_readMembers {text : List UInt8}
    (read : readMembers settings state text offset = .ok (items, offset + text.length)) :
    Members settings items state text offset := by
  induction length : text.length using Nat.strongRecOn generalizing state text offset with
  | ind length induction =>
  cases text with
  | nil =>
      rw [readMembers] at read
      cases read
  | cons byte rest =>
      cases closes : state.closes byte with
      | true =>
          rw [readMembers_of_closes closes] at read
          injection read with read
          injection read with all stop
          rw [List.length_cons] at stop
          have last : rest = [] := List.length_eq_zero_iff.mp (by omega)
          have bracket : byte = 0x5D := byte_of_ofUInt8 (BracketState.eq_of_closes closes)
          rw [bracket] at closes
          rw [last, bracket]
          exact .closing closes all
      | false =>
          rw [readMembers_of_goesOn closes] at read
          rcases Reading.bind_eq_ok.mp read with ⟨⟨next, following⟩, turn, later⟩
          have within : following < rest.length := by
            apply Decidable.byContradiction
            intro beyond
            rw [List.drop_of_length_le (Nat.le_of_not_lt beyond), readMembers] at later
            cases later
          have stop : offset + (byte :: rest).length =
              offset + 1 + following + (rest.drop following).length := by
            rw [List.length_cons, List.length_drop]
            omega
          rw [stop] at later
          refine .turn closes turn within (induction _ ?_ later rfl)
          rw [← length, List.length_drop, List.length_cons]
          omega

namespace Members

theorem getLast?_eq {text : List UInt8} (members : Members settings items state text offset) :
    text.getLast? = some 0x5D := by
  induction members with
  | closing => rfl
  | turn _ _ within _ induction =>
      rw [List.getLast?_drop, if_neg (Nat.not_le_of_lt within)] at induction
      rw [List.getLast?_cons, induction]
      rfl

end Members

end

/-! ## Loose delimiters -/

/-- A delimiter is loose in a turn if an opening bracket that the turn reads as a member stands in
front of it. -/
inductive LooseTurn (settings : Settings) (state : BracketState) (byte : UInt8)
    (rest : List UInt8) (offset : Nat) (delimiter : Char) : Prop
  | member (loose : LooseMember state.quoted byte rest delimiter)
  | upper {low following : Nat} {upperByte : UInt8} {upperRest : List UInt8}
      (read : readMember settings state.quoted byte rest offset =
        .ok (.character low, following))
      (dash : dashMakesRange state.quoted (rest.drop following) = true)
      (shape : rest.drop (following + 1) = upperByte :: upperRest)
      (loose : LooseMember state.quoted upperByte upperRest delimiter)

/-- A delimiter is loose in a class, read from a state in the midst of its members, if it is loose in
one of the turns. -/
inductive Loose (settings : Settings) (delimiter : Char) : BracketState → List UInt8 → Nat → Prop
  | turn {state : BracketState} {byte : UInt8} {rest : List UInt8} {offset : Nat}
      (goesOn : state.closes byte = false)
      (loose : LooseTurn settings state byte rest offset delimiter) :
      Loose settings delimiter state (byte :: rest) offset
  | later {state next : BracketState} {byte : UInt8} {rest : List UInt8} {offset following : Nat}
      (goesOn : state.closes byte = false)
      (read : readTurn settings state byte rest offset = .ok (next, following))
      (loose : Loose settings delimiter next (rest.drop following) (offset + 1 + following)) :
      Loose settings delimiter state (byte :: rest) offset

section

variable {settings : Settings} {state next : BracketState} {byte : UInt8} {rest : List UInt8}
variable {offset following : Nat} {items : List CharSetItem} {more : List UInt8}

theorem getLast?_behind {text : List UInt8} (closed : (byte :: text).getLast? = some 0x5D)
    (present : text ≠ []) : text.getLast? = some 0x5D := by
  cases text with
  | nil => exact absurd rfl present
  | cons second text =>
      rw [List.getLast?_cons_cons] at closed
      exact closed

theorem getLast?_drop {text : List UInt8} {count : Nat} (closed : text.getLast? = some 0x5D)
    (within : count < text.length) : (text.drop count).getLast? = some 0x5D := by
  rw [List.getLast?_drop, if_neg (Nat.not_le_of_lt within), closed]

theorem dashMakesRange_append {text : List UInt8} (quoted : Bool)
    (closed : text.getLast? = some 0x5D) (more : List UInt8) :
    dashMakesRange quoted (text ++ more) = dashMakesRange quoted text := by
  match text, closed with
  | [last], closed =>
      have bracket : last = 0x5D := Option.some.inj closed
      rw [bracket]
      cases more with
      | nil => rfl
      | cons => rfl
  | _ :: _ :: _, _ => rfl

theorem readUpper_append {text : List UInt8} {low used : Nat}
    (closed : text.getLast? = some 0x5D)
    (read : readUpper settings state low text offset = .ok (next, used))
    (within : used < text.length)
    (unpaired : ∀ byte rest, text = byte :: rest → ∀ delimiter,
      LooseMember state.quoted byte rest delimiter → beforeClosingPair delimiter more = none) :
    readUpper settings state low (text ++ more) offset = .ok (next, used) := by
  cases text with
  | nil => cases closed
  | cons byte rest =>
      rcases Reading.bind_eq_ok.mp read with ⟨⟨upper, following⟩, upperRead, added⟩
      rcases Reading.bind_eq_ok.mp added with ⟨state, rangeRead, same⟩
      have counts := congrArg Prod.snd (Reading.pure_eq_ok.mp same)
      dsimp only at counts
      rw [List.length_cons] at within
      have present : rest ≠ [] := by
        rw [← List.length_pos_iff]
        omega
      have again := readMember_append (getLast?_behind closed present) upperRead (by omega) more
        (unpaired byte rest rfl)
      exact Reading.bind_eq_ok.mpr
        ⟨_, again, Reading.bind_eq_ok.mpr ⟨state, rangeRead, same⟩⟩

/-- A turn reads the same from a longer text, unless a pair behind the class makes an opening bracket
begin a POSIX class. -/
theorem readTurn_append (closed : rest.getLast? = some 0x5D)
    (read : readTurn settings state byte rest offset = .ok (next, following))
    (within : following < rest.length)
    (unpaired : ∀ delimiter, LooseTurn settings state byte rest offset delimiter →
      beforeClosingPair delimiter more = none) :
    readTurn settings state byte (rest ++ more) offset = .ok (next, following) := by
  have same : ∀ {member : BracketMember} {length : Nat},
      readMember settings state.quoted byte rest offset = .ok (member, length) →
      length < rest.length →
      readMember settings state.quoted byte (rest ++ more) offset = .ok (member, length) :=
    fun memberRead shorter => readMember_append closed memberRead shorter more
      fun delimiter loose => unpaired delimiter (.member loose)
  unfold readTurn at read ⊢
  split at read
  · cases read
  · rename_i item length memberRead
    injection read with read
    injection read with all used
    rw [same memberRead (used ▸ within)]
    exact congrArg Except.ok (congrArg₂ Prod.mk all used)
  · rename_i on length memberRead
    injection read with read
    injection read with all used
    rw [same memberRead (used ▸ within)]
    exact congrArg Except.ok (congrArg₂ Prod.mk all used)
  · rename_i low length memberRead
    split at read
    · rename_i dash
      have enough := two_le_of_dashMakesRange dash
      rw [List.length_drop] at enough
      rcases Reading.bind_eq_ok.mp read with ⟨⟨after, used⟩, upperRead, result⟩
      have counts := congrArg Prod.snd (Reading.pure_eq_ok.mp result)
      dsimp only at counts
      have upperAgain := readUpper_append (getLast?_drop closed (by omega)) upperRead
        (by rw [List.length_drop]; omega)
        (fun upperByte upperRest shape delimiter loose =>
          unpaired delimiter (.upper memberRead dash shape loose))
      rw [same memberRead (by omega)]
      dsimp only
      rw [List.drop_append_of_le_length (by omega), List.drop_append_of_le_length (by omega),
        dashMakesRange_append _ (getLast?_drop closed (by omega)), if_pos dash]
      exact Reading.bind_eq_ok.mpr ⟨_, upperAgain, result⟩
    · rename_i alone
      injection read with read
      injection read with all used
      rw [same memberRead (used ▸ within)]
      dsimp only
      rw [List.drop_append_of_le_length (by omega),
        dashMakesRange_append _ (getLast?_drop closed (by omega)), if_neg alone]
      exact congrArg Except.ok (congrArg₂ Prod.mk all used)

/-- Reading stops at an opening bracket that does not begin one of the classes there are. -/
def StopsAtBracket (reading : Reading α) : Prop :=
  ∃ failure bracket, reading = .error failure ∧ RefusesPosix bracket failure

theorem readUpper_append_of_stray {upperByte : UInt8} {upperRest : List UInt8} {low : Nat}
    {delimiter : Char} (closed : (upperByte :: upperRest).getLast? = some 0x5D)
    (loose : LooseMember state.quoted upperByte upperRest delimiter)
    (stray : (beforeClosingPair delimiter more).isSome) :
    StopsAtBracket (readUpper settings state low (upperByte :: upperRest ++ more) offset) := by
  have present : upperRest ≠ [] := by
    rcases loose.behind with ⟨_, _, rfl, _⟩
    exact List.cons_ne_nil _ _
  rcases readMember_append_of_stray (getLast?_behind closed present) loose stray with
    ⟨failure, read, refuses⟩
  refine ⟨failure, offset, ?_, refuses⟩
  rw [List.cons_append, readUpper, read]
  rfl

theorem readTurn_append_of_stray {delimiter : Char} (closed : rest.getLast? = some 0x5D)
    (loose : LooseTurn settings state byte rest offset delimiter)
    (stray : (beforeClosingPair delimiter more).isSome) :
    StopsAtBracket (readTurn settings state byte (rest ++ more) offset) := by
  have first : ∀ {delimiter : Char}, LooseMember state.quoted byte rest delimiter →
      (beforeClosingPair delimiter more).isSome →
      StopsAtBracket (readTurn settings state byte (rest ++ more) offset) := by
    intro delimiter loose stray
    rcases readMember_append_of_stray closed loose stray with ⟨failure, read, refuses⟩
    refine ⟨failure, offset, ?_, refuses⟩
    rw [readTurn, read]
  cases loose with
  | member loose => exact first loose stray
  | @upper low length upperByte upperRest read dash shape loose =>
      have enough := two_le_of_dashMakesRange dash
      rw [List.length_drop] at enough
      by_cases earlier : ∃ other, LooseMember state.quoted byte rest other
          ∧ (beforeClosingPair other more).isSome
      · rcases earlier with ⟨other, looseFirst, strayFirst⟩
        exact first looseFirst strayFirst
      · have again := readMember_append closed read (by omega) more fun other looseFirst =>
          Option.not_isSome_iff_eq_none.mp fun strayFirst => earlier ⟨other, looseFirst, strayFirst⟩
        have upperClosed : (rest.drop (length + 1)).getLast? = some 0x5D :=
          getLast?_drop closed (by omega)
        rw [shape] at upperClosed
        rcases readUpper_append_of_stray upperClosed loose stray with
          ⟨failure, bracket, upperRead, refuses⟩
        refine ⟨failure, bracket, ?_, refuses⟩
        rw [readTurn, again]
        dsimp only
        rw [List.drop_append_of_le_length (by omega), List.drop_append_of_le_length (by omega),
          dashMakesRange_append _ (getLast?_drop closed (by omega)), if_pos dash, shape, upperRead]
        rfl

/-! ## Classes -/

namespace Members

variable {text : List UInt8}

theorem append (members : Members settings items state text offset)
    (unpaired : ∀ delimiter, Loose settings delimiter state text offset →
      beforeClosingPair delimiter more = none) :
    readMembers settings state (text ++ more) offset = .ok (items, offset + text.length) := by
  induction members with
  | closing closes all =>
      rw [List.cons_append, readMembers_of_closes closes, all]
      rfl
  | @turn state next byte rest offset following goesOn read within later induction =>
      have closed := getLast?_behind (Members.turn goesOn read within later).getLast?_eq
        (List.length_pos_iff.mp (Nat.zero_lt_of_lt within))
      have again := readTurn_append closed read within fun delimiter loose =>
        unpaired delimiter (.turn goesOn loose)
      rw [List.cons_append, readMembers_of_goesOn goesOn, again]
      dsimp only [bind, Except.bind]
      rw [List.drop_append_of_le_length (Nat.le_of_lt within),
        induction fun delimiter loose => unpaired delimiter (.later goesOn read loose)]
      rw [List.length_cons, List.length_drop]
      congr 2
      omega

theorem append_of_stray {delimiter : Char} (members : Members settings items state text offset)
    (loose : Loose settings delimiter state text offset)
    (stray : (beforeClosingPair delimiter more).isSome) :
    StopsAtBracket (readMembers settings state (text ++ more) offset) := by
  induction members with
  | closing closes =>
      cases loose with
      | turn goesOn =>
          rw [closes] at goesOn
          cases goesOn
      | later goesOn =>
          rw [closes] at goesOn
          cases goesOn
  | @turn state next byte rest offset following goesOn read within later induction =>
      have closed := getLast?_behind (Members.turn goesOn read within later).getLast?_eq
        (List.length_pos_iff.mp (Nat.zero_lt_of_lt within))
      rw [List.cons_append, readMembers_of_goesOn goesOn]
      by_cases here : ∃ other, LooseTurn settings state byte rest offset other
          ∧ (beforeClosingPair other more).isSome
      · rcases here with ⟨other, looseHere, strayHere⟩
        rcases readTurn_append_of_stray closed looseHere strayHere with
          ⟨failure, bracket, stopped, refuses⟩
        refine ⟨failure, bracket, ?_, refuses⟩
        rw [stopped]
        rfl
      · have again := readTurn_append closed read within fun other looseHere =>
          Option.not_isSome_iff_eq_none.mp fun strayHere => here ⟨other, looseHere, strayHere⟩
        rw [again]
        dsimp only [bind, Except.bind]
        rw [List.drop_append_of_le_length (Nat.le_of_lt within)]
        cases loose with
        | turn _ looseHere => exact absurd ⟨delimiter, looseHere, stray⟩ here
        | later _ otherRead loose =>
            rw [read] at otherRead
            injection otherRead with same
            injection same with nextSame followingSame
            subst nextSame followingSame
            exact induction loose

end Members

end

/-- The number of bytes that the sign of a negated class takes. -/
def signLength (text : List UInt8) : Nat := if startsWith text '^' then 1 else 0

/-- A delimiter is loose in a class, given the text behind the opening bracket. -/
def LooseInClass (settings : Settings) (text : List UInt8) (offset : Nat) (delimiter : Char) :
    Prop :=
  Loose settings delimiter .start (text.drop (signLength text)) (offset + signLength text)

section

variable {settings : Settings} {caseless : Bool} {text : List UInt8} {offset : Nat} {set : CharSet}

theorem readBrackets_eq :
    readBrackets settings caseless text offset =
      readMembers settings .start (text.drop (signLength text)) (offset + signLength text) >>=
        fun members => pure (⟨startsWith text '^', caseless, members.1⟩, members.2 - offset) :=
  rfl

theorem signLength_le (text : List UInt8) : signLength text ≤ text.length := by
  rw [signLength]
  split
  · rename_i signed
    exact length_pos_of_startsWith signed
  · exact Nat.zero_le _

theorem exists_members_of_readBrackets
    (complete : readBrackets settings caseless text offset = .ok (set, text.length)) :
    text ≠ [] ∧ Members settings set.items .start (text.drop (signLength text))
        (offset + signLength text)
      ∧ set = ⟨startsWith text '^', caseless, set.items⟩ := by
  rw [readBrackets_eq] at complete
  rcases Reading.bind_eq_ok.mp complete with ⟨⟨items, stop⟩, read, result⟩
  have parts := Reading.pure_eq_ok.mp result
  injection parts with same counted
  have present : text ≠ [] := by
    rintro rfl
    have nothing : readMembers settings .start [] offset = refuse .unterminatedClass offset := by
      rw [readMembers]
    exact absurd (nothing.symm.trans read) (by simp [refuse])
  have within := signLength_le text
  have inside := List.length_pos_iff.mpr present
  have stops : stop = offset + signLength text + (text.drop (signLength text)).length := by
    rw [List.length_drop]
    omega
  rw [stops] at read
  rw [← same]
  exact ⟨present, members_of_readMembers read, rfl⟩

/-- A text that is read as one class to its end is read as the same class in front of more text,
unless a delimiter that is loose in the class has its pair there. Then reading stops at an opening
bracket for which there is no class. -/
theorem readBrackets_append_iff
    (complete : readBrackets settings caseless text offset = .ok (set, text.length))
    (more : List UInt8) :
    (readBrackets settings caseless (text ++ more) offset = .ok (set, text.length) ↔
        ∀ delimiter, LooseInClass settings text offset delimiter →
          beforeClosingPair delimiter more = none)
      ∧ (readBrackets settings caseless (text ++ more) offset = .ok (set, text.length)
        ∨ StopsAtBracket (readBrackets settings caseless (text ++ more) offset)) := by
  rcases exists_members_of_readBrackets complete with ⟨present, members, shape⟩
  have sign : startsWith (text ++ more) '^' = startsWith text '^' :=
    startsWith_append present more '^'
  have signSame : signLength (text ++ more) = signLength text := by
    rw [signLength, sign, signLength]
  have within := signLength_le text
  have longer : readBrackets settings caseless (text ++ more) offset =
      readMembers settings .start (text.drop (signLength text) ++ more)
          (offset + signLength text) >>=
        fun members => pure (⟨startsWith text '^', caseless, members.1⟩, members.2 - offset) := by
    rw [readBrackets_eq, signSame, sign, List.drop_append_of_le_length within]
  by_cases paired : ∃ delimiter, LooseInClass settings text offset delimiter
      ∧ (beforeClosingPair delimiter more).isSome
  · rcases paired with ⟨delimiter, loose, stray⟩
    rcases members.append_of_stray loose stray with ⟨failure, bracket, stopped, refuses⟩
    have stops : readBrackets settings caseless (text ++ more) offset = .error failure := by
      rw [longer, stopped]
      rfl
    refine ⟨iff_of_false ?_ ?_, .inr ⟨failure, bracket, stops, refuses⟩⟩
    · rw [stops]
      exact fun impossible => nomatch impossible
    · intro unpaired
      rw [unpaired delimiter loose] at stray
      cases stray
  · have unpaired : ∀ delimiter, LooseInClass settings text offset delimiter →
        beforeClosingPair delimiter more = none := fun delimiter loose =>
      Option.not_isSome_iff_eq_none.mp fun stray => paired ⟨delimiter, loose, stray⟩
    have same : readBrackets settings caseless (text ++ more) offset = .ok (set, text.length) := by
      rw [longer, members.append unpaired, shape]
      refine Reading.pure_eq_ok.mpr (congrArg₂ Prod.mk rfl ?_)
      rw [List.length_drop]
      omega
    exact ⟨iff_of_true same unpaired, .inl same⟩

end

/-- The class `[[:a]` is the same in front of a letter. -/
theorem readBrackets_append_letter :
    readBrackets ⟨true, false, false, false⟩ false [0x5B, 0x3A, 0x61, 0x5D] 1 =
        .ok (⟨false, false, [.range 0x5B 0x5B, .range 0x3A 0x3A, .range 0x61 0x61]⟩, 4)
      ∧ readBrackets ⟨true, false, false, false⟩ false ([0x5B, 0x3A, 0x61, 0x5D] ++ [0x62]) 1 =
        .ok (⟨false, false, [.range 0x5B 0x5B, .range 0x3A 0x3A, .range 0x61 0x61]⟩, 4) := by
  have complete : readBrackets ⟨true, false, false, false⟩ false [0x5B, 0x3A, 0x61, 0x5D] 1 =
      .ok (⟨false, false, [.range 0x5B 0x5B, .range 0x3A 0x3A, .range 0x61 0x61]⟩,
        [0x5B, 0x3A, 0x61, 0x5D].length) := by
    decide +kernel
  refine ⟨complete, (readBrackets_append_iff complete [0x62]).1.mpr fun delimiter _ => ?_⟩
  simp [beforeClosingPair, startsWith]

/-- `[[:a]` is a class, but in front of `:]` it is none. -/
theorem class_lost_in_front_of_pair :
    (∃ program, Program.compile "[[:a]".toUTF8.toList {} = .ok program
        ∧ program.execute none {} "[".toUTF8.data 0 {} = .ok (.matched [some ⟨0, 1⟩]))
      ∧ Program.compile "[[:a]:]".toUTF8.toList {} =
        .error (.invalid ⟨.usual .unknownPosixClass, 1, "[[:a]:]"⟩)
      ∧ ¬ ∀ (settings : Settings) (caseless : Bool) (text more : List UInt8) (offset : Nat)
          (set : CharSet),
        readBrackets settings caseless text offset = .ok (set, text.length) →
          readBrackets settings caseless (text ++ more) offset = .ok (set, text.length) := by
  refine ⟨exists_compiled (by decide +kernel), Reading.eq_error (by decide +kernel), ?_⟩
  intro always
  have complete : readBrackets ⟨false, false, false, false⟩ false [0x5B, 0x3A, 0x61, 0x5D] 1 =
      .ok (⟨false, false, [.range 0x5B 0x5B, .range 0x3A 0x3A, .range 0x61 0x61]⟩,
        [0x5B, 0x3A, 0x61, 0x5D].length) := by
    decide +kernel
  have refused : readBrackets ⟨false, false, false, false⟩ false
      ([0x5B, 0x3A, 0x61, 0x5D] ++ [0x3A, 0x5D]) 1 = refuse .unknownPosixClass 1 :=
    Reading.eq_error (by decide +kernel)
  have same := always _ _ _ [0x3A, 0x5D] _ _ complete
  rw [refused] at same
  cases same

end PerlRegex.Pattern
