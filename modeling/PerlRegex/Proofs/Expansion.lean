import Mathlib.Data.List.Induction
import Mathlib.Data.Nat.Digits.Defs
import PerlRegex.Matcher
import PerlRegex.Proofs.Pattern.Bookkeeping
import PerlRegex.Proofs.Splicing
import PerlRegex.Proofs.Template
namespace PerlRegex

/-! Expanding a template undoes the writing of it. Whatever stands next to a reference, the reader
is in step again behind it, and each reference comes to the text of the group that it names. -/

namespace Template

/-! ## Writing templates -/

/-- A group number as it is written, in as many digits as one likes. -/
structure Number where
  digits : List UInt8
  nonempty : digits ≠ []
  decimal : ∀ digit ∈ digits, Ascii.isDigit digit.toNat = true

/-- A name as it is written. One of digits only would be a number. -/
structure Name where
  letters : List UInt8
  word : ∀ byte ∈ letters, isWordByte byte = true
  proper : ∃ byte ∈ letters, Ascii.isDigit byte.toNat = false

/-- What a template is put together from. -/
inductive Token where
  | literal (bytes : List UInt8)
  | numbered (number : Number)
  | named (name : Name)

def Number.value (number : Number) : Nat :=
  Nat.ofDigits 10 (number.digits.reverse.map fun digit => digit.toNat - 0x30)

def Name.text (name : Name) : String := Ascii.text name.letters

def writeLiteral (bytes : List UInt8) : List UInt8 :=
  bytes.flatMap fun byte => if byte = dollar then [dollar, dollar] else [byte]

def writeReference (name : List UInt8) : List UInt8 := dollar :: 0x7B :: (name ++ [0x7D])

def Token.write : Token → List UInt8
  | .literal bytes => writeLiteral bytes
  | .numbered number => writeReference number.digits
  | .named name => writeReference name.letters

/-! ## What tokens stand for -/

def takingPart (regex : Regex) (captures : Captures) (name : String) : List Nat :=
  (Pattern.groupsNamed regex.namedGroups name).filter fun number =>
    ((captures[number]?).join).isSome

def lowestSpan (regex : Regex) (captures : Captures) (name : String) : Option Span :=
  (takingPart regex captures name).min?.bind fun number => (captures[number]?).join

def Token.meaning (regex : Regex) (subject : Array UInt8) (captures : Captures) :
    Token → List UInt8
  | .literal bytes => bytes
  | .numbered number => ((captures[number.value]?).join).elim [] (·.bytes subject)
  | .named name => (lowestSpan regex captures name.text).elim [] (·.bytes subject)

/-! ## Reading back -/

theorem digitsValue_append (front : List UInt8) {digit : UInt8}
    (decimal : Ascii.isDigit digit.toNat = true) :
    Ascii.digitsValue 10 (front ++ [digit]) =
      digit.toNat - 0x30 + 10 * Ascii.digitsValue 10 front := by
  have value : Ascii.digitValue? 10 digit.toNat = some (digit.toNat - 0x30) := by
    rw [Ascii.digitValue?, if_pos decimal, if_pos]
    simp only [Ascii.isDigit, Bool.and_eq_true, decide_eq_true_eq] at decimal
    omega
  rw [Ascii.digitsValue, List.foldl_append, List.foldl_cons, List.foldl_nil, value,
    Option.getD_some, Nat.add_comm, Nat.mul_comm]
  rfl

theorem digitsValue_eq_ofDigits {digits : List UInt8}
    (decimal : ∀ digit ∈ digits, Ascii.isDigit digit.toNat = true) :
    Ascii.digitsValue 10 digits =
      Nat.ofDigits 10 (digits.reverse.map fun digit => digit.toNat - 0x30) := by
  induction digits using List.reverseRecOn with
  | nil => rfl
  | append_singleton front digit induction =>
      rw [List.forall_mem_append] at decimal
      rw [digitsValue_append front (decimal.2 digit (List.mem_singleton_self digit)),
        induction decimal.1, List.reverse_append, List.reverse_singleton, List.singleton_append,
        List.map_cons, Nat.ofDigits_cons]

theorem reference_digits (number : Number) : reference number.digits = .group number.value := by
  rw [reference, if_pos (List.all_eq_true.mpr number.decimal),
    digitsValue_eq_ofDigits number.decimal]
  rfl

theorem reference_letters (name : Name) : reference name.letters = .named name.text := by
  rcases name.proper with ⟨byte, member, letter⟩
  refine if_neg fun digits => ?_
  rw [List.all_eq_true.mp digits byte member] at letter
  cases letter

theorem isWordByte_of_isDigit {byte : UInt8} (digit : Ascii.isDigit byte.toNat = true) :
    isWordByte byte = true := by
  rw [isWordByte, Ascii.isWord, Ascii.isAlphanumeric, digit, Bool.or_true, Bool.true_or]

section Reading

variable (rest : List UInt8)

theorem parse_doubled : parse (dollar :: dollar :: rest) = .byte dollar :: parse rest := by
  rw [parse, if_neg (fun other => other rfl), if_pos (by rfl)]
  rfl

theorem parse_writeLiteral (bytes : List UInt8) :
    parse (writeLiteral bytes ++ rest) = bytes.map .byte ++ parse rest := by
  induction bytes with
  | nil => rfl
  | cons byte bytes induction =>
      rw [writeLiteral, List.flatMap_cons, List.append_assoc, List.map_cons, List.cons_append,
        ← induction]
      split
      · rename_i sign
        rw [sign]
        exact parse_doubled _
      · rename_i plain
        rw [List.singleton_append, parse, if_pos plain]
        rfl

theorem readReference_braced {name : List UInt8} (nonempty : name ≠ [])
    (word : ∀ byte ∈ name, isWordByte byte = true) :
    readReference? (0x7B :: (name ++ 0x7D :: rest)) = some (name, name.length + 2) := by
  -- No byte of a name is a closing brace, so whatever follows, the name ends at the first one.
  have inside : (name ++ 0x7D :: rest).takeWhile (· != 0x7D) = name := by
    have open_ : ∀ byte ∈ name, (byte != 0x7D) = true := by
      intro byte member
      rw [bne_iff_ne]
      rintro rfl
      have closing := word _ member
      revert closing
      decide
    rw [List.takeWhile_append_of_pos open_, List.takeWhile_cons_of_neg (by decide),
      List.append_nil]
  rw [readReference?, if_pos (by rfl), List.tail_cons, inside, if_pos]
  simp only [Bool.and_eq_true, decide_eq_true_eq, Bool.not_eq_true', List.isEmpty_eq_false_iff,
    List.length_cons, List.length_append, List.all_eq_true]
  exact ⟨⟨by omega, nonempty⟩, word⟩

theorem parse_writeReference {name : List UInt8} (nonempty : name ≠ [])
    (word : ∀ byte ∈ name, isWordByte byte = true) :
    parse (writeReference name ++ rest) = reference name :: parse rest := by
  have behind : (0x7B :: (name ++ 0x7D :: rest)).drop (name.length + 2) = rest := by
    rw [List.drop_succ_cons, List.drop_append, List.drop_of_length_le (Nat.le_succ _),
      Nat.add_sub_cancel_left]
    rfl
  rw [writeReference, List.cons_append, List.cons_append, List.append_assoc,
    List.singleton_append, parse, if_neg (fun other => other rfl),
    if_neg (by rw [List.head?_cons]; decide), readReference_braced rest nonempty word]
  exact congrArg (reference name :: parse ·) behind

end Reading

def Token.pieces : Token → Template
  | .literal bytes => bytes.map .byte
  | .numbered number => [.group number.value]
  | .named name => [.named name.text]

theorem parse_write (token : Token) (rest : List UInt8) :
    parse (token.write ++ rest) = token.pieces ++ parse rest := by
  cases token with
  | literal bytes => exact parse_writeLiteral rest bytes
  | numbered number =>
      have word : ∀ digit ∈ number.digits, isWordByte digit = true :=
        fun digit member => isWordByte_of_isDigit (number.decimal digit member)
      exact (parse_writeReference rest number.nonempty word).trans
        (congrArg (· :: parse rest) (reference_digits number))
  | named name =>
      have nonempty : name.letters ≠ [] := by
        rcases name.proper with ⟨byte, member, _⟩
        exact List.ne_nil_of_mem member
      exact (parse_writeReference rest nonempty name.word).trans
        (congrArg (· :: parse rest) (reference_letters name))

theorem parse_flatMap_write (tokens : List Token) :
    parse (tokens.flatMap Token.write) = tokens.flatMap Token.pieces := by
  induction tokens with
  | nil => rw [List.flatMap_nil, parse, List.flatMap_nil]
  | cons token tokens induction =>
      rw [List.flatMap_cons, parse_write, induction, List.flatMap_cons]

end Template

/-! ## The lowest group of a name -/

section Increasing

variable {numbers : List Nat}

theorem min?_eq_head? (increasing : numbers.Pairwise (· < ·)) : numbers.min? = numbers.head? := by
  cases numbers with
  | nil => rfl
  | cons number later =>
      refine List.min?_eq_some_iff.mpr ⟨List.mem_cons_self, fun other member => ?_⟩
      rcases List.mem_cons.mp member with rfl | member
      · exact Nat.le_refl _
      · exact Nat.le_of_lt (List.rel_of_pairwise_cons increasing member)

theorem find?_eq_min? (increasing : numbers.Pairwise (· < ·)) (property : Nat → Bool) :
    numbers.find? property = (numbers.filter property).min? := by
  rw [min?_eq_head? (increasing.filter property), List.head?_filter]

end Increasing

theorem findSome?_eq_bind (numbers : List Nat) (value : Nat → Option Span) :
    numbers.findSome? value = (numbers.find? fun number => (value number).isSome).bind value := by
  induction numbers with
  | nil => rfl
  | cons number later induction =>
      rw [List.findSome?_cons, List.find?_cons]
      cases found : value number with
      | none => exact induction
      | some span => exact found.symm

namespace Regex

variable {regex : Regex}

theorem Made.increasing_groupsNamed (made : regex.Made) (name : String) :
    (Pattern.groupsNamed regex.namedGroups name).Pairwise (· < ·) := by
  have sublist : (Pattern.groupsNamed regex.namedGroups name).Sublist
      (regex.namedGroups.map (·.2)) := List.filter_sublist.map _
  refine .sublist sublist ?_
  cases present : regex.program with
  | none =>
      rw [namedGroups, present]
      exact .nil
  | some program =>
      rcases made.exists_compile present with ⟨text, options, compiled⟩
      rw [namedGroups, present]
      exact Pattern.increasing_names_of_parse (Program.parse_of_compile compiled)

theorem groupNumbers_cases (regex : Regex) (name : String) :
    Pattern.groupsNamed regex.namedGroups name ≠ []
        ∧ regex.groupNumbers name = .ok (Pattern.groupsNamed regex.namedGroups name)
      ∨ Pattern.groupsNamed regex.namedGroups name = []
        ∧ ∃ error, regex.groupNumbers name = .error error := by
  unfold groupNumbers namedGroups
  cases regex.program with
  | none => exact .inr ⟨rfl, _, rfl⟩
  | some program =>
      dsimp only [Option.elim]
      split
      · exact .inr ⟨List.isEmpty_iff.mp ‹_›, _, rfl⟩
      · rename_i some_
        exact .inl ⟨fun nothing => some_ (List.isEmpty_iff.mpr nothing), rfl⟩

end Regex

section Names

variable {regex : Regex}

theorem find?_groupsNamed (made : regex.Made) (captures : Captures) (name : String) :
    ((Pattern.groupsNamed regex.namedGroups name).find? fun number =>
        ((captures[number]?).join).isSome) =
      (Template.takingPart regex captures name).min? :=
  find?_eq_min? (made.increasing_groupsNamed name) _

theorem Template.spanOf_named (made : regex.Made) (captures : Captures) (name : String) :
    spanOf regex captures (.named name) = lowestSpan regex captures name := by
  rw [spanOf, lowestSpan]
  rcases regex.groupNumbers_cases name with ⟨_, listed⟩ | ⟨nothing, error, failed⟩
  · rw [listed]
    dsimp only
    rw [findSome?_eq_bind, find?_groupsNamed made]
  · rw [failed, takingPart, nothing]
    rfl

namespace Matcher

variable {matcher : Matcher}

/-- If a group of a name took part, the matcher selects the lowest one of these. -/
theorem namedGroup_of_min? (made : regex.Made) (bound : matcher.regex = some regex) {name : String}
    {number : Nat} (lowest : (Template.takingPart regex matcher.captures name).min? = some number) :
    matcher.namedGroup name = .ok number := by
  rw [namedGroup, bound]
  rcases regex.groupNumbers_cases name with ⟨_, listed⟩ | ⟨nothing, _⟩
  · have selected : (Pattern.groupsNamed regex.namedGroups name).find? matcher.isPresent =
        some number := (find?_groupsNamed made matcher.captures name).trans lowest
    dsimp only
    rw [listed]
    change Except.ok ((Option.orElse _ _).getD 0) = _
    rw [selected]
    rfl
  · rw [Template.takingPart, nothing] at lowest
    cases lowest

/-- If none did, the group that the matcher selects has no bytes. -/
theorem bytes_of_namedGroup (made : regex.Made) (bound : matcher.regex = some regex)
    {name : String} {number : Nat}
    (noneTook : (Template.takingPart regex matcher.captures name).min? = none)
    (selected : matcher.namedGroup name = .ok number) : matcher.bytes number = [] := by
  rw [namedGroup, bound] at selected
  rcases regex.groupNumbers_cases name with ⟨nonempty, listed⟩ | ⟨_, error, failed⟩
  · dsimp only at selected
    rw [listed] at selected
    change Except.ok ((Option.orElse _ _).getD 0) = _ at selected
    have absent : (Pattern.groupsNamed regex.namedGroups name).find? matcher.isPresent = none :=
      (find?_groupsNamed made matcher.captures name).trans noneTook
    rw [absent] at selected
    rcases List.exists_cons_of_ne_nil nonempty with ⟨first, later, shape⟩
    rw [shape] at selected absent
    cases selected
    have unset := List.find?_eq_none.mp absent first List.mem_cons_self
    rw [isPresent, Bool.not_eq_true, Option.isSome_eq_false_iff, Option.isNone_iff_eq_none] at unset
    change (matcher.span? first).elim [] _ = []
    rw [unset]
    rfl
  · dsimp only at selected
    rw [failed] at selected
    cases selected

theorem bytes_namedGroup (made : regex.Made) (bound : matcher.regex = some regex) (name : String) :
    (matcher.namedGroup name).toOption.elim [] matcher.bytes =
      (Template.lowestSpan regex matcher.captures name).elim [] (·.bytes matcher.subject) := by
  rw [Template.lowestSpan]
  cases lowest : (Template.takingPart regex matcher.captures name).min? with
  | none =>
      cases selected : matcher.namedGroup name with
      | error error => rfl
      | ok number => exact bytes_of_namedGroup made bound lowest selected
  | some number =>
      rw [namedGroup_of_min? made bound lowest]
      rfl

end Matcher

end Names

namespace Template

variable {regex : Regex}

theorem expand_pieces (made : regex.Made) (subject : Array UInt8) (captures : Captures)
    (token : Token) :
    expand token.pieces regex subject captures = token.meaning regex subject captures := by
  cases token with
  | literal bytes => exact expand_bytes regex subject captures bytes
  | numbered number => exact List.append_nil _
  | named name =>
      rw [Token.meaning, ← spanOf_named made]
      exact List.append_nil _

/-- A template that has been written from tokens expands to what these stand for. A name stands for
the group that a matcher selects by it. A text with its dollar signs doubled stands for itself. -/
theorem expand_parse_write (made : regex.Made) (subject : Array UInt8) :
    (∀ captures (tokens : List Token),
      expand (parse (tokens.flatMap Token.write)) regex subject captures =
        tokens.flatMap (Token.meaning regex subject captures))
      ∧ (∀ matcher : Matcher, matcher.regex = some regex → ∀ name,
        (∀ number, (takingPart regex matcher.captures name).min? = some number →
          matcher.namedGroup name = .ok number)
        ∧ (matcher.namedGroup name).toOption.elim [] matcher.bytes =
          (lowestSpan regex matcher.captures name).elim [] (·.bytes matcher.subject))
      ∧ ∀ text options,
        regex.replaceAllTemplate subject (parse (writeLiteral text)) options =
          regex.replaceAll subject text options := by
  refine ⟨fun captures tokens => ?_, fun matcher bound name => ?_, fun text options => ?_⟩
  · rw [parse_flatMap_write]
    induction tokens with
    | nil => rfl
    | cons token tokens induction =>
        rw [List.flatMap_cons, expand_append, expand_pieces made, induction, List.flatMap_cons]
  · exact ⟨fun number lowest => Matcher.namedGroup_of_min? made bound lowest,
      Matcher.bytes_namedGroup made bound name⟩
  · have read := parse_writeLiteral [] text
    rw [List.append_nil, parse, List.append_nil] at read
    rw [Regex.replaceAllTemplate, Regex.replaceAll, read]
    simp only [expand_bytes]

/-- The second of two groups called `n` took part. Its text stands between a text that looks like
the beginning of a reference and one that looks like the end of one. -/
theorem expand_parse_write_duplicates :
    ∃ regex, Regex.compile "(?J)(?<n>a)|(?<n>b)".toUTF8.toList {} = .ok regex
      ∧ expand
        (parse "$$1\x7b$\x7bn\x7d0\x7d$\x7b002\x7d$\x7b99999999999999999999\x7d".toUTF8.toList)
        regex "b".toUTF8.data [some ⟨0, 1⟩, none, some ⟨0, 1⟩] = "$1\x7bb0\x7db".toUTF8.toList := by
  have evaluated : ∃ program,
      Program.compile "(?J)(?<n>a)|(?<n>b)".toUTF8.toList {} = .ok program
      ∧ lowestSpan ⟨some program, none, {}⟩ [some ⟨0, 1⟩, none, some ⟨0, 1⟩] "n" = some ⟨0, 1⟩ :=
    exists_compiled (by decide +kernel)
  rcases evaluated with ⟨program, compiled, lowest⟩
  have made := Regex.compile_of_program compiled
  let name : Name := ⟨"n".toUTF8.toList, by decide +kernel, by decide +kernel⟩
  let tokens : List Token :=
    [.literal "$1\x7b".toUTF8.toList, .named name, .literal "0\x7d".toUTF8.toList,
      .numbered ⟨"002".toUTF8.toList, by decide +kernel, by decide +kernel⟩,
      .numbered ⟨"99999999999999999999".toUTF8.toList, by decide +kernel, by decide +kernel⟩]
  have written : tokens.flatMap Token.write =
      "$$1\x7b$\x7bn\x7d0\x7d$\x7b002\x7d$\x7b99999999999999999999\x7d".toUTF8.toList := by
    decide +kernel
  have stands : Token.meaning ⟨some program, none, {}⟩ "b".toUTF8.data
      [some ⟨0, 1⟩, none, some ⟨0, 1⟩] (.named name) = "b".toUTF8.toList := by
    have same : name.text = "n" := by decide +kernel
    rw [Token.meaning, same, lowest]
    decide +kernel
  refine ⟨_, made, ?_⟩
  rw [← written, (expand_parse_write (.compiled made) _).1 _ tokens]
  simp only [tokens, List.flatMap_cons, List.flatMap_nil, stands]
  simp only [Token.meaning]
  decide +kernel

end Template

end PerlRegex
