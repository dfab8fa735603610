namespace PerlRegex

/-! What can go wrong, as causes. The words for a cause and its number follow from it. -/

/-! ## Faults of a pattern

A pattern is refused for one cause, at one byte offset. Causes fall into kinds. Most kinds have a
single cause, and the others have a usual one beside the special ones. -/

inductive CompileErrorKind where
  | nulByteInPattern
  | trailingEscape
  | unterminatedGroup
  | unmatchedParenthesis
  | unterminatedClass
  | rangeOutOfOrder
  | invalidClassRange
  | nothingToRepeat
  | quantifierTooBig
  | quantifierOutOfOrder
  | unknownGroupReference
  | duplicateGroupName
  | invalidGroupName
  | lookbehindNotFixedLength
  | invalidUtf8
  | unknownEscape
  | invalidEscape
  | unknownPosixClass
  | unknownProperty
  | unrecognizedGroupSyntax
  | unsupported
  | patternTooLarge
  | nestingTooDeep
  | inconsistentOptions
  deriving DecidableEq, Repr

namespace CompileErrorKind

def name : CompileErrorKind → String
  | nulByteInPattern => "NulByteInPattern"
  | trailingEscape => "TrailingEscape"
  | unterminatedGroup => "UnterminatedGroup"
  | unmatchedParenthesis => "UnmatchedParenthesis"
  | unterminatedClass => "UnterminatedClass"
  | rangeOutOfOrder => "RangeOutOfOrder"
  | invalidClassRange => "InvalidClassRange"
  | nothingToRepeat => "NothingToRepeat"
  | quantifierTooBig => "QuantifierTooBig"
  | quantifierOutOfOrder => "QuantifierOutOfOrder"
  | unknownGroupReference => "UnknownGroupReference"
  | duplicateGroupName => "DuplicateGroupName"
  | invalidGroupName => "InvalidGroupName"
  | lookbehindNotFixedLength => "LookbehindNotFixedLength"
  | invalidUtf8 => "InvalidUtf8"
  | unknownEscape => "UnknownEscape"
  | invalidEscape => "InvalidEscape"
  | unknownPosixClass => "UnknownPosixClass"
  | unknownProperty => "UnknownProperty"
  | unrecognizedGroupSyntax => "UnrecognizedGroupSyntax"
  | unsupported => "Unsupported"
  | patternTooLarge => "PatternTooLarge"
  | nestingTooDeep => "NestingTooDeep"
  | inconsistentOptions => "InconsistentOptions"

def message : CompileErrorKind → String
  | nulByteInPattern => "NUL byte in pattern"
  | trailingEscape => "\\ at end of pattern"
  | unterminatedGroup => "missing )"
  | unmatchedParenthesis => "unmatched parentheses"
  | unterminatedClass => "missing terminating ] for character class"
  | rangeOutOfOrder => "range out of order in character class"
  | invalidClassRange => "invalid range in character class"
  | nothingToRepeat => "nothing to repeat"
  | quantifierTooBig => "number too big in \x7b\x7d quantifier"
  | quantifierOutOfOrder => "numbers out of order in \x7b\x7d quantifier"
  | unknownGroupReference => "reference to non-existent subpattern"
  | duplicateGroupName => "two named subpatterns have the same name"
  | invalidGroupName => "syntax error in subpattern name (missing terminator)"
  | lookbehindNotFixedLength => "lookbehind assertion is not fixed length"
  | invalidUtf8 => "invalid UTF-8 string"
  | unknownEscape => "unrecognized character follows \\"
  | invalidEscape => "malformed escape sequence"
  | unknownPosixClass => "unknown POSIX class name"
  | unknownProperty => "unknown property name after \\P or \\p"
  | unrecognizedGroupSyntax => "unrecognized character after (? or (?-"
  | unsupported => "construct is not supported"
  | patternTooLarge => "regular expression is too large"
  | nestingTooDeep => "parentheses are too deeply nested"
  | inconsistentOptions => "inconsistent NEWLINE options"

end CompileErrorKind

/-- Constructs of Perl patterns that are recognised in order to be refused. -/
inductive UnsupportedConstruct where
  | verb
  | recursion
  | subroutineCall
  | branchReset
  | conditional
  | callout
  | collatingElement
  | escape (letter : Char)
  deriving DecidableEq, Repr

def UnsupportedConstruct.message : UnsupportedConstruct → String
  | verb => "(*VERB) not recognized or malformed"
  | recursion => "recursion and subroutine calls are not supported"
  | subroutineCall => "subroutine calls are not supported"
  | branchReset => "branch reset groups are not supported"
  | conditional => "conditional groups are not supported"
  | callout => "callouts are not supported"
  | collatingElement => "POSIX collating elements are not supported"
  | escape letter => "\\" ++ letter.toString ++ " is not supported"

inductive CompileFault where
  /-- The cause that gives a kind its name. -/
  | usual (kind : CompileErrorKind)
  | unsupported (construct : UnsupportedConstruct)
  /-- UTF-8 mode is wanted and forbidden. -/
  | utfDisabled
  | lineBreaksInconsistent
  | unterminatedComment
  | nameStartsWithDigit
  | nameTooLong
  | malformedProperty
  | zeroReference
  | missingReferenceName
  | characterTooLarge
  | surrogateCharacter
  | controlAtEnd
  | controlNotAscii
  | escapeInBrackets
  deriving DecidableEq, Repr

namespace CompileFault

def kind : CompileFault → CompileErrorKind
  | usual kind => kind
  | unsupported _ => .unsupported
  | utfDisabled | lineBreaksInconsistent => .inconsistentOptions
  | unterminatedComment => .unterminatedGroup
  | nameStartsWithDigit | nameTooLong => .invalidGroupName
  | malformedProperty => .unknownProperty
  | zeroReference | missingReferenceName | characterTooLarge | surrogateCharacter
  | controlNotAscii | escapeInBrackets => .invalidEscape
  | controlAtEnd => .trailingEscape

def message : CompileFault → String
  | usual kind => kind.message
  | unsupported construct => construct.message
  | utfDisabled => "setting UTF is disabled by the application"
  | lineBreaksInconsistent => "inconsistent BSR options"
  | unterminatedComment => "missing ) after comment"
  | nameStartsWithDigit => "group name must start with a non-digit"
  | nameTooLong => "subpattern name is too long (maximum 32 characters)"
  | malformedProperty => "malformed \\P or \\p sequence"
  | zeroReference => "a numbered reference must not be zero"
  | missingReferenceName => "\\k is not followed by a braced, angle-bracketed, or quoted name"
  | characterTooLarge => "character value in \\x\x7b\x7d or \\o\x7b\x7d is too large"
  | surrogateCharacter => "disallowed Unicode code point (>= 0xd800 && <= 0xdfff)"
  | controlAtEnd => "\\c at end of pattern"
  | controlNotAscii => "\\c must be followed by an ASCII character"
  | escapeInBrackets => "escape sequence is invalid in character class"

end CompileFault

structure CompileError where
  fault : CompileFault
  offset : Nat
  pattern : String
  deriving DecidableEq, Repr

namespace CompileError

def kind (error : CompileError) : CompileErrorKind := error.fault.kind

def message (error : CompileError) : String := error.fault.message

def display (error : CompileError) : String :=
  error.pattern ++ " (" ++ toString error.offset ++ "): " ++ error.message

end CompileError

/-! ## Failures of an execution

Every failure has a negative result code. Several of the codes are reserved for engines with other
facilities and arise from no execution here. -/

inductive ExecError where
  | null
  | badOption
  | badMagic
  | unknownOpcode
  | unknownNode (slot : Nat)
  | noMemory
  | unknownGroupName (name : String)
  | matchLimit
  | callout
  | badUtf8 (offset : Nat)
  | badUtf8Offset (offset : Nat)
  | partialNotAllowed
  | badPartial
  | recursionLimit
  | internal
  | badCount
  | jitStackLimit
  deriving DecidableEq, Repr

def codeNoMatch : Int := -1

def codePartial : Int := -12

namespace ExecError

def code : ExecError → Int
  | null => -2
  | badOption => -3
  | badMagic => -4
  | unknownOpcode | unknownNode _ => -5
  | noMemory => -6
  | unknownGroupName _ => -7
  | matchLimit => -8
  | callout => -9
  | badUtf8 _ => -10
  | badUtf8Offset _ => -11
  | partialNotAllowed => codePartial
  | badPartial => -13
  | internal => -14
  | badCount => -15
  | recursionLimit => -21
  | jitStackLimit => -27

def message : ExecError → String
  | null => "pattern has been released"
  | badOption => "bad option combination"
  | badMagic => "compiled pattern data is corrupted"
  | unknownOpcode => "unknown instruction in compiled pattern"
  | unknownNode slot => "capture slot " ++ toString slot ++ " is out of range"
  | noMemory => "out of memory"
  | unknownGroupName name => "no such named group: " ++ name
  | matchLimit => "match limit exceeded"
  | callout => "callout failed"
  | badUtf8 offset => "invalid UTF-8 in subject at offset " ++ toString offset
  | badUtf8Offset offset =>
      "start offset " ++ toString offset ++ " is not at a UTF-8 character boundary"
  | partialNotAllowed => "partial match found where partial matching is not allowed"
  | badPartial => "partial matching is not supported for this pattern"
  | recursionLimit => "recursion limit exceeded"
  | internal => "internal engine error"
  | badCount => "bad capture count"
  | jitStackLimit => "JIT stack limit exceeded"

end ExecError

/-! ## Failures of a study -/

inductive StudyError where
  | released
  | conflictingModes
  deriving DecidableEq, Repr

def StudyError.message : StudyError → String
  | released => "pattern has been released"
  | conflictingModes => "more than one partial mode requested"

end PerlRegex
