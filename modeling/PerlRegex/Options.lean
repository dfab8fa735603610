namespace PerlRegex

/-! How a pattern is to be read, how it is to be run, and what a study of it is for. -/

/-! ## Conventions about lines -/

/-- What ends a line for `^`, `$`, `.` and `\N`. -/
inductive Newline where
  | cr
  | lf
  | crLf
  | any
  | anyCrLf
  deriving DecidableEq, Repr, Inhabited

/-- What `\R` matches: the CR, LF and CRLF of old, or every line break of Unicode. -/
inductive LineBreaks where
  | anyCrLf
  | unicode
  deriving DecidableEq, Repr, Inhabited

/-! ## Partial matching -/

/-- Whether a match cut off by the end of the subject is reported, and whether it is reported
only for want of a full match (`soft`) or as soon as it is seen (`hard`). -/
inductive PartialMode where
  | none
  | soft
  | hard
  deriving DecidableEq, Repr, Inhabited

/-! ## Option sets

An option set is a record of switches, all off by default. The number that stands for a set in
an interface is the sum of the bits of its switches. -/

def sumOfBits (switches : List (Bool × Nat)) : Nat :=
  switches.foldr (fun (on, exponent) total => if on then (1 <<< exponent) + total else total) 0

/-- Options given when a pattern is compiled. The three `newline` switches and the two
`lineBreak` switches are read together, see `newline?` and `lineBreaks?`. -/
structure CompileOptions where
  caseless : Bool := false
  multiline : Bool := false
  dotAll : Bool := false
  extended : Bool := false
  anchored : Bool := false
  dollarEndOnly : Bool := false
  extra : Bool := false
  ungreedy : Bool := false
  utf8 : Bool := false
  noAutoCapture : Bool := false
  noUtf8Check : Bool := false
  neverUtf : Bool := false
  firstLine : Bool := false
  duplicateNames : Bool := false
  newlineCr : Bool := false
  newlineLf : Bool := false
  newlineAny : Bool := false
  lineBreakAnyCrLf : Bool := false
  lineBreakUnicode : Bool := false
  javascriptCompat : Bool := false
  noStartOptimize : Bool := false
  ucp : Bool := false
  deriving DecidableEq, Repr, Inhabited

namespace CompileOptions

def bits (options : CompileOptions) : Nat :=
  sumOfBits [
    (options.caseless, 0), (options.multiline, 1), (options.dotAll, 2), (options.extended, 3),
    (options.anchored, 4), (options.dollarEndOnly, 5), (options.extra, 6), (options.ungreedy, 9),
    (options.utf8, 11), (options.noAutoCapture, 12), (options.noUtf8Check, 13),
    (options.neverUtf, 16), (options.firstLine, 18), (options.duplicateNames, 19),
    (options.newlineCr, 20), (options.newlineLf, 21), (options.newlineAny, 22),
    (options.lineBreakAnyCrLf, 23), (options.lineBreakUnicode, 24),
    (options.javascriptCompat, 25), (options.noStartOptimize, 26), (options.ucp, 29)]

def newline? (options : CompileOptions) : Option Newline :=
  match options.newlineCr, options.newlineLf, options.newlineAny with
  | false, false, false => some .lf
  | true, false, false => some .cr
  | false, true, false => some .lf
  | true, true, false => some .crLf
  | false, false, true => some .any
  | true, false, true => some .anyCrLf
  | _, true, true => none

def withNewline (options : CompileOptions) (newline : Newline) : CompileOptions :=
  let (cr, lf, any) := match newline with
    | .cr => (true, false, false)
    | .lf => (false, true, false)
    | .crLf => (true, true, false)
    | .any => (false, false, true)
    | .anyCrLf => (true, false, true)
  { options with newlineCr := cr, newlineLf := lf, newlineAny := any }

@[simp] theorem newline?_withNewline (options : CompileOptions) (newline : Newline) :
    (options.withNewline newline).newline? = some newline := by
  cases newline <;> rfl

def lineBreaks? (options : CompileOptions) : Option LineBreaks :=
  match options.lineBreakAnyCrLf, options.lineBreakUnicode with
  | true, true => none
  | true, false => some .anyCrLf
  | false, _ => some .unicode

def withLineBreaks (options : CompileOptions) (lineBreaks : LineBreaks) : CompileOptions :=
  { options with
    lineBreakAnyCrLf := lineBreaks == .anyCrLf
    lineBreakUnicode := lineBreaks == .unicode }

@[simp] theorem lineBreaks?_withLineBreaks (options : CompileOptions) (lineBreaks : LineBreaks) :
    (options.withLineBreaks lineBreaks).lineBreaks? = some lineBreaks := by
  cases lineBreaks <;> rfl

example : ({ newlineCr := true, newlineLf := true } : CompileOptions).bits = 0x300000 := by decide

end CompileOptions

structure MatchOptions where
  anchored : Bool := false
  notBol : Bool := false
  notEol : Bool := false
  notEmpty : Bool := false
  noUtf8Check : Bool := false
  partialSoft : Bool := false
  noStartOptimize : Bool := false
  partialHard : Bool := false
  notEmptyAtStart : Bool := false
  deriving DecidableEq, Repr, Inhabited

namespace MatchOptions

def bits (options : MatchOptions) : Nat :=
  sumOfBits [
    (options.anchored, 4), (options.notBol, 7), (options.notEol, 8), (options.notEmpty, 10),
    (options.noUtf8Check, 13), (options.partialSoft, 15), (options.noStartOptimize, 26),
    (options.partialHard, 27), (options.notEmptyAtStart, 28)]

def partialMode (options : MatchOptions) : PartialMode :=
  if options.partialHard then .hard
  else if options.partialSoft then .soft
  else .none

end MatchOptions

structure StudyOptions where
  compile : Bool := false
  partialSoft : Bool := false
  partialHard : Bool := false
  deriving DecidableEq, Repr, Inhabited

namespace StudyOptions

def bits (options : StudyOptions) : Nat :=
  sumOfBits [(options.compile, 0), (options.partialSoft, 1), (options.partialHard, 2)]

def partialMode? (options : StudyOptions) : Option PartialMode :=
  match options.partialSoft, options.partialHard with
  | true, true => none
  | true, false => some .soft
  | false, true => some .hard
  | false, false => some .none

end StudyOptions

/-! ## Budgets -/

/-- The budgets of one execution: how many instructions it may run in all, and how many
backtrack frames it may hold at once. -/
structure Limits where
  instructions : Nat := 10000000
  frames : Nat := 1000000
  deriving DecidableEq, Repr, Inhabited

end PerlRegex
