import PerlRegex.Lines
import PerlRegex.Pattern.Reader
import PerlRegex.Pattern.Verb
import PerlRegex.Utf8.Text
namespace PerlRegex

/-! A pattern that has been read: its tree, in which references are resolved to the numbers of
groups, its groups, and the options in effect. -/

structure Pattern where
  tree : Node (List Nat)
  captures : Nat
  /-- The names of groups with their numbers, in the order of the pattern. -/
  names : List (String × Nat)
  options : CompileOptions
  lineRules : LineRules

namespace Pattern

/-! ## Resolving references -/

def groupsNamed (names : List (String × Nat)) (name : String) : List Nat :=
  (names.filter fun (candidate, _) => candidate == name).map (·.2)

def groupsOf (names : List (String × Nat)) : Reference → List Nat
  | .number group _ => [group]
  | .name name _ => groupsNamed names name

def missingNumber? (captures : Nat) : Reference → Option Nat
  | .number group offset => if captures < group then some offset else none
  | .name _ _ => none

def missingName? (names : List (String × Nat)) : Reference → Option Nat
  | .number _ _ => none
  | .name name offset => if (groupsNamed names name).isEmpty then some offset else none

/-- Replace every reference by the groups it may stand for. References by number are checked before
references by name. -/
def resolve (state : State) (tree : Tree) : Reading (Node (List Nat)) :=
  let missing :=
    tree.references.findSome? (missingNumber? state.captures)
      <|> tree.references.findSome? (missingName? state.names)
  match missing with
  | some offset => refuse .unknownGroupReference offset
  | none => .ok (tree.mapReferences (groupsOf state.names))

/-! ## Options -/

/-- The line rules that the options ask for. Options that cannot be reconciled are reported at the
beginning of the pattern. -/
def lineRulesOf (options : CompileOptions) : Reading LineRules :=
  if options.utf8 && options.neverUtf then refuseFor .utfDisabled 0
  else match options.newline?, options.lineBreaks? with
    | none, _ => refuse .inconsistentOptions 0
    | some _, none => refuseFor .lineBreaksInconsistent 0
    | some newline, some lineBreaks => .ok ⟨newline, lineBreaks, options.utf8⟩

def settingsOf (options : CompileOptions) : Settings where
  utf8 := options.utf8
  dollarEndOnly := options.dollarEndOnly
  noAutoCapture := options.noAutoCapture
  extra := options.extra

/-! ## Whole patterns -/

def checkUtf8 (options : CompileOptions) (text : List UInt8) : Reading Unit :=
  if options.utf8 && !options.noUtf8Check then
    match Utf8.invalidOffset? text with
    | some offset => refuse .invalidUtf8 offset
    | none => .ok ()
  else .ok ()

def parse (text : List UInt8) (requested : CompileOptions) : Reading Pattern :=
  match text.findIdx? (· == 0) with
  | some offset => refuse .nulByteInPattern offset
  | none => do
      let (options, bodyOffset) ← readVerbs requested text 0
      let lineRules ← lineRulesOf options
      checkUtf8 options text
      let state ← readPieces (settingsOf options) (.start (.ofOptions options))
        (text.drop bodyOffset) bodyOffset
      let tree ← resolve state (← state.finish)
      return ⟨tree, state.captures, state.names, options, lineRules⟩

end Pattern

end PerlRegex
