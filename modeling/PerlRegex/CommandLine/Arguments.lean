import PerlRegex.Ascii
import PerlRegex.CommandLine.Request
namespace PerlRegex.CommandLine

/-! Arguments are read one after the other. An argument is a command, a switch, the value of a
switch, or an operand. Switches that every command has may stand in front of the command or behind
it, and may be given once in either place. After two hyphens all arguments are operands. -/

/-! ## Switches -/

inductive Switch where
  | format
  | caseless
  | multiline
  | dotAll
  | extended
  | utf8
  | study
  | maxMatches
  | soft
  | hard
  | anchored
  | notEmpty
  | template
  | help
  | version
  deriving DecidableEq, Repr

namespace Switch

def name : Switch → String
  | format => "format"
  | caseless => "caseless"
  | multiline => "multiline"
  | dotAll => "dotall"
  | extended => "extended"
  | utf8 => "utf8"
  | study => "study"
  | maxMatches => "max-matches"
  | soft => "soft"
  | hard => "hard"
  | anchored => "anchored"
  | notEmpty => "notempty"
  | template => "template"
  | help => "help"
  | version => "version"

def letter? : Switch → Option Char
  | format => some 'f'
  | caseless => some 'i'
  | multiline => some 'm'
  | dotAll => some 's'
  | extended => some 'x'
  | utf8 => some 'u'
  | template => some 't'
  | help => some 'h'
  | version => some 'V'
  | study | maxMatches | soft | hard | anchored | notEmpty => none

def takesValue : Switch → Bool
  | format | maxMatches => true
  | _ => false

def everywhere : List Switch := [format, caseless, multiline, dotAll, extended, utf8, study, help]

end Switch

/-! ## Values of switches -/

def Format.ofName? (name : String) : Option Format :=
  if name = "json" then some .json
  else if name = "text" then some .text
  else none

/-- The number that decimal digits write, if 64 bits can hold it. A plus sign may stand in front of
them. -/
def countOf? (text : String) : Option Nat :=
  let digits :=
    match text.toList with
    | '+' :: digits => digits
    | digits => digits
  if digits.isEmpty || !digits.all (fun digit => Ascii.isDigit digit.toNat) then none
  else
    let value := digits.foldl (fun value digit => value * 10 + (digit.toNat - 0x30)) 0
    if value ≤ 0xFFFFFFFFFFFFFFFF then some value else none

example : countOf? "+12" = some 12 := by decide
example : countOf? "+" = none := by decide

def Switch.accepts (switch : Switch) (value : String) : Bool :=
  match switch with
  | format => (Format.ofName? value).isSome
  | maxMatches => (countOf? value).isSome
  | _ => true

/-! ## Commands -/

inductive CommandName where
  | test
  | exec
  | replace
  | validate
  deriving DecidableEq, Repr

namespace CommandName

def ofArgument? (argument : String) : Option CommandName :=
  if argument = "test" then some test
  else if argument = "exec" then some exec
  else if argument = "replace" then some replace
  else if argument = "validate" then some validate
  else none

def switches : CommandName → List Switch
  | test => [.maxMatches]
  | exec => [.soft, .hard, .anchored, .notEmpty]
  | replace => [.template]
  | validate => []

def mostOperands : CommandName → Nat
  | test | exec => 2
  | replace => 3
  | validate => 1

end CommandName

/-! ## Reading -/

/-- Switches with their values. A switch that takes no value has the empty one. -/
abbrev Settings := List (Switch × String)

structure Arguments where
  command : Option CommandName
  /-- The switches in front of the command. -/
  early : Settings
  /-- The switches behind the command, or all switches as long as there is no command. -/
  settings : Settings
  operands : List String
  /-- The switch whose value comes next. -/
  awaiting : Option Switch
  /-- Whether only operands can follow. -/
  literal : Bool

/-- What a reading of arguments leads to, where anything but a task ends it at once. -/
abbrev ArgumentReading := Except Request

namespace Arguments

def start : Arguments where
  command := none
  early := []
  settings := []
  operands := []
  awaiting := none
  literal := false

def switches (arguments : Arguments) : List Switch :=
  Switch.everywhere ++ arguments.command.elim [.version] CommandName.switches

def give (arguments : Arguments) (switch : Switch) (value : String) :
    ArgumentReading Arguments :=
  if switch = .help then .error .help
  else if switch = .version then .error .version
  else if (arguments.settings.lookup switch).isSome || !switch.accepts value then .error .misuse
  else .ok { arguments with
    settings := (switch, value) :: arguments.settings
    awaiting := none }

def addOperand (arguments : Arguments) (operand : String) : ArgumentReading Arguments :=
  match arguments.command with
  | none =>
      match CommandName.ofArgument? operand with
      | some command =>
          if arguments.literal then .error .misuse
          else .ok { arguments with
            command := some command
            early := arguments.settings
            settings := [] }
      | none => .error .misuse
  | some command =>
      if arguments.operands.length < command.mostOperands then
        .ok { arguments with operands := arguments.operands ++ [operand] }
      else .error .misuse

/-- Take letters that stand behind one hyphen. The rest of the letters, if there is any, is the
value of a letter that takes one, with or without an equals sign in front of it. -/
def addLetters (arguments : Arguments) : List Char → ArgumentReading Arguments
  | [] => .ok arguments
  | letter :: rest =>
      match arguments.switches.find? fun switch => switch.letter? == some letter with
      | none => .error .misuse
      | some switch =>
          if !switch.takesValue then do (← arguments.give switch "").addLetters rest
          else
            match rest with
            | [] => .ok { arguments with awaiting := some switch }
            | '=' :: value => arguments.give switch (String.ofList value)
            | value => arguments.give switch (String.ofList value)

def addName (arguments : Arguments) (text : List Char) : ArgumentReading Arguments :=
  let name := String.ofList (text.takeWhile (· != '='))
  match arguments.switches.find? fun switch => switch.name == name with
  | none => .error .misuse
  | some switch =>
      match text.dropWhile (· != '='), switch.takesValue with
      | [], false => arguments.give switch ""
      | [], true => .ok { arguments with awaiting := some switch }
      | _ :: value, true => arguments.give switch (String.ofList value)
      | _ :: _, false => .error .misuse

/-- Take the next argument. A value that is given on its own does not look like a switch. A hyphen
alone does not either. -/
def add (arguments : Arguments) (argument : String) : ArgumentReading Arguments :=
  if arguments.literal then arguments.addOperand argument
  else
    match argument.toList, arguments.awaiting with
    | '-' :: _ :: _, some _ => .error .misuse
    | ['-', '-'], none => .ok { arguments with literal := true }
    | '-' :: '-' :: text, none => arguments.addName text
    | '-' :: letter :: letters, none => arguments.addLetters (letter :: letters)
    | _, some switch => arguments.give switch argument
    | _, none => arguments.addOperand argument

/-! ## Requests -/

def has (arguments : Arguments) (switch : Switch) : Bool :=
  (arguments.settings ++ arguments.early).any fun (given, _) => given == switch

/-- The value of a switch. Behind the command counts more than in front of it. -/
def value? (arguments : Arguments) (switch : Switch) : Option String :=
  (arguments.settings ++ arguments.early).lookup switch

def compileOptions (arguments : Arguments) : CompileOptions where
  caseless := arguments.has .caseless
  multiline := arguments.has .multiline
  dotAll := arguments.has .dotAll
  extended := arguments.has .extended
  utf8 := arguments.has .utf8

def matchOptions (arguments : Arguments) : MatchOptions where
  partialSoft := arguments.has .soft
  partialHard := arguments.has .hard
  anchored := arguments.has .anchored
  notEmpty := arguments.has .notEmpty

def defaultMost : Nat := 100

/-- The task that a command and its operands describe, if no operand is missing. The two kinds of
partial matching exclude each other. -/
def task? (arguments : Arguments) (command : CommandName) : Option Task :=
  match command, arguments.operands with
  | .test, pattern :: subject =>
      some (.test pattern subject.head?
        ((arguments.value? .maxMatches).bind countOf? |>.getD defaultMost))
  | .exec, pattern :: subject =>
      if arguments.has .soft && arguments.has .hard then none
      else some (.exec pattern subject.head? arguments.matchOptions)
  | .replace, pattern :: replacement :: subject =>
      some (.replace pattern replacement subject.head? (arguments.has .template))
  | .validate, [pattern] => some (.validate pattern)
  | _, _ => none

def request (arguments : Arguments) : Request :=
  if arguments.awaiting.isSome then .misuse
  else
    match arguments.command with
    | none => .commandList
    | some command =>
        match arguments.task? command with
        | none => .misuse
        | some task => .carryOut {
            format := (arguments.value? .format).bind Format.ofName? |>.getD .json
            options := arguments.compileOptions
            study := arguments.has .study
            task := task }

end Arguments

def Request.ofArguments (arguments : List String) : Request :=
  match arguments.foldlM Arguments.add Arguments.start with
  | .ok arguments => arguments.request
  | .error request => request

end PerlRegex.CommandLine
