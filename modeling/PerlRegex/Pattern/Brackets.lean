import PerlRegex.Pattern.Escape
namespace PerlRegex.Pattern

/-! Bracketed classes. Inside brackets a member is a character, a set of characters, or a mark that
turns quoting on or off. A dash between two characters makes a range. -/

inductive BracketMember where
  | character (character : Nat)
  | item (item : CharSetItem)
  /-- `\Q` and `\E`. -/
  | quoting (on : Bool)

/-! ## Members -/

def beforeClosingPair (delimiter : Char) : List UInt8 → Option Nat
  | [] => none
  | byte :: rest =>
      if Char.ofUInt8 byte == delimiter && startsWith rest ']' then some 0
      else (beforeClosingPair delimiter rest).map (· + 1)

/-- What an opening bracket inside brackets stands for: a POSIX class if it begins one, and itself
otherwise. `offset` is that of the bracket and `rest` follows it. -/
def readPosixClass (rest : List UInt8) (offset : Nat) : Reading (BracketMember × Nat) :=
  let plainBracket : Reading (BracketMember × Nat) := .ok (.character 0x5B, 0)
  match rest with
  | [] => plainBracket
  | delimiterByte :: inside =>
      let delimiter := Char.ofUInt8 delimiterByte
      if delimiter != ':' && delimiter != '.' && delimiter != '=' then plainBracket
      else match beforeClosingPair delimiter inside with
        | none => plainBracket
        | some length =>
            if delimiter != ':' then refuseFor (.unsupported .collatingElement) offset
            else
              let content := inside.take length
              let negated := startsWith content '^'
              let name := if negated then content.tail else content
              match PosixClass.ofName? (Ascii.text name) with
              | none => refuse .unknownPosixClass offset
              | some kind => .ok (.item (.posix kind negated), length + 3)

def readBracketEscape (settings : Settings) (text : List UInt8) (offset : Nat) :
    Reading (BracketMember × Nat) :=
  match text with
  | [] => refuse .trailingEscape offset
  | byte :: rest =>
      match Char.ofUInt8 byte with
      | 'b' => .ok (.character 0x08, 1)
      | 'Q' => .ok (.quoting true, 1)
      | 'E' => .ok (.quoting false, 1)
      | 'p' | 'P' => do
          let (item, used) ← readProperty (Char.ofUInt8 byte == 'P') rest (offset + 1)
          return (.item item, used + 1)
      | '8' | '9' => .ok (.character byte.toNat, 1)
      | 'N' | 'R' | 'X' | 'B' | 'A' | 'z' | 'Z' | 'G' | 'g' | 'k' =>
          refuseFor .escapeInBrackets offset
      | letter =>
          match escapeClass? letter with
          | some (kind, negated) => .ok (.item (.escape kind negated), 1)
          | none =>
              if Ascii.isDigit byte.toNat && letter != '0' then do
                let (value, used) := readDigits 8 3 text
                return (.character (← checkCharacter settings value offset), used)
              else do
                let (character, used) ← readCharacterEscape settings byte rest offset
                return (.character character, used + 1)

/-- One member. Its first byte is `byte`, at `offset`, and the length read does not count it. -/
def readMember (settings : Settings) (quoted : Bool) (byte : UInt8) (rest : List UInt8)
    (offset : Nat) : Reading (BracketMember × Nat) :=
  let plainCharacter : Reading (BracketMember × Nat) :=
    let (character, following) := readCharacter settings byte rest
    .ok (.character character, following)
  if quoted then
    if Char.ofUInt8 byte == '\\' && startsWith rest 'E' then .ok (.quoting false, 1)
    else plainCharacter
  else match Char.ofUInt8 byte with
    | '[' => readPosixClass rest offset
    | '\\' => readBracketEscape settings rest (offset + 1)
    | _ => plainCharacter

/-! ## Classes -/

/-- What has been read of a class: whether the next member is the first one, whether quoting is on,
and the items, latest first. -/
structure BracketState where
  first : Bool
  quoted : Bool
  items : List CharSetItem

namespace BracketState

def start : BracketState where
  first := true
  quoted := false
  items := []

def addItems (state : BracketState) (items : List CharSetItem) : BracketState where
  first := false
  quoted := state.quoted
  items := items.reverse ++ state.items

def setQuoted (state : BracketState) (quoted : Bool) : BracketState where
  first := false
  quoted := quoted
  items := state.items

def addCharacter (state : BracketState) (character : Nat) : BracketState :=
  state.addItems [.range character character]

/-- Take the member behind a dash. A character closes the range, anything else leaves the dash to
stand for itself. `stop` is the offset behind the member. -/
def addRange (state : BracketState) (low : Nat) (upper : BracketMember) (stop : Nat) :
    Reading BracketState :=
  let separate := (state.addCharacter low).addCharacter 0x2D
  match upper with
  | .character high =>
      if high < low then refuse .rangeOutOfOrder stop
      else .ok (state.addItems [.range low high])
  | .item item => .ok (separate.addItems [item])
  | .quoting on => .ok (separate.setQuoted on)

end BracketState

def dashMakesRange (quoted : Bool) : List UInt8 → Bool
  | dash :: next :: _ =>
      Char.ofUInt8 dash == '-' && Char.ofUInt8 next != ']' && !quoted
  | _ => false

def readMembers (settings : Settings) (state : BracketState) (text : List UInt8)
    (offset : Nat) : Reading (List CharSetItem × Nat) :=
  match text with
  | [] => refuse .unterminatedClass offset
  | byte :: rest =>
      if Char.ofUInt8 byte == ']' && !state.first && !state.quoted then
        .ok (state.items.reverse, offset + 1)
      else
        match readMember settings state.quoted byte rest offset with
        | .error failure => .error failure
        | .ok (.item item, following) =>
            readMembers settings (state.addItems [item]) (rest.drop following)
              (offset + 1 + following)
        | .ok (.quoting on, following) =>
            readMembers settings (state.setQuoted on) (rest.drop following)
              (offset + 1 + following)
        | .ok (.character low, following) =>
            if dashMakesRange state.quoted (rest.drop following) then
              match rest.drop (following + 1) with
              | [] => refuse .unterminatedClass (offset + 1 + following + 1)
              | upperByte :: upperRest =>
                  let upperOffset := offset + 1 + following + 1
                  match readMember settings state.quoted upperByte upperRest upperOffset with
                  | .error failure => .error failure
                  | .ok (upper, upperFollowing) =>
                      let stop := upperOffset + 1 + upperFollowing
                      match state.addRange low upper stop with
                      | .error failure => .error failure
                      | .ok next =>
                          readMembers settings next
                            (rest.drop (following + 2 + upperFollowing)) stop
            else
              readMembers settings (state.addCharacter low) (rest.drop following)
                (offset + 1 + following)
termination_by text.length
decreasing_by all_goals simp only [List.length_drop, List.length_cons]; omega

def readBrackets (settings : Settings) (caseless : Bool) (text : List UInt8) (offset : Nat) :
    Reading (CharSet × Nat) := do
  let negated := startsWith text '^'
  let signLength := if negated then 1 else 0
  let (items, stop) ←
    readMembers settings .start (text.drop signLength) (offset + signLength)
  return (⟨negated, caseless, items⟩, stop - offset)

end PerlRegex.Pattern
