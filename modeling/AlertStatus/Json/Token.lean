import AlertStatus.Json.Number

/-!
# Tokens of documents

A document text is cut into tokens by one pass over its characters. Two kinds of fault are told apart.
A token that is not well formed ends the pass with `Token.broken`. A text or a number that is well
formed but denotes nothing (an unpaired surrogate, a number too large) is a token without a value:
whoever needs the value refuses it, whoever skips it does not mind.
-/

set_option autoImplicit false

namespace AlertStatus

/-- One part of a quoted text: a character, or half of a surrogate pair from an escape. -/
inductive TextUnit where
  | char (c : Char)
  | half (code : Nat)
deriving DecidableEq

inductive Token where
  | openObject
  | closeObject
  | openList
  | closeList
  | colon
  | comma
  | null
  | bool (b : Bool)
  | num (n : Option Number)
  | str (s : Option String)
  | broken
deriving DecidableEq

/-! ## Quoted texts -/

namespace TextUnit

/-- What a `\u` escape with the given code stands for. -/
def ofCode (code : Nat) : TextUnit :=
  if 0xD800 ≤ code ∧ code ≤ 0xDFFF then .half code else .char (Char.ofNat code)

/-- The characters of a quoted text, when its halves form pairs. -/
def join : List TextUnit → Option (List Char)
  | [] => some []
  | .char c :: rest => (join rest).map (c :: ·)
  | .half h :: .half l :: rest =>
    if h < 0xDC00 ∧ 0xDC00 ≤ l then
      (join rest).map (Char.ofNat (0x10000 + (h - 0xD800) * 0x400 + (l - 0xDC00)) :: ·)
    else none
  | .half _ :: _ => none

/-- The character that a backslash and `c` stand for. -/
def ofEscape? : Char → Option Char
  | '"' => some '"'
  | '\\' => some '\\'
  | '/' => some '/'
  | 'b' => some '\x08'
  | 'f' => some '\x0c'
  | 'n' => some '\n'
  | 'r' => some '\r'
  | 't' => some '\t'
  | _ => none

end TextUnit

def hexDigit? (c : Char) : Option Nat :=
  if '0' ≤ c ∧ c ≤ '9' then some (c.toNat - 48)
  else if 'a' ≤ c ∧ c ≤ 'f' then some (c.toNat - 87)
  else if 'A' ≤ c ∧ c ≤ 'F' then some (c.toNat - 55)
  else none

def decimalDigit? (c : Char) : Option Nat :=
  if '0' ≤ c ∧ c ≤ '9' then some (c.toNat - 48) else none

/-! ## Numerals -/

/-- How far a numeral has been read. -/
inductive NumeralPart where
  | sign
  | zero
  | whole
  | point
  | fraction
  | mark
  | markSign
  | exponent
deriving DecidableEq

namespace NumeralPart

/-- Whether a numeral may end here. -/
def complete : NumeralPart → Bool
  | .zero | .whole | .fraction | .exponent => true
  | .sign | .point | .mark | .markSign => false

end NumeralPart

/-- A numeral while it is read. The digits stand in reverse order. -/
structure OpenNumeral where
  part : NumeralPart
  negative : Bool
  whole : List Nat
  fraction : List Nat
  exponentNegative : Bool
  exponent : List Nat
deriving DecidableEq

namespace OpenNumeral

/-- A numeral of which only the sign is read. -/
def signed (negative : Bool) : OpenNumeral := ⟨.sign, negative, [], [], false, []⟩

/-- The numeral with one more character, or `none` when the character does not continue it. -/
def push? (n : OpenNumeral) (c : Char) : Option OpenNumeral :=
  match n.part, decimalDigit? c with
  | .sign, some 0 => some { n with part := .zero, whole := [0] }
  | .sign, some d => some { n with part := .whole, whole := [d] }
  | .whole, some d => some { n with whole := d :: n.whole }
  | .point, some d | .fraction, some d => some { n with part := .fraction, fraction := d :: n.fraction }
  | .mark, some d | .markSign, some d | .exponent, some d =>
    some { n with part := .exponent, exponent := d :: n.exponent }
  | .zero, none | .whole, none =>
    if c = '.' then some { n with part := .point }
    else if c = 'e' ∨ c = 'E' then some { n with part := .mark }
    else none
  | .fraction, none => if c = 'e' ∨ c = 'E' then some { n with part := .mark } else none
  | .mark, none =>
    if c = '+' then some { n with part := .markSign }
    else if c = '-' then some { n with part := .markSign, exponentNegative := true }
    else none
  | _, _ => none

/-- Whether the numeral may end before `c`. A digit after a leading zero is refused. -/
def endsBefore (n : OpenNumeral) (c : Char) : Bool :=
  n.part.complete && !(n.part = .zero && (decimalDigit? c).isSome)

def close (n : OpenNumeral) : Numeral where
  negative := n.negative
  whole := n.whole.reverse
  fraction := n.fraction.reverse
  exponent := if n.part = .exponent then some (n.exponentNegative, n.exponent.reverse) else none

def token (n : OpenNumeral) : Token := .num n.close.value

end OpenNumeral

/-! ## The pass -/

/-- Where the pass stands: between tokens, inside one, or stopped for good. -/
inductive LexerMode where
  | between
  | word (rest : List Char) (token : Token)
  | text (units : List TextUnit)
  | escape (units : List TextUnit)
  | unicode (units : List TextUnit) (missing : Nat) (code : Nat)
  | number (n : OpenNumeral)
  | stopped
deriving DecidableEq

/-- The state of the pass: its mode and the tokens found, latest first. -/
structure Lexer where
  mode : LexerMode
  found : List Token
deriving DecidableEq

namespace Lexer

def start : Lexer := ⟨.between, []⟩

/-- Adds a token and stands between tokens. -/
def emit (l : Lexer) (t : Token) : Lexer := ⟨.between, t :: l.found⟩

/-- Gives up on the text. -/
def fail (l : Lexer) : Lexer := ⟨.stopped, .broken :: l.found⟩

/-- The text token with the given units, latest first. -/
def textToken (units : List TextUnit) : Token :=
  .str ((TextUnit.join units.reverse).map String.ofList)

/-- Takes the first character of a token, or a blank. -/
def begin (l : Lexer) (c : Char) : Lexer :=
  match c with
  | ' ' | '\t' | '\n' | '\r' => { l with mode := .between }
  | '{' => l.emit .openObject
  | '}' => l.emit .closeObject
  | '[' => l.emit .openList
  | ']' => l.emit .closeList
  | ':' => l.emit .colon
  | ',' => l.emit .comma
  | '"' => { l with mode := .text [] }
  | 'n' => { l with mode := .word ['u', 'l', 'l'] .null }
  | 't' => { l with mode := .word ['r', 'u', 'e'] (.bool true) }
  | 'f' => { l with mode := .word ['a', 'l', 's', 'e'] (.bool false) }
  | '-' => { l with mode := .number (.signed true) }
  | c =>
    match (OpenNumeral.signed false).push? c with
    | some n => { l with mode := .number n }
    | none => l.fail

def step (l : Lexer) (c : Char) : Lexer :=
  match l.mode with
  | .between => l.begin c
  | .word rest t =>
    match rest with
    | [] => l.fail
    | d :: ds =>
      if c = d then if ds.isEmpty then l.emit t else { l with mode := .word ds t } else l.fail
  | .text units =>
    if c = '"' then l.emit (textToken units)
    else if c = '\\' then { l with mode := .escape units }
    else if c.toNat < 0x20 then l.fail
    else { l with mode := .text (.char c :: units) }
  | .escape units =>
    if c = 'u' then { l with mode := .unicode units 4 0 }
    else
      match TextUnit.ofEscape? c with
      | some d => { l with mode := .text (.char d :: units) }
      | none => l.fail
  | .unicode units missing code =>
    match hexDigit? c with
    | none => l.fail
    | some d =>
      if missing ≤ 1 then { l with mode := .text (TextUnit.ofCode (code * 16 + d) :: units) }
      else { l with mode := .unicode units (missing - 1) (code * 16 + d) }
  | .number n =>
    match n.push? c with
    | some n' => { l with mode := .number n' }
    | none => if n.endsBefore c then (l.emit n.token).begin c else l.fail
  | .stopped => l

/-- The tokens when the text ends here, in order. -/
def finish (l : Lexer) : List Token :=
  match l.mode with
  | .between | .stopped => l.found.reverse
  | .number n => if n.part.complete then (l.emit n.token).found.reverse else l.fail.found.reverse
  | _ => l.fail.found.reverse

end Lexer

/-- The tokens of a text. A text that is not made of tokens ends with `Token.broken`. -/
def tokens (text : List Char) : List Token := (text.foldl Lexer.step Lexer.start).finish

end AlertStatus
