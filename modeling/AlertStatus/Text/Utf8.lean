/-!
# Decoding UTF-8 that may be wrong

Bytes are decoded one at a time. Where they stop being a character, the longest part that could still
have become one is replaced by U+FFFD, and decoding goes on with the byte that did not fit.
-/

set_option autoImplicit false

namespace AlertStatus

/-- The first bytes of a character: how many bytes are missing, the range of the next one, and the
bits gathered. -/
structure PartialChar where
  missing : Nat
  low : Nat
  high : Nat
  bits : Nat
deriving DecidableEq

/-- A decoder: the character that is open, if one is, and the characters found, latest first. -/
structure Utf8Decoder where
  pending : Option PartialChar
  found : List Char
deriving DecidableEq

namespace Utf8Decoder

/-- The character that stands for bytes that are no character. -/
def replacement : Char := Char.ofNat 0xFFFD

/-- What the first byte of a character of several bytes asks for. -/
def lead? (b : Nat) : Option PartialChar :=
  if 0xC2 ≤ b ∧ b ≤ 0xDF then some ⟨1, 0x80, 0xBF, b - 0xC0⟩
  else if b = 0xE0 then some ⟨2, 0xA0, 0xBF, 0⟩
  else if b = 0xED then some ⟨2, 0x80, 0x9F, 0xD⟩
  else if 0xE1 ≤ b ∧ b ≤ 0xEF then some ⟨2, 0x80, 0xBF, b - 0xE0⟩
  else if b = 0xF0 then some ⟨3, 0x90, 0xBF, 0⟩
  else if b = 0xF4 then some ⟨3, 0x80, 0x8F, 4⟩
  else if 0xF1 ≤ b ∧ b ≤ 0xF3 then some ⟨3, 0x80, 0xBF, b - 0xF0⟩
  else none

/-- Takes the first byte of a character. -/
def begin (d : Utf8Decoder) (b : Nat) : Utf8Decoder :=
  if b < 0x80 then ⟨none, Char.ofNat b :: d.found⟩
  else
    match lead? b with
    | some p => ⟨some p, d.found⟩
    | none => ⟨none, replacement :: d.found⟩

def step (d : Utf8Decoder) (b : Nat) : Utf8Decoder :=
  match d.pending with
  | none => d.begin b
  | some p =>
    if p.low ≤ b ∧ b ≤ p.high then
      let bits := p.bits * 64 + (b - 0x80)
      if p.missing ≤ 1 then ⟨none, Char.ofNat bits :: d.found⟩
      else ⟨some ⟨p.missing - 1, 0x80, 0xBF, bits⟩, d.found⟩
    else begin ⟨none, replacement :: d.found⟩ b

/-- The characters when no byte is left. -/
def finish (d : Utf8Decoder) : List Char :=
  match d.pending with
  | none => d.found.reverse
  | some _ => (replacement :: d.found).reverse

end Utf8Decoder

/-- The text of bytes, with U+FFFD where they are no text. -/
def decodeUtf8 (bytes : List Nat) : String :=
  String.ofList (bytes.foldl Utf8Decoder.step ⟨none, []⟩).finish

def encodeUtf8 (s : String) : List Nat := s.toUTF8.toList.map UInt8.toNat

end AlertStatus
