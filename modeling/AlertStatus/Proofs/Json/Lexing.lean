import AlertStatus.Json.Printer
import AlertStatus.Proofs.Json.Number

/-!
# The tokens of a written document

A written document is cut into the tokens it was meant as. The pass has one awkward place: a number
has no end of its own, so after the last digit the pass still stands inside it, and only the next
character (or the end of the text) turns it into a token. `Lexer.Rests` covers both ways to stand
after a value, and every character that may follow a value is shown to lead on from either.

The tokens are those of the document that is read back (`Json.reread`). It differs from the written
one in its binary numbers at most.
-/

set_option autoImplicit false

namespace AlertStatus

/-! ## 1. Documents and their tokens -/

namespace Json

mutual

/-- The members of each object stand in order of their names, and each binary number is finite. All
that a reader gives is sound, and what is sound is read back. -/
def Sound : Json → Prop
  | .null | .bool _ | .str _ => True
  | .num n => n.Sound
  | .arr items => SoundItems items
  | .obj members => (members.Pairwise fun a b => a.1 < b.1) ∧ SoundMembers members

/-- All documents of a list are sound. -/
def SoundItems : List Json → Prop
  | [] => True
  | v :: vs => Sound v ∧ SoundItems vs

/-- The values of all members are sound. -/
def SoundMembers : List (String × Json) → Prop
  | [] => True
  | (_, v) :: vs => Sound v ∧ SoundMembers vs

end

mutual

/-- The document that is read for a written one. -/
def reread : Json → Json
  | .null => .null
  | .bool b => .bool b
  | .num n => .num n.reread
  | .str s => .str s
  | .arr items => .arr (rereadItems items)
  | .obj members => .obj (rereadMembers members)

/-- The documents that are read for the items of a list. -/
def rereadItems : List Json → List Json
  | [] => []
  | v :: vs => reread v :: rereadItems vs

/-- The members that are read for those of an object. -/
def rereadMembers : List (String × Json) → List (String × Json)
  | [] => []
  | (k, v) :: vs => (k, reread v) :: rereadMembers vs

end

theorem rereadMembers_eq_map (ms : List (String × Json)) :
    rereadMembers ms = ms.map fun m => (m.1, m.2.reread) := by
  induction ms with
  | nil => rfl
  | cons m ms ih => exact congrArg (List.cons _) ih

mutual

/-- The tokens that a document is written with. -/
def tokens : Json → List Token
  | .null => [.null]
  | .bool b => [.bool b]
  | .num n => [.num (some n)]
  | .str s => [.str (some s)]
  | .arr items => .openList :: (itemTokens items ++ [.closeList])
  | .obj members => .openObject :: (memberTokens members ++ [.closeObject])

/-- The tokens of items with commas between them. -/
def itemTokens : List Json → List Token
  | [] => []
  | [v] => tokens v
  | v :: vs => tokens v ++ .comma :: itemTokens vs

/-- The tokens of members with commas between them. -/
def memberTokens : List (String × Json) → List Token
  | [] => []
  | [(k, v)] => .str (some k) :: .colon :: tokens v
  | (k, v) :: vs => .str (some k) :: .colon :: (tokens v ++ .comma :: memberTokens vs)

end

end Json

/-! ## 2. Quoted texts -/

theorem hexDigit?_hexDigit : ∀ d, d < 16 → hexDigit? (Json.hexDigit d) = some d := by decide

theorem TextUnit.join_chars (cs : List Char) : TextUnit.join (cs.map .char) = some cs := by
  induction cs with
  | nil => rfl
  | cons c cs ih =>
    rw [List.map_cons, join, ih]
    rfl

namespace Lexer

/-- One digit of a `\u` escape. -/
theorem step_unicode {c : Char} {d : Nat} (h : hexDigit? c = some d) (units : List TextUnit)
    (missing code : Nat) (found : List Token) :
    step ⟨.unicode units missing code, found⟩ c =
      if missing ≤ 1 then ⟨.text (TextUnit.ofCode (code * 16 + d) :: units), found⟩
      else ⟨.unicode units (missing - 1) (code * 16 + d), found⟩ := by
  rw [step]
  dsimp only
  rw [h]

/-- A character between quotes is read as itself, escaped or not. -/
theorem foldl_quoteChar (c : Char) (units : List TextUnit) (found : List Token) :
    (Json.quoteChar c).foldl step ⟨.text units, found⟩ = ⟨.text (.char c :: units), found⟩ := by
  unfold Json.quoteChar
  split
  · subst c; rfl
  split
  · subst c; rfl
  split
  · subst c; rfl
  split
  · subst c; rfl
  split
  · subst c; rfl
  split
  · subst c; rfl
  split
  · subst c; rfl
  split
  · -- A control character without a short form is four hexadecimal digits, the first two zero.
    rename_i hctl
    have hhi := hexDigit?_hexDigit (c.toNat / 16) (by omega)
    have hlo := hexDigit?_hexDigit (c.toNat % 16) (by omega)
    have hzero : hexDigit? '0' = some 0 := by decide
    have hcode : (((0 * 16 + 0) * 16 + 0) * 16 + c.toNat / 16) * 16 + c.toNat % 16 = c.toNat := by
      omega
    have hunit : TextUnit.ofCode c.toNat = .char c := by
      rw [TextUnit.ofCode, if_neg (by omega), Char.ofNat_toNat]
    show ['0', '0', Json.hexDigit (c.toNat / 16), Json.hexDigit (c.toNat % 16)].foldl step
      ⟨.unicode units 4 0, found⟩ = _
    rw [List.foldl_cons, step_unicode hzero, if_neg (by decide), List.foldl_cons, step_unicode hzero,
      if_neg (by decide), List.foldl_cons, step_unicode hhi, if_neg (by decide), List.foldl_cons,
      step_unicode hlo, if_pos (by decide), hcode, hunit]
    rfl
  · rename_i hquote hslash _ _ _ _ _ hctl
    rw [List.foldl_cons, List.foldl_nil, step]
    simp only [if_neg hquote, if_neg hslash, if_neg hctl]

theorem foldl_flatMap_quoteChar (cs : List Char) (units : List TextUnit) (found : List Token) :
    (cs.flatMap Json.quoteChar).foldl step ⟨.text units, found⟩ =
      ⟨.text ((cs.map .char).reverse ++ units), found⟩ := by
  induction cs generalizing units with
  | nil => rfl
  | cons c cs ih =>
    rw [List.flatMap_cons, List.foldl_append, foldl_quoteChar, ih, List.map_cons, List.reverse_cons,
      List.append_assoc]
    rfl

theorem foldl_quote (s : String) (found : List Token) :
    (Json.quote s).foldl step ⟨.between, found⟩ = ⟨.between, .str (some s) :: found⟩ := by
  rw [Json.quote, List.foldl_cons, List.foldl_append]
  show [('"' : Char)].foldl step ((s.toList.flatMap Json.quoteChar).foldl step ⟨.text [], found⟩) = _
  rw [foldl_flatMap_quoteChar, List.append_nil]
  show Lexer.emit ⟨_, found⟩ (textToken (s.toList.map .char).reverse) = _
  rw [textToken, List.reverse_reverse, TextUnit.join_chars, Option.map_some, String.ofList_toList]
  rfl

/-! ## 3. After a value -/

/-- The pass has found `found` once the number it may still stand in comes to its end. -/
inductive Rests : Lexer → List Token → Prop where
  | between (found : List Token) : Rests ⟨.between, found⟩ found
  | number (o : OpenNumeral) (found : List Token) (complete : o.part.complete = true) :
      Rests ⟨.number o, found⟩ (o.token :: found)

/-- A character that may follow a value: it is neither a digit nor part of a number. -/
def Follows (c : Char) : Prop := c = ',' ∨ c = ']' ∨ c = '}'

/-- **What follows a value ends its number, if it was one.** So the pass goes on as if it stood between
values, whichever value came before. -/
theorem Rests.step_eq {l : Lexer} {found : List Token} (h : Rests l found) {c : Char}
    (hc : Follows c) : l.step c = begin ⟨.between, found⟩ c := by
  cases h with
  | between => rfl
  | number o found complete =>
    have hdigit : decimalDigit? c = none := by
      rcases hc with rfl | rfl | rfl <;> decide
    have hpush : o.push? c = none := by
      unfold OpenNumeral.push?
      rw [hdigit]
      cases hp : o.part with
      | sign | point | markSign => rfl
      | mark =>
        rw [hp] at complete
        exact Bool.noConfusion complete
      | zero | whole | fraction | exponent => rcases hc with rfl | rfl | rfl <;> rfl
    have hends : o.endsBefore c = true := by
      unfold OpenNumeral.endsBefore
      rw [complete, hdigit, Option.isSome_none, Bool.and_false]
      rfl
    rw [step]
    dsimp only
    rw [hpush]
    dsimp only
    rw [if_pos hends]
    rfl

theorem Rests.step_comma {l : Lexer} {found : List Token} (h : Rests l found) :
    l.step ',' = ⟨.between, .comma :: found⟩ := h.step_eq (Or.inl rfl)

theorem Rests.step_closeList {l : Lexer} {found : List Token} (h : Rests l found) :
    l.step ']' = ⟨.between, .closeList :: found⟩ := h.step_eq (Or.inr (Or.inl rfl))

theorem Rests.step_closeObject {l : Lexer} {found : List Token} (h : Rests l found) :
    l.step '}' = ⟨.between, .closeObject :: found⟩ := h.step_eq (Or.inr (Or.inr rfl))

theorem Rests.finish_eq {l : Lexer} {found : List Token} (h : Rests l found) :
    l.finish = found.reverse := by
  cases h with
  | between => rfl
  | number o found complete =>
    rw [finish]
    dsimp only
    rw [if_pos complete]
    rfl

/-! ## 4. Numbers -/

/-- Inside a numeral the pass does what the numeral does. -/
theorem foldl_number {o o' : OpenNumeral} {cs : List Char} (found : List Token)
    (h : cs.foldlM OpenNumeral.push? o = some o') :
    cs.foldl step ⟨.number o, found⟩ = ⟨.number o', found⟩ := by
  induction cs generalizing o with
  | nil =>
    obtain rfl : o = o' := Option.some.inj h
    rfl
  | cons c cs ih =>
    rw [List.foldlM_cons, Option.bind_eq_bind, Option.bind_eq_some_iff] at h
    obtain ⟨o₁, ho, h⟩ := h
    rw [List.foldl_cons, step]
    dsimp only
    rw [ho]
    exact ih h

/-- The first digit of a number without a sign opens a numeral. -/
theorem begin_digit (found : List Token) : ∀ d, d < 10 →
    begin ⟨.between, found⟩ (Nat.digitChar d) =
      step ⟨.number (.signed false), found⟩ (Nat.digitChar d) := by
  intro d hd
  match d, hd with
  | 0, _ | 1, _ | 2, _ | 3, _ | 4, _ | 5, _ | 6, _ | 7, _ | 8, _ | 9, _ => rfl

/-- **A numeral is one token**, with a sign before it or without. It has to be legal (`h`), since the
pass does not read one such as `01`. -/
theorem rests_spell {n : Numeral} (h : n.Legal) (found : List Token) :
    Rests ((signedText n.negative n.spell).foldl step ⟨.between, found⟩) (.num n.value :: found) := by
  obtain ⟨o, hread, hcomplete, hclose⟩ := h.exists_read
  have htoken : o.token = .num n.value := by rw [OpenNumeral.token, hclose]
  have hopen : (signedText n.negative n.spell).foldl step ⟨.between, found⟩ =
      n.spell.foldl step ⟨.number (.signed n.negative), found⟩ := by
    cases n.negative with
    | true => rfl
    | false =>
      -- Without a sign the first digit opens the numeral.
      obtain ⟨d, cs, hd, hcs⟩ := h.exists_digitChar
      rw [hcs, signedText, if_neg Bool.false_ne_true, List.foldl_cons, List.foldl_cons,
        ← begin_digit found d hd]
      rfl
  rw [hopen, foldl_number found hread, ← htoken]
  exact Rests.number o found hcomplete

theorem rests_number {n : Number} (h : n.Sound) (found : List Token) :
    Rests (n.write.foldl step ⟨.between, found⟩) (.num (some n.reread) :: found) := by
  rw [n.write_eq, ← h.value_numeral.1]
  exact rests_spell h.legal_numeral found

/-! ## 5. Documents -/

mutual

/-- **A sound document is cut into the tokens of the document that is read.** The induction is on the
document, with its items and members beside it. What was found before is left open (`found`), as a part
of a document comes after other parts. -/
theorem rests_write : ∀ (v : Json), v.Sound → ∀ found : List Token,
    Rests (v.write.foldl step ⟨.between, found⟩) (v.reread.tokens.reverse ++ found)
  | .null, _, found => Rests.between (.null :: found)
  | .bool true, _, found => Rests.between (.bool true :: found)
  | .bool false, _, found => Rests.between (.bool false :: found)
  | .num n, h, found => by
    rw [Json.Sound] at h
    rw [Json.write, Json.reread, Json.tokens]
    exact rests_number h found
  | .str s, _, found => by
    rw [Json.write, foldl_quote]
    exact Rests.between _
  | .arr items, h, found => by
    rw [Json.Sound] at h
    rw [Json.write, List.foldl_cons, List.foldl_append]
    have hi := rests_writeItems items h (.openList :: found)
    show Rests (step ((Json.writeItems items).foldl step ⟨.between, .openList :: found⟩) ']') _
    rw [hi.step_closeList, Json.reread, Json.tokens]
    simpa using Rests.between (Token.closeList :: ((Json.itemTokens (Json.rereadItems items)).reverse ++
      (.openList :: found)))
  | .obj members, h, found => by
    rw [Json.Sound] at h
    rw [Json.write, List.foldl_cons, List.foldl_append]
    have hm := rests_writeMembers members h.2 (.openObject :: found)
    show Rests (step ((Json.writeMembers members).foldl step
      ⟨.between, .openObject :: found⟩) '}') _
    rw [hm.step_closeObject, Json.reread, Json.tokens]
    simpa using Rests.between (Token.closeObject ::
      ((Json.memberTokens (Json.rereadMembers members)).reverse ++
      (.openObject :: found)))

theorem rests_writeItems : ∀ (vs : List Json), Json.SoundItems vs → ∀ found : List Token,
    Rests ((Json.writeItems vs).foldl step ⟨.between, found⟩)
      ((Json.itemTokens (Json.rereadItems vs)).reverse ++ found)
  | [], _, found => Rests.between found
  | [v], h, found => by
    rw [Json.SoundItems] at h
    rw [Json.writeItems]
    exact rests_write v h.1 found
  | v :: w :: vs, h, found => by
    rw [Json.SoundItems] at h
    rw [Json.writeItems, List.foldl_append, List.foldl_cons, (rests_write v h.1 found).step_comma]
    · have := rests_writeItems (w :: vs) h.2 (.comma :: (v.reread.tokens.reverse ++ found))
      simpa [Json.rereadItems, Json.itemTokens] using this
    · simp

theorem rests_writeMembers : ∀ (ms : List (String × Json)), Json.SoundMembers ms →
    ∀ found : List Token, Rests ((Json.writeMembers ms).foldl step ⟨.between, found⟩)
      ((Json.memberTokens (Json.rereadMembers ms)).reverse ++ found)
  | [], _, found => Rests.between found
  | [(k, v)], h, found => by
    rw [Json.SoundMembers] at h
    rw [Json.writeMembers, List.foldl_append, foldl_quote, List.foldl_cons]
    show Rests (v.write.foldl step ⟨.between, .colon :: .str (some k) :: found⟩) _
    have := rests_write v h.1 (.colon :: .str (some k) :: found)
    simpa [Json.rereadMembers, Json.memberTokens] using this
  | (k, v) :: m :: ms, h, found => by
    rw [Json.SoundMembers] at h
    rw [Json.writeMembers, List.foldl_append, foldl_quote, List.foldl_cons, List.foldl_append,
      List.foldl_cons]
    · have hv := rests_write v h.1 (.colon :: .str (some k) :: found)
      show Rests ((Json.writeMembers (m :: ms)).foldl step (step (v.write.foldl step
        ⟨.between, .colon :: .str (some k) :: found⟩) ',')) _
      rw [hv.step_comma]
      have := rests_writeMembers (m :: ms) h.2
        (.comma :: (v.reread.tokens.reverse ++ (.colon :: .str (some k) :: found)))
      simpa [Json.rereadMembers, Json.memberTokens] using this
    · simp

end

end Lexer

theorem tokens_write {v : Json} (h : v.Sound) : AlertStatus.tokens v.write = v.reread.tokens := by
  have := (Lexer.rests_write v h []).finish_eq
  rw [List.append_nil, List.reverse_reverse] at this
  exact this

end AlertStatus
