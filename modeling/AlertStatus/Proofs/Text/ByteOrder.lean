import AlertStatus.Data.SortedMap
import AlertStatus.Text.Utf8

/-!
# The order of texts is the order of their bytes

Maps are sorted by the order of texts, which compares characters. A store in tables compares bytes.
The two orders are one: of two characters the smaller one has the smaller byte at the first place
where their bytes differ, and there is such a place, since the bytes of no character begin those of
another.
-/

set_option autoImplicit false

namespace AlertStatus

/-! ## 1. Bytes of a text -/

theorem ByteArray.toList_loop (bs : ByteArray) (i : Nat) (r : List UInt8) :
    ByteArray.toList.loop bs i r = r.reverse ++ bs.data.toList.drop i := by
  induction i, r using ByteArray.toList.loop.induct bs with
  | case1 i r hi ih =>
    have hi' : i < bs.data.toList.length := hi
    have hget : bs.get! i = bs.data.toList[i] := by
      show bs.data[i]! = _
      rw [getElem!_pos bs.data i hi]
      rfl
    unfold ByteArray.toList.loop
    rw [if_pos hi, ih, List.drop_eq_getElem_cons hi', hget, List.reverse_cons, List.append_assoc]
    rfl
  | case2 i r hi =>
    unfold ByteArray.toList.loop
    rw [if_neg hi, List.drop_eq_nil_of_le (Nat.not_lt.mp hi), List.append_nil]

/-- The bytes of a character. -/
def charBytes (c : Char) : List Nat := (String.utf8EncodeChar c).map UInt8.toNat

theorem encodeUtf8_eq (s : String) : encodeUtf8 s = s.toList.flatMap charBytes := by
  have hbytes : s.toUTF8.toList = s.toList.flatMap String.utf8EncodeChar := by
    show ByteArray.toList.loop s.toByteArray 0 [] = _
    rw [ByteArray.toList_loop, ← String.utf8Encode_toList, List.utf8Encode,
      List.toList_data_toByteArray]
    rfl
  rw [encodeUtf8, hbytes, List.map_flatMap]
  rfl

/-! ## 2. Bytes of a character -/

/-- The lists part at some place, and the first one goes on smaller there. -/
def PartsBelow (a b : List Nat) : Prop :=
  ∃ l x y as bs, a = l ++ x :: as ∧ b = l ++ y :: bs ∧ x < y

theorem PartsBelow.append_lt {a b : List Nat} (h : PartsBelow a b) (u v : List Nat) :
    a ++ u < b ++ v := by
  obtain ⟨l, x, y, as, bs, rfl, rfl, hxy⟩ := h
  rw [List.append_assoc, List.append_assoc]
  exact List.append_left_lt (List.cons_lt_cons_iff.mpr (Or.inl hxy))

theorem PartsBelow.cons {a b : List Nat} {x y : Nat} (hxy : x ≤ y)
    (h : x = y → PartsBelow a b) : PartsBelow (x :: a) (y :: b) := by
  rcases Nat.lt_or_eq_of_le hxy with hlt | rfl
  · exact ⟨[], x, y, a, b, rfl, rfl, hlt⟩
  · obtain ⟨l, u, v, as, bs, rfl, rfl, huv⟩ := h rfl
    exact ⟨x :: l, u, v, as, bs, rfl, rfl, huv⟩

theorem PartsBelow.of_lt {a b : List Nat} {x y : Nat} (h : x < y) :
    PartsBelow (x :: a) (y :: b) := ⟨[], x, y, a, b, rfl, rfl, h⟩

/-- The bytes of a code point, as numbers. -/
def codeBytes (v : Nat) : List Nat :=
  if v ≤ 0x7f then [v]
  else if v ≤ 0x7ff then [v / 64 + 0xc0, v % 64 + 0x80]
  else if v ≤ 0xffff then [v / 4096 + 0xe0, v / 64 % 64 + 0x80, v % 64 + 0x80]
  else [v / 262144 + 0xf0, v / 4096 % 64 + 0x80, v / 64 % 64 + 0x80, v % 64 + 0x80]

theorem charBytes_eq (c : Char) : charBytes c = codeBytes c.val.toNat := by
  have hmax : c.val.toNat < 0x110000 := by
    rcases c.valid with h | h
    · exact Nat.lt_trans h (by decide)
    · exact h.2
  unfold charBytes String.utf8EncodeChar codeBytes
  dsimp only
  generalize c.val.toNat = v at hmax
  split
  · rw [List.map_cons, UInt8.toNat_ofNat', Nat.mod_eq_of_lt (by omega)]
    rfl
  split
  · simp only [List.map_cons, List.map_nil, UInt8.toNat_ofNat', List.cons.injEq, and_true]
    exact ⟨by omega, by omega⟩
  split
  · simp only [List.map_cons, List.map_nil, UInt8.toNat_ofNat', List.cons.injEq, and_true]
    exact ⟨by omega, by omega, by omega⟩
  · simp only [List.map_cons, List.map_nil, UInt8.toNat_ofNat', List.cons.injEq, and_true]
    exact ⟨by omega, by omega, by omega, by omega⟩

theorem codeBytes_ne_nil (v : Nat) : codeBytes v ≠ [] := by
  unfold codeBytes
  split
  · exact List.cons_ne_nil _ _
  split
  · exact List.cons_ne_nil _ _
  split
  · exact List.cons_ne_nil _ _
  · exact List.cons_ne_nil _ _

/-- **The bytes of a smaller code point part below those of a larger one**: the first byte grows with
the number of bytes, and with one number of bytes they are digits of the code point. The larger one is
a code point (`hw`), so four bytes are enough. -/
theorem partsBelow_codeBytes {v w : Nat} (h : v < w) (hw : w < 0x110000) :
    PartsBelow (codeBytes v) (codeBytes w) := by
  unfold codeBytes
  split
  · split
    · exact .of_lt h
    · split
      · exact .of_lt (by omega)
      · split
        · exact .of_lt (by omega)
        · exact .of_lt (by omega)
  · rw [if_neg (show ¬ w ≤ 0x7f by omega)]
    split
    · split
      · exact .cons (by omega) fun _ => .of_lt (by omega)
      · split
        · exact .of_lt (by omega)
        · exact .of_lt (by omega)
    · rw [if_neg (show ¬ w ≤ 0x7ff by omega)]
      split
      · split
        · exact .cons (by omega) fun _ => .cons (by omega) fun _ => .of_lt (by omega)
        · exact .of_lt (by omega)
      · rw [if_neg (show ¬ w ≤ 0xffff by omega)]
        exact .cons (by omega) fun _ => .cons (by omega) fun _ => .cons (by omega) fun _ =>
          .of_lt (by omega)

/-! ## 3. Bytes of texts -/

theorem flatMap_charBytes_lt {cs ds : List Char} (h : cs < ds) :
    cs.flatMap charBytes < ds.flatMap charBytes := by
  induction cs generalizing ds with
  | nil =>
    cases ds with
    | nil => exact absurd h (List.lt_irrefl _)
    | cons d ds =>
      obtain ⟨b, bs, hb⟩ := List.exists_cons_of_ne_nil (codeBytes_ne_nil d.val.toNat)
      rw [List.flatMap_nil, List.flatMap_cons, charBytes_eq, hb]
      exact List.nil_lt_cons _ _
  | cons c cs ih =>
    cases ds with
    | nil => exact absurd h (List.not_lt_nil _)
    | cons d ds =>
      rw [List.flatMap_cons, List.flatMap_cons]
      rcases List.cons_lt_cons_iff.mp h with hcd | ⟨rfl, hrest⟩
      · refine PartsBelow.append_lt ?_ _ _
        rw [charBytes_eq, charBytes_eq]
        refine partsBelow_codeBytes hcd ?_
        rcases d.valid with h | h
        · exact Nat.lt_trans h (by decide)
        · exact h.2
      · exact List.append_left_lt (ih hrest)

/-- **Smaller texts have smaller bytes.** So maps in memory, which compare characters, and tables,
which compare bytes, go through their entries in one order. -/
theorem encodeUtf8_lt {s t : String} (h : s < t) : encodeUtf8 s < encodeUtf8 t := by
  rw [encodeUtf8_eq, encodeUtf8_eq]
  exact flatMap_charBytes_lt h

/-- Of two texts that differ one has the smaller bytes. -/
theorem eq_of_not_encodeUtf8_lt {s t : String} (h : ¬ encodeUtf8 s < encodeUtf8 t)
    (h' : ¬ encodeUtf8 t < encodeUtf8 s) : s = t := by
  refine Decidable.byContradiction fun hne => ?_
  by_cases hlt : s < t
  · exact h (encodeUtf8_lt hlt)
  · exact h' (encodeUtf8_lt (SortedMap.lt_of_not_lt_of_ne hlt hne))

end AlertStatus
