import AlertStatus.Proofs.Text.ByteOrder
import AlertStatus.Status.Table
import Mathlib.Data.List.Basic
import Mathlib.Data.List.Induction

/-!
# Names, codes and rules of a status table

A table is gone through once, in order of the names, and each code is registered under the name that it
is found with. Where a code had a name already, the new one takes its place and the code is noted, if it
is the first. So nothing in the index tells that it is the inverse of the table. It is one when no code
was noted (`CodeIndex.name?_eq_some_iff`), and a code is noted exactly when a smaller name has it too
(`CodeIndex.duplicate_foldl`).

Rules are found by name. A look-up by code goes through the index and one of a record through its code,
so where the index has a name the three agree. The path of a rule says its status with the group in
front or without it (`Status.ofRulePath?_eq_some_iff`).
-/

set_option autoImplicit false

namespace AlertStatus

/-! ## 1. Paths of rules -/

namespace Status

variable {path : String} {s : Status}

theorem ofRulePath?_eq_some_iff_name : ofRulePath? path = some s ↔ s.name = ruleName path := by
  constructor
  · intro h
    have hfound := List.find?_some h
    exact of_decide_eq_true hfound
  · intro h
    rw [ofRulePath?, ← h]
    cases s <;> decide

/-- No name of a status begins with the group. -/
theorem isPrefixOf?_name (s : Status) : ruleGroup.toList.isPrefixOf? s.name.toList = none := by
  cases s <;> decide

/-- **A path leads to the rule of a status** when it is the name of the status, with the group in front
of it once or not at all. A group that stands there twice is taken away once, and what is left names
nothing. -/
theorem ofRulePath?_eq_some_iff :
    ofRulePath? path = some s ↔ path = s.name ∨ path = ruleGroup ++ s.name := by
  rw [ofRulePath?_eq_some_iff_name, ruleName]
  cases hpath : ruleGroup.toList.isPrefixOf? path.toList with
  | none =>
    have hbare (name : String) : path ≠ ruleGroup ++ name := by
      rintro rfl
      have hsome : ruleGroup.toList.isPrefixOf? (ruleGroup ++ name).toList = some name.toList := by
        rw [List.isPrefixOf?_eq_some_iff_append_eq, String.toList_append]
      rw [hsome] at hpath
      cases hpath
    exact ⟨fun h => Or.inl h.symm, fun h => (h.resolve_right (hbare _)).symm⟩
  | some rest =>
    have hgroup : path = ruleGroup ++ .ofList rest := by
      refine String.toList_injective ?_
      rw [String.toList_append, String.toList_ofList]
      exact (List.isPrefixOf?_eq_some_iff_append_eq.mp hpath).symm
    have hnot : path ≠ s.name := by
      rintro rfl
      rw [isPrefixOf?_name] at hpath
      cases hpath
    dsimp only
    rw [or_iff_right hnot, hgroup, String.append_right_inj]
    exact eq_comm

example : ofRulePath? "statusmanager.statusmanager.off" = none := by decide

end Status

/-! ## 2. The index -/

namespace CodeIndex

variable {l : List (String × TableEntry)} {e : String × TableEntry} {name : String} {c : Code}

/-- The name is registered with the code. -/
def Registers (l : List (String × TableEntry)) (name : String) (c : Code) : Prop :=
  ∃ e, (name, e) ∈ l ∧ e.code = some c

/-- The name is registered with a code that a smaller name is registered with too, in the order of
their bytes. -/
def Repeats (l : List (String × TableEntry)) (name : String) (c : Code) : Prop :=
  Registers l name c ∧ ∃ before, encodeUtf8 before < encodeUtf8 name ∧ Registers l before c

/-- The name is the smallest one that is registered with a code of a smaller name. -/
structure RepeatsFirst (l : List (String × TableEntry)) (name : String) (c : Code) : Prop where
  repeats : Repeats l name c
  first : ∀ before d, encodeUtf8 before < encodeUtf8 name → ¬ Repeats l before d

theorem registers_concat : Registers (l ++ [e]) name c ↔
    Registers l name c ∨ name = e.1 ∧ e.2.code = some c := by
  unfold Registers
  constructor
  · rintro ⟨d, hd, hc⟩
    rcases List.mem_append.mp hd with hd | hd
    · exact Or.inl ⟨d, hd, hc⟩
    · obtain rfl := List.mem_singleton.mp hd
      exact Or.inr ⟨rfl, hc⟩
  · rintro (⟨d, hd, hc⟩ | ⟨rfl, hc⟩)
    · exact ⟨d, List.mem_append_left _ hd, hc⟩
    · exact ⟨e.2, List.mem_append_right _ (List.mem_singleton.mpr rfl), hc⟩

/-! ### One entry -/

theorem name?_add (x : CodeIndex) (e : String × TableEntry) (c : Code) :
    (x.add e).name? c = if e.2.code = some c then some e.1 else x.name? c := by
  unfold add
  cases hcode : e.2.code with
  | none => rfl
  | some d =>
    show ((d, e.1) :: x.names).lookup c = _
    rw [List.lookup_cons]
    by_cases hd : c = d
    · rw [hd, beq_self_eq_true, if_pos rfl]
    · rw [beq_eq_false_iff_ne.mpr hd, if_neg fun h => hd (Option.some.inj h).symm]
      rfl

/-- The code of an entry is noted when it has a name and none was noted before. -/
theorem duplicate_add (x : CodeIndex) (e : String × TableEntry) :
    (x.add e).duplicate = x.duplicate.or (e.2.code.filter fun c => (x.name? c).isSome) := by
  unfold add
  cases hcode : e.2.code with
  | none => exact Option.or_none.symm
  | some c =>
    show (if _ then _ else _) = _
    cases hname : (x.name? c).isSome <;> cases hdup : x.duplicate <;> simp [Option.filter, hname]

/-! ### All entries -/

/-- The name that the index has for a code is registered with it. -/
theorem registers_of_name? (h : (l.foldl add empty).name? c = some name) : Registers l name c := by
  induction l using List.reverseRecOn with
  | nil => cases h
  | append_singleton l e ih =>
    rw [List.foldl_concat, name?_add] at h
    rw [registers_concat]
    split at h
    · rename_i hcode
      exact Or.inr ⟨(Option.some.inj h).symm, hcode⟩
    · exact Or.inl (ih h)

/-- A code that is registered has a name in the index. -/
theorem isSome_name? (h : Registers l name c) : ((l.foldl add empty).name? c).isSome = true := by
  induction l using List.reverseRecOn with
  | nil =>
    obtain ⟨e, he, -⟩ := h
    cases he
  | append_singleton l e ih =>
    rw [List.foldl_concat, name?_add]
    split
    · rfl
    · rename_i hcode
      exact ih ((registers_concat.mp h).resolve_right fun hlast => hcode hlast.2)

section Sorted

variable (hl : (l ++ [e]).Pairwise fun a b => a.1 < b.1)

include hl

theorem lt_last (h : Registers l name c) : encodeUtf8 name < encodeUtf8 e.1 := by
  obtain ⟨d, hd, -⟩ := h
  exact encodeUtf8_lt ((List.pairwise_append.mp hl).2.2 _ hd _ (List.mem_singleton.mpr rfl))

/-- The last entry has no name that is smaller than another one, so it makes none of them repeat. -/
theorem repeats_concat : Repeats (l ++ [e]) name c ↔
    Repeats l name c ∨ name = e.1 ∧ e.2.code = some c ∧ ∃ before, Registers l before c := by
  constructor
  · rintro ⟨hname, before, hlt, hbefore⟩
    rcases registers_concat.mp hname with hname | ⟨rfl, hcode⟩
    · rcases registers_concat.mp hbefore with hbefore | ⟨rfl, -⟩
      · exact Or.inl ⟨hname, before, hlt, hbefore⟩
      · exact absurd (lt_last hl hname) (List.lt_asymm hlt)
    · rcases registers_concat.mp hbefore with hbefore | ⟨rfl, -⟩
      · exact Or.inr ⟨rfl, hcode, before, hbefore⟩
      · exact absurd hlt (List.lt_irrefl _)
  · rintro (⟨hname, before, hlt, hbefore⟩ | ⟨rfl, hcode, before, hbefore⟩)
    · exact ⟨registers_concat.mpr (Or.inl hname), before, hlt, registers_concat.mpr (Or.inl hbefore)⟩
    · exact ⟨registers_concat.mpr (Or.inr ⟨rfl, hcode⟩), before, lt_last hl hbefore,
        registers_concat.mpr (Or.inl hbefore)⟩

end Sorted

/-- **What is noted**: nothing when no name repeats a code, and else the code of the first that does.
The entries have to be in order of their names (`hl`), as those of every map are, for the first in the
list to be the smallest. -/
theorem duplicate_foldl (hl : l.Pairwise fun a b => a.1 < b.1) :
    (l.foldl add empty).duplicate = none ∧ (∀ name c, ¬ Repeats l name c) ∨
      ∃ name c, (l.foldl add empty).duplicate = some c ∧ RepeatsFirst l name c := by
  -- From the end of the list: the last name is the largest, so it can only come after a first repetition.
  induction l using List.reverseRecOn with
  | nil =>
    refine Or.inl ⟨rfl, ?_⟩
    rintro name c ⟨⟨e, he, -⟩, -⟩
    cases he
  | append_singleton l e ih =>
    rw [List.foldl_concat, duplicate_add]
    rcases ih (List.pairwise_append.mp hl).1 with ⟨hnone, hl₀⟩ | ⟨name, c, hsome, hfirst⟩
    · rw [hnone, Option.none_or]
      cases hlast : e.2.code.filter fun c => ((l.foldl add empty).name? c).isSome with
      | none =>
        refine Or.inl ⟨rfl, fun name c h => ?_⟩
        rcases (repeats_concat hl).mp h with h | ⟨-, hcode, before, hbefore⟩
        · exact hl₀ name c h
        · exact Option.filter_eq_none_iff.mp hlast c hcode (isSome_name? hbefore)
      | some c =>
        obtain ⟨hcode, hnamed⟩ := Option.filter_eq_some_iff.mp hlast
        obtain ⟨before, hbefore⟩ := Option.isSome_iff_exists.mp hnamed
        refine Or.inr ⟨e.1, c, rfl, (repeats_concat hl).mpr (Or.inr ⟨rfl, hcode, before, ?_⟩), ?_⟩
        · exact registers_of_name? hbefore
        · intro before d hlt h
          rcases (repeats_concat hl).mp h with h | ⟨rfl, -⟩
          · exact hl₀ before d h
          · exact List.lt_irrefl _ hlt
    · rw [hsome, Option.some_or]
      refine Or.inr ⟨name, c, rfl, (repeats_concat hl).mpr (Or.inl hfirst.repeats), ?_⟩
      intro before d hlt h
      rcases (repeats_concat hl).mp h with h | ⟨rfl, -⟩
      · exact hfirst.first before d hlt h
      · exact List.lt_asymm hlt (lt_last hl hfirst.repeats.1)

/-- No name repeats a code exactly when no code has two names. -/
theorem not_repeats_iff : (∀ name c, ¬ Repeats l name c) ↔
    ∀ c name name', Registers l name c → Registers l name' c → name = name' := by
  constructor
  · intro hnone c name name' h h'
    exact eq_of_not_encodeUtf8_lt (fun hlt => hnone name' c ⟨h', name, hlt, h⟩)
      fun hlt => hnone name c ⟨h, name', hlt, h'⟩
  · rintro hone name c ⟨h, before, hlt, hbefore⟩
    rw [hone c name before h hbefore] at hlt
    exact List.lt_irrefl _ hlt

/-- A name of a map has one entry, so it is registered with one code. -/
theorem Registers.code_eq {m : SortedMap TableEntry} {d : Code} (h : Registers m.entries name c)
    (h' : Registers m.entries name d) : c = d := by
  obtain ⟨e, he, hc⟩ := h
  obtain ⟨e', he', hd⟩ := h'
  have hsame := (SortedMap.get?_eq_some_iff.mpr he).symm.trans (SortedMap.get?_eq_some_iff.mpr he')
  rw [Option.some.inj hsame, hd] at hc
  exact (Option.some.inj hc).symm

theorem RepeatsFirst.code_eq {m : SortedMap TableEntry} {name' : String} {d : Code}
    (h : RepeatsFirst m.entries name c) (h' : RepeatsFirst m.entries name' d) : c = d := by
  have hname : name = name' := eq_of_not_encodeUtf8_lt (fun hlt => h'.first name c hlt h.repeats)
    fun hlt => h.first name' d hlt h'.repeats
  subst hname
  exact h.repeats.1.code_eq h'.repeats.1

variable {m : SortedMap TableEntry}

theorem duplicate_eq_none_iff : (CodeIndex.of m).duplicate = none ↔
    ∀ c name name', Registers m.entries name c → Registers m.entries name' c → name = name' := by
  rw [← not_repeats_iff]
  rcases duplicate_foldl m.sorted with ⟨hnone, hm⟩ | ⟨name, c, hsome, hfirst⟩
  · exact ⟨fun _ => hm, fun _ => hnone⟩
  · exact ⟨fun hnone => (nomatch hsome.symm.trans hnone), fun hm => absurd hfirst.repeats (hm name c)⟩

theorem duplicate_eq_some_iff : (CodeIndex.of m).duplicate = some c ↔
    ∃ name, RepeatsFirst m.entries name c := by
  rcases duplicate_foldl m.sorted with ⟨hnone, hm⟩ | ⟨name, d, hsome, hfirst⟩
  · exact ⟨fun hsome => (nomatch hnone.symm.trans hsome), fun ⟨name, h⟩ => absurd h.repeats (hm name c)⟩
  · constructor
    · intro hc
      rw [Option.some.inj (hc.symm.trans hsome)]
      exact ⟨name, hfirst⟩
    · rintro ⟨name', h⟩
      rw [h.code_eq hfirst]
      exact hsome

/-- **Without duplicates the index is the inverse of the table.** With one (`h` fails) the index has
the last of the names that share the code, and the others are lost. -/
theorem name?_eq_some_iff (h : (CodeIndex.of m).duplicate = none) :
    (CodeIndex.of m).name? c = some name ↔ Registers m.entries name c := by
  refine ⟨registers_of_name?, fun hname => ?_⟩
  obtain ⟨found, hfound⟩ := Option.isSome_iff_exists.mp (isSome_name? hname)
  rw [duplicate_eq_none_iff.mp h c name found hname (registers_of_name? hfound)]
  exact hfound

end CodeIndex

/-! ## 3. Tables -/

namespace StatusTable

open CodeIndex

variable {t : StatusTable} {m : SortedMap TableEntry} {name : String} {c : Code}

theorem exists_ofEntries_iff : (∃ t, ofEntries m = .ok t ∧ t.entries = m) ↔
    (CodeIndex.of m).duplicate = none := by
  unfold ofEntries
  split
  · rename_i hnone
    exact ⟨fun _ => hnone, fun _ => ⟨_, rfl, rfl⟩⟩
  · rename_i c hsome
    exact ⟨fun ⟨t, h, _⟩ => (nomatch h), fun hnone => (nomatch hsome.symm.trans hnone)⟩

theorem ofEntries_eq_error_iff {x : TableError} : ofEntries m = .error x ↔
    ∃ c, x = .duplicateCode c ∧ (CodeIndex.of m).duplicate = some c := by
  unfold ofEntries
  split
  · rename_i hnone
    exact ⟨fun h => (nomatch h), fun ⟨c, _, hsome⟩ => (nomatch hnone.symm.trans hsome)⟩
  · rename_i c hsome
    constructor
    · rintro ⟨⟩
      exact ⟨c, rfl, hsome⟩
    · rintro ⟨d, rfl, hd⟩
      rw [Option.some.inj (hsome.symm.trans hd)]

theorem name_eq_ok_iff : t.name c = .ok name ↔ t.index.name? c = some name := by
  unfold StatusTable.name
  cases t.index.name? c <;> simp

theorem code_eq_ok_iff : t.code name = .ok c ↔ Registers t.entries.entries name c := by
  unfold StatusTable.code Registers
  simp only [← SortedMap.get?_eq_some_iff]
  cases t.entries.get? name with
  | none => simp
  | some e => cases hcode : e.code <;> simp [hcode]

theorem rule_eq_ok_iff {s : Status} : t.rule name = .ok s ↔
    ∃ e, t.entries.get? name = some e ∧
      (e.rule = some s.name ∨ e.rule = some ("statusmanager." ++ s.name)) := by
  have hpath (path : String) : Status.ofRulePath? path = some s ↔
      path = s.name ∨ path = "statusmanager." ++ s.name := Status.ofRulePath?_eq_some_iff
  unfold StatusTable.rule
  cases t.entries.get? name with
  | none => simp
  | some e =>
    cases hrule : e.rule with
    | none => simp [hrule]
    | some path =>
      cases hs : Status.ofRulePath? path with
      | none => simp [hrule, ← hpath, hs]
      | some d => simp [hrule, ← hpath, hs]

theorem ruleOfCode_of_name (h : t.name c = .ok name) : t.ruleOfCode c = t.rule name := by
  rw [ruleOfCode, h]
  rfl

/-- **Names, codes and rules of a table agree.** Entries make a table exactly when no code has two names,
and else the code is reported that the first name repeats. In every table a code has a name exactly when
the name has the code. Then the rule of the code, of the name and of a record with that code are one, or
fail alike, and it is the rule of a status where the path is the status's name, with the group or
without. -/
theorem names_and_codes_agree :
    (∀ entries : SortedMap TableEntry,
      ((∃ t, ofEntries entries = .ok t ∧ t.entries = entries) ↔
        ∀ c name name', Registers entries.entries name c → Registers entries.entries name' c →
          name = name') ∧
      ∀ x, ofEntries entries = .error x ↔
        ∃ c name, x = .duplicateCode c ∧ RepeatsFirst entries.entries name c) ∧
    ∀ (t : StatusTable) (name : String) (c : Code),
      (t.name c = .ok name ↔ t.code name = .ok c) ∧
      (t.name c = .ok name → t.ruleOfCode c = t.rule name ∧
        ∀ r : StatusRecord, r.value.code = c → t.ruleOf r = t.rule name) ∧
      ∀ s, t.rule name = .ok s ↔ ∃ e, t.entries.get? name = some e ∧
        (e.rule = some s.name ∨ e.rule = some ("statusmanager." ++ s.name)) := by
  refine ⟨fun entries => ⟨?_, fun x => ?_⟩, fun t name c => ⟨?_, fun h => ⟨?_, ?_⟩, fun s => ?_⟩⟩
  · rw [exists_ofEntries_iff, duplicate_eq_none_iff]
  · rw [ofEntries_eq_error_iff]
    simp only [duplicate_eq_some_iff, exists_and_left]
  · have hdistinct : (CodeIndex.of t.entries).duplicate = none := t.indexed ▸ t.distinct
    rw [name_eq_ok_iff, code_eq_ok_iff, t.indexed, name?_eq_some_iff hdistinct]
  · exact ruleOfCode_of_name h
  · rintro r rfl
    exact ruleOfCode_of_name h
  · exact rule_eq_ok_iff

/-- Entries without a code, without a rule, and with a path that has the group in front of it twice. -/
def sparseEntries : SortedMap TableEntry :=
  .ofList
    [("bare", ⟨none, some "off"⟩), ("idle", ⟨some Status.off.code, none⟩),
     ("lost", ⟨some Status.flapping.code, some "statusmanager.statusmanager.flapping"⟩),
     ("ongoing", ⟨some Status.ongoing.code, some "statusmanager.ongoing"⟩)]

/-- Entries of which the third has the code of the second and the last one that of the first. -/
def clashingEntries : SortedMap TableEntry :=
  .ofList
    [("a", ⟨some Status.off.code, none⟩), ("b", ⟨some Status.ongoing.code, none⟩),
     ("c", ⟨some Status.ongoing.code, none⟩), ("d", ⟨some Status.off.code, none⟩)]

theorem names_and_codes_agree_sparse :
    (∃ t, ofEntries sparseEntries = .ok t ∧ t.name Status.ongoing.code = .ok "ongoing" ∧
      t.ruleOfCode Status.ongoing.code = .ok .ongoing ∧ t.name Status.off.code = .ok "idle" ∧
      t.ruleOfCode Status.off.code = t.rule "idle" ∧ ¬ ∃ s, t.rule "lost" = .ok s) ∧
    ofEntries clashingEntries = .error (.duplicateCode Status.ongoing.code) := by
  obtain ⟨hentries, htable⟩ := names_and_codes_agree
  constructor
  · obtain ⟨t, ht, hsparse⟩ := (hentries sparseEntries).1.mpr (duplicate_eq_none_iff.mp (by decide))
    obtain ⟨hongoing, hruleOngoing, -⟩ := htable t "ongoing" Status.ongoing.code
    obtain ⟨hidle, hruleIdle, -⟩ := htable t "idle" Status.off.code
    have hname : t.name Status.ongoing.code = .ok "ongoing" :=
      hongoing.mpr (by rw [StatusTable.code, hsparse]; decide)
    have hnameIdle : t.name Status.off.code = .ok "idle" :=
      hidle.mpr (by rw [StatusTable.code, hsparse]; decide)
    refine ⟨t, ht, hname, ?_, hnameIdle, (hruleIdle hnameIdle).1, ?_⟩
    · rw [(hruleOngoing hname).1, (htable t "ongoing" Status.ongoing.code).2.2, hsparse]
      exact ⟨_, rfl, Or.inr rfl⟩
    · rintro ⟨s, hs⟩
      obtain ⟨e, he, hpath⟩ := ((htable t "lost" Status.flapping.code).2.2 s).mp hs
      rw [hsparse] at he
      cases he
      revert hpath
      cases s <;> decide
  · have hclash : (CodeIndex.of clashingEntries).duplicate = some Status.ongoing.code := by decide
    obtain ⟨name, hname⟩ := duplicate_eq_some_iff.mp hclash
    exact ((hentries clashingEntries).2 _).mpr ⟨_, name, rfl, hname⟩

end StatusTable
end AlertStatus
