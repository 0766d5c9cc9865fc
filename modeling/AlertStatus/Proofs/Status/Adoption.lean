import AlertStatus.Status.Debounce
import Mathlib.Data.List.Induction

/-!
# When a state is adopted

States are counted one after the other, at one level. A state that is adopted was counted often enough,
but not in a row: the adopted state may come in between and leaves the count as it stands. Only a third
state starts the count again. So what decides is a stretch of the input in which the adopted state and
its rival alternate in any way (`Contest`), and the number of times that the rival occurs in it.

A state is adopted exactly when it wins such a contest (`adopts_iff`). That its last occurrences follow
each other directly holds just when the adopted state is not among them.
-/

set_option autoImplicit false

namespace AlertStatus
namespace Debounce

variable {level : DebounceLevel} {d : Debounce} {a s x : CheckState}
  {xs earlier stretch : List CheckState}

/-! ## 1. One state -/

/-- How often `s` was counted towards replacing the adopted state. -/
def votes (d : Debounce) (s : CheckState) : Nat := if s = d.candidate then d.count.toNat else 0

theorem push_state (d : Debounce) (level : DebounceLevel) : d.push level d.state = d := if_pos rfl

theorem tally_candidate (d : Debounce) (s : CheckState) : (d.tally s).candidate = s := by
  unfold tally
  split
  · rename_i h
    exact h.symm
  · rfl

theorem tally_state (d : Debounce) (s : CheckState) : (d.tally s).state = d.state := by
  unfold tally
  split <;> rfl

/-- A count that has not passed the largest level has room for one more. -/
theorem toNat_tally_count (hd : d.count.toNat ≤ level.needed.toNat) :
    (d.tally s).count.toNat = d.votes s + 1 := by
  have hlevel : level.needed.toNat ≤ 3 := by cases level <;> decide
  unfold tally votes
  split
  · rw [UInt32.toNat_add, UInt32.toNat_one]
    omega
  · rfl

/-- **A rival with votes enough is adopted**, and the count starts again. The count has not passed the
level (`hd`), so that one more vote is one more: the counter has 32 bits and would otherwise wrap. -/
theorem push_of_enough (hd : d.count.toNat ≤ level.needed.toNat) (hs : s ≠ d.state)
    (hn : level.needed.toNat ≤ d.votes s + 1) : d.push level s = ⟨s, s, 1⟩ := by
  have hcount : level.needed ≤ (d.tally s).count := by
    rw [UInt32.le_iff_toNat_le, toNat_tally_count hd]
    exact hn
  unfold push
  rw [if_neg hs]
  dsimp only
  rw [if_pos hcount, tally_candidate]

/-- A rival without votes enough gets one more, and all others lose theirs. -/
theorem push_of_few (hd : d.count.toNat ≤ level.needed.toNat) (hs : s ≠ d.state)
    (hn : d.votes s + 1 < level.needed.toNat) :
    (d.push level s).state = d.state ∧ (d.push level s).candidate = s ∧
      (d.push level s).count.toNat = d.votes s + 1 := by
  have hcount : ¬ level.needed ≤ (d.tally s).count := by
    rw [UInt32.le_iff_toNat_le, toNat_tally_count hd]
    exact Nat.not_le.mpr hn
  unfold push
  rw [if_neg hs]
  dsimp only
  rw [if_neg hcount]
  exact ⟨tally_state d s, tally_candidate d s, toNat_tally_count hd⟩

/-! ## 2. Many states -/

/-- What is remembered after the given states, nothing before the first one. -/
def after (level : DebounceLevel) (xs : List CheckState) : Option Debounce :=
  xs.foldl (fun d x => some (next d level x)) none

/-- The state that is adopted after the given ones. -/
def adopted (level : DebounceLevel) (xs : List CheckState) : Option CheckState :=
  (after level xs).map Debounce.state

theorem after_concat (level : DebounceLevel) (xs : List CheckState) (x : CheckState) :
    after level (xs ++ [x]) = some (next (after level xs) level x) := by
  rw [after, List.foldl_append]
  rfl

theorem after_concat_of_some (h : after level xs = some d) (x : CheckState) :
    after level (xs ++ [x]) = some (d.push level x) := by
  rw [after_concat, h]
  rfl

theorem exists_after_of_adopted (h : adopted level xs = some a) :
    ∃ d, after level xs = some d ∧ d.state = a := Option.map_eq_some_iff.mp h

/-- The count never passes the number that the level asks for, so adding one to it does not
overflow. -/
theorem count_le {d : Debounce} (h : after level xs = some d) :
    d.count.toNat ≤ level.needed.toNat := by
  have hone : (1 : UInt32).toNat ≤ level.needed.toNat := by cases level <;> decide
  induction xs using List.reverseRecOn generalizing d with
  | nil => cases h
  | append_singleton xs x ih =>
    rw [after_concat] at h
    cases h
    cases hbefore : after level xs with
    | none => exact hone
    | some d =>
      have hd := ih hbefore
      by_cases hx : x = d.state
      · subst hx
        rw [next, push_state]
        exact hd
      by_cases hn : level.needed.toNat ≤ d.votes x + 1
      · rw [next, push_of_enough hd hx hn]
        exact hone
      · obtain ⟨-, -, hcount⟩ := push_of_few hd hx (Nat.not_le.mp hn)
        rw [next, hcount]
        omega

/-! ## 3. Contests -/

/-- After `earlier` and through all of `stretch` the state `a` is adopted, and it is challenged by `s`
alone. The two may alternate in any way: `a` in between leaves the count of `s` as it is. -/
structure Contest (level : DebounceLevel) (a s : CheckState) (earlier stretch : List CheckState) :
    Prop where
  only : ∀ x ∈ stretch, x = a ∨ x = s
  held : ∀ part, part <+: stretch → adopted level (earlier ++ part) = some a

theorem Contest.nil (h : adopted level earlier = some a) : Contest level a s earlier [] where
  only := fun _ hx => absurd hx List.not_mem_nil
  held := by
    intro part hpart
    rw [List.prefix_nil.mp hpart, List.append_nil]
    exact h

theorem Contest.concat (h : Contest level a s earlier stretch) (hx : x = a ∨ x = s)
    (ha : adopted level (earlier ++ stretch ++ [x]) = some a) :
    Contest level a s earlier (stretch ++ [x]) where
  only := by
    intro y hy
    rcases List.mem_append.mp hy with hy | hy
    · exact h.only y hy
    · rw [List.mem_singleton.mp hy]
      exact hx
  held := by
    intro part hpart
    rcases List.prefix_concat_iff.mp hpart with rfl | hpart
    · rw [← List.append_assoc]
      exact ha
    · exact h.held part hpart

theorem Contest.of_concat (h : Contest level a s earlier (stretch ++ [x])) :
    Contest level a s earlier stretch where
  only := fun y hy => h.only y (List.mem_append_left _ hy)
  held := fun part hpart => h.held part (hpart.trans (List.prefix_append _ _))

/-- **The votes of a rival were all cast in one contest.** A rival that has none may find itself in one
that has not begun, with nothing in its stretch. -/
theorem exists_contest (h : after level xs = some d) (hs : s ≠ d.state) :
    ∃ earlier stretch, xs = earlier ++ stretch ∧ Contest level d.state s earlier stretch ∧
      d.votes s = stretch.count s := by
  induction xs using List.reverseRecOn generalizing d with
  | nil => cases h
  | append_singleton xs x ih =>
    have hheld : adopted level (xs ++ [x]) = some d.state := by rw [adopted, h]; rfl
    -- Without votes the contest has not begun.
    have hnone : d.votes s = 0 → ∃ earlier stretch, xs ++ [x] = earlier ++ stretch ∧
        Contest level d.state s earlier stretch ∧ d.votes s = stretch.count s :=
      fun hv => ⟨xs ++ [x], [], by simp, .nil hheld, hv⟩
    cases hbefore : after level xs with
    | none =>
      rw [after_concat, hbefore] at h
      cases h
      exact hnone (if_neg hs)
    | some d₀ =>
      rw [after_concat_of_some hbefore] at h
      cases h
      have hd := count_le hbefore
      by_cases hx : x = d₀.state
      · -- The adopted state comes in between: no vote is cast and none is lost.
        rw [hx, push_state] at hs hheld ⊢
        obtain ⟨earlier, stretch, rfl, hcontest, hvotes⟩ := ih hbefore hs
        refine ⟨earlier, stretch ++ [d₀.state], by simp, hcontest.concat (Or.inl rfl) hheld, ?_⟩
        rw [hvotes, List.count_append, List.count_singleton, if_neg (by simpa using hs.symm),
          Nat.add_zero]
      by_cases hn : level.needed.toNat ≤ d₀.votes x + 1
      · rw [push_of_enough hd hx hn] at hs hnone ⊢
        exact hnone (if_neg hs)
      · obtain ⟨hstate, hcandidate, hcount⟩ := push_of_few hd hx (Nat.not_le.mp hn)
        by_cases hsx : s = x
        · subst hsx
          obtain ⟨earlier, stretch, rfl, hcontest, hvotes⟩ := ih hbefore hx
          rw [hstate] at hheld ⊢
          refine ⟨earlier, stretch ++ [s], by simp, hcontest.concat (Or.inr rfl) hheld, ?_⟩
          rw [votes, hcandidate, if_pos rfl, hcount, hvotes, List.count_append,
            List.count_singleton_self]
        · refine hnone (if_neg ?_)
          rw [hcandidate]
          exact hsx

/-- **In a contest no vote is lost.** -/
theorem Contest.count_le_votes (h : Contest level a s earlier stretch) (hs : s ≠ a) :
    ∃ d, after level (earlier ++ stretch) = some d ∧ d.state = a ∧ stretch.count s ≤ d.votes s := by
  induction stretch using List.reverseRecOn with
  | nil =>
    obtain ⟨d, hd, hstate⟩ := exists_after_of_adopted (h.held [] List.prefix_rfl)
    exact ⟨d, hd, hstate, Nat.zero_le _⟩
  | append_singleton stretch x ih =>
    obtain ⟨d, hd, rfl, hvotes⟩ := ih h.of_concat
    have hafter : after level (earlier ++ (stretch ++ [x])) = some (d.push level x) := by
      rw [← List.append_assoc]
      exact after_concat_of_some hd x
    have hheld : (d.push level x).state = d.state := by
      have := h.held _ List.prefix_rfl
      rw [adopted, hafter] at this
      exact Option.some.inj this
    refine ⟨_, hafter, hheld, ?_⟩
    rw [List.count_append]
    rcases h.only x (by simp) with rfl | rfl
    · rw [push_state, List.count_singleton, if_neg (by simpa using hs.symm)]
      exact hvotes
    · have hfew : d.votes x + 1 < level.needed.toNat := by
        refine Nat.not_le.mp fun hn => hs ?_
        rw [push_of_enough (count_le hd) hs hn] at hheld
        exact hheld
      obtain ⟨-, hcandidate, hcount⟩ := push_of_few (count_le hd) hs hfew
      rw [votes, hcandidate, if_pos rfl, hcount, List.count_singleton_self]
      omega

/-! ## 4. Adoption -/

/-- After `xs`, the state `s` takes the place of the adopted state `a`. -/
def Adopts (level : DebounceLevel) (xs : List CheckState) (a s : CheckState) : Prop :=
  adopted level xs = some a ∧ s ≠ a ∧ adopted level (xs ++ [s]) = some s

instance : Decidable (Adopts level xs a s) := inferInstanceAs (Decidable (_ ∧ _ ∧ _))

theorem adopts_of_after (h : after level xs = some d) :
    Adopts level xs d.state s ↔ s ≠ d.state ∧ level.needed.toNat ≤ d.votes s + 1 := by
  have hbefore : adopted level xs = some d.state := by rw [adopted, h]; rfl
  have hnext : adopted level (xs ++ [s]) = some (d.push level s).state := by
    rw [adopted, after_concat_of_some h]
    rfl
  rw [Adopts, hbefore, hnext]
  constructor
  · rintro ⟨-, hs, hstate⟩
    refine ⟨hs, Nat.not_lt.mp fun hn => hs ?_⟩
    rw [(push_of_few (count_le h) hs hn).1] at hstate
    exact (Option.some.inj hstate).symm
  · rintro ⟨hs, hn⟩
    rw [push_of_enough (count_le h) hs hn]
    exact ⟨rfl, hs, rfl⟩

/-- A state is adopted when it wins a contest against the adopted one. -/
theorem adopts_iff_contest : Adopts level xs a s ↔ s ≠ a ∧ ∃ earlier stretch,
    xs = earlier ++ stretch ∧ Contest level a s earlier stretch ∧
      level.needed.toNat ≤ stretch.count s + 1 := by
  constructor
  · intro h
    obtain ⟨d, hd, rfl⟩ := exists_after_of_adopted h.1
    obtain ⟨hs, hn⟩ := (adopts_of_after hd).mp h
    obtain ⟨earlier, stretch, hxs, hcontest, hvotes⟩ := exists_contest hd hs
    exact ⟨hs, earlier, stretch, hxs, hcontest, hvotes ▸ hn⟩
  · rintro ⟨hs, earlier, stretch, rfl, hcontest, hn⟩
    obtain ⟨d, hd, rfl, hvotes⟩ := hcontest.count_le_votes hs
    exact (adopts_of_after hd).mpr ⟨hs, by omega⟩

/-- **A state is adopted exactly when, since some moment at which the other state was adopted already,
nothing but the two came, and the new one often enough.** Nothing is asked of the input, the level or
the states.

The second part compares this with occurrences in a row. When a state is adopted, its occurrences make
up the end of the input just when that end is free of the old one. -/
theorem adopts_iff (level : DebounceLevel) (xs : List CheckState) (a s : CheckState) :
    (Adopts level xs a s ↔ s ≠ a ∧ ∃ earlier stretch, xs = earlier ++ stretch ∧
      Contest level a s earlier stretch ∧ level.needed.toNat ≤ stretch.count s + 1) ∧
    (Adopts level xs a s → (List.replicate level.needed.toNat s <:+ xs ++ [s] ↔
      ∃ last, last <:+ xs ++ [s] ∧ last.length = level.needed.toNat ∧ a ∉ last)) := by
  refine ⟨adopts_iff_contest, fun h => ?_⟩
  obtain ⟨hs, earlier, stretch, rfl, hcontest, hn⟩ := adopts_iff_contest.mp h
  constructor
  · intro hsuffix
    exact ⟨_, hsuffix, List.length_replicate, fun ha => hs (List.eq_of_mem_replicate ha).symm⟩
  · rintro ⟨last, hsuffix, hlength, ha⟩
    -- The end is no longer than the contest, in which there is nothing but the two states.
    have hlast : last <:+ stretch ++ [s] := by
      rw [List.append_assoc] at hsuffix
      refine List.suffix_of_suffix_length_le hsuffix (List.suffix_append earlier _) ?_
      have hcount : stretch.count s ≤ stretch.length := List.count_le_length
      rw [List.length_append, List.length_singleton, hlength]
      omega
    have hsame : ∀ x ∈ last, x = s := by
      intro x hx
      rcases List.mem_append.mp (hlast.subset hx) with hx' | hx'
      · refine (hcontest.only x hx').resolve_left ?_
        rintro rfl
        exact ha hx
      · exact List.mem_singleton.mp hx'
    rw [← hlength, ← List.eq_replicate_iff.mpr ⟨rfl, hsame⟩]
    exact hsuffix

/-- An alert that comes three times, with a healthy check after the first two. -/
def interrupted : List CheckState :=
  [.ok, ⟨2, by decide, by decide⟩, ⟨2, by decide, by decide⟩, .ok]

/-- **The occurrences need not follow each other**: the adopted state in between does not start the
count again. -/
theorem adopted_after_interruption : ¬ ∀ (level : DebounceLevel) (xs : List CheckState)
    (a s : CheckState), Adopts level xs a s → List.replicate level.needed.toNat s <:+ xs ++ [s] := by
  intro h
  have hsuffix := h .hard interrupted .ok ⟨2, by decide, by decide⟩ (by decide)
  revert hsuffix
  decide

end Debounce
end AlertStatus
