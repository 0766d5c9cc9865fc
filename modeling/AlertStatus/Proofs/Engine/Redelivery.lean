import AlertStatus.Proofs.Engine.Atomicity
import AlertStatus.Proofs.Event.Absorption

/-!
# Checks that come again

A plain check that is archived a second time is not logged, and changes no other live event, and of its
own live event no field that the engine knows (`redelivered`). In memory it changes nothing at all.

In tables the live event may still be written again, from what was read of it, when the check has an
extra field that is null or has a binary number in it. Then other numbers are read and written too, and
each time they may be rounded once more (`load_drifts`).
-/

set_option autoImplicit false

namespace AlertStatus

open AlertStatus.Action

namespace Backend

variable {b b₁ : Backend} {m : Medium} {e d live x : Event} {now t : Instant} {k : String}

/-- The stores differ in the live event of the routing key, if at all. -/
structure SameBut (rk : String) (b b' : Backend) : Prop where
  statuses : b.SameStatuses b'
  log : b.Gained [] b'
  others : ∀ j, j ≠ rk → b'.eventAt j = b.eventAt j

theorem SameBut.refl (rk : String) (b : Backend) : SameBut rk b b :=
  ⟨.refl b, gained_nil b, fun _ _ => rfl⟩

theorem sameBut_putEvent (rk : String) (b : Backend) (e : Event) :
    SameBut rk b ((Store.putEvent rk e).runOn b).2 :=
  ⟨sameStatuses_putEvent b rk e, gained_putEvent b rk e, fun j hj => by rw [eventAt_put, if_neg hj]⟩

/-- A store in memory that is given a live event that it has is the same. -/
theorem putEvent_live {rk : String} (hm : b.medium = .values) (h : b.eventAt rk = .ok (some e)) :
    ((Store.putEvent rk e).runOn b).2 = b := by
  cases b with
  | memory s =>
    have hlive : s.events.get? rk = some e := Except.ok.inj h
    exact congrArg (fun events => Backend.memory { s with events }) (SortedMap.insert_of_get? hlive)
  | tables s => cases hm

/-! ## 1. The first time -/

/-- **A plain check is taken in**, whether its routing key had a live event or not. That live event
must not be pinned (`hpin`), or it would not take in the state and the output. -/
theorem exists_first (he : e.PlainCheck) (hkeeps : b.medium.Keeps e) {o : Option Event}
    (hlive : b.eventAt e.routingKey = .ok o)
    (hpin : ∀ prior, o = some prior → prior.keepState ≠ some true) (now : Instant) :
    ∃ (added : Bool) (b₁ : Backend) (d live : Event),
      ((⟨[]⟩ : Archive).process now e).runOn b = (.ok added, b₁) ∧ b₁.medium = b.medium ∧
      b₁.eventAt e.routingKey = .ok (some live) ∧
      (∀ k, b.medium.Shows k (d.toFields.get? k) (live.toFields.get? k)) ∧
      d.Absorbed (e.identified now) ∧ d.Holds (e.identified now) := by
  have hbare := he.bare.identified now
  cases o with
  | none =>
    let first : Event := { e.identified now with lastStateChange := some (e.timestamp.getD now) }
    have hput := runOn_putEvent b e.routingKey first
    have hrun : ((⟨[]⟩ : Archive).process now e).runOn b =
        (.ok false, ((Store.putEvent e.routingKey first).runOn b).2) := by
      rw [Archive.process_eq, runOn_bind, runOn_getEvent, hlive]
      dsimp only
      rw [runOn_bind, show (Archive.write ⟨[]⟩ now e none).runOn b =
        (.ok (), ((Store.putEvent e.routingKey first).runOn b).2) from Prod.ext hput rfl]
      rfl
    have hgives := (hkeeps.of_extra (d := first) rfl).gives_given
    refine ⟨_, _, first, b.medium.given first, hrun, medium_putEvent _ _ _, ?_,
      b.medium.shows_given first, Event.absorbed_first hbare _, fun k v hv => ?_⟩
    · rw [eventAt_putEvent hgives, if_pos rfl]
    · exact Or.inr ⟨v, hv, Json.same_refl v⟩
  | some prior =>
    obtain ⟨d, hd, added, b₁, hrun, harchived⟩ := gives_archived ⟨[]⟩ now hlive
    have hmerged : b.medium.Keeps d :=
      keeps_merged hd (hkeeps.of_extra (e.arriving_extra prior now)) (keeps_of_eventAt hlive)
    have habsorbed := Event.absorbed_merged hbare (hpin prior rfl) hd
    have hholds := Event.holds_merged hd
    have hmedium := harchived.entries.medium
    rcases harchived.eventAt_eq with hput | ⟨rfl, hleft⟩
    · refine ⟨added, b₁, d, b.medium.given d, hrun, hmedium, ?_, b.medium.shows_given d, habsorbed, hholds⟩
      rw [hput, eventAt_putEvent hmerged.gives_given, if_pos rfl]
    · exact ⟨added, b₁, d, d, hrun, hmedium, hleft.trans hlive, fun _ => Or.inl rfl, habsorbed, hholds⟩

/-! ## 2. The second time -/

section Again

/-! The live event is what came back of an event `d` that has taken the check in. -/

variable (hbare : x.Bare) (habsorbed : live.Absorbed x) (hholds : d.Holds x)
  (hshows : ∀ k, m.Shows k (d.toFields.get? k) (live.toFields.get? k))

include hbare habsorbed hholds hshows

/-- What changes another time is an extra field of the check: a null for a field that is nowhere, or a
value with a binary number in it that came back as another one. -/
theorem again_of_get? {v : Json}
    (hc : ((x.stamped live t).changeOf [] live).get? k = some v) :
    k ∉ eventFieldNames ∧ x.extra.fields.get? k = some v ∧
      (v = .null ∧ live.toFields.get? k = none ∨ m = .texts ∧ v.plain = false) := by
  have hk : k ∉ eventFieldNames := fun hk => by
    rw [Event.get?_changeOf_again hbare habsorbed t hk] at hc
    cases hc
  rw [Event.get?_changeOf_again_of_unknown x live t hk, Option.filter_eq_some_iff] at hc
  obtain ⟨hv, hnew⟩ := hc
  refine ⟨hk, hv, ?_⟩
  have hshow := hshows k
  rw [Event.get?_toFields_of_unknown d hk] at hshow
  rcases hholds k v hv with ⟨hnull, hnone⟩ | ⟨w, hw, hsame⟩
  · refine Or.inl ⟨hnull, ?_⟩
    rcases hshow with hseen | ⟨-, -, u, hu, -⟩
    · exact hseen.trans hnone
    · rw [hnone] at hu
      cases hu
  · -- The live event holds a value that counts as the same, so it must have come back as another one.
    rcases hshow with hseen | ⟨htexts, -, u, hu, hplain, -⟩
    · rw [← Event.get?_toFields_of_unknown live hk, hseen, hw, Option.any_some, hsame] at hnew
      cases hnew
    · rw [hw] at hu
      cases hu
      refine Or.inr ⟨htexts, ?_⟩
      cases hv : v.plain with
      | false => rfl
      | true =>
        rw [Json.eq_of_same_of_plain hv hsame, hv] at hplain
        cases hplain

/-- The changed live event differs from the one before in such numbers only. A null for a field that is
nowhere is in the change and changes nothing. -/
theorem again_of_update? {d' : Event}
    (hd' : live.update? ((x.stamped live t).changeOf [] live) = some d') (k : String) :
    d'.toFields.get? k = live.toFields.get? k ∨
      m = .texts ∧ k ∉ eventFieldNames ∧
        ∃ v, v.plain = false ∧ x.extra.fields.get? k = some v ∧ d'.toFields.get? k = some v := by
  have hpatch := Event.get?_toFields_of_update? hd' k
  cases hc : ((x.stamped live t).changeOf [] live).get? k with
  | none =>
    rw [Event.patch_of_none hc] at hpatch
    exact Or.inl hpatch
  | some v =>
    rw [Event.patch_of_some hc] at hpatch
    obtain ⟨hk, hv, hnull | ⟨htexts, hplain⟩⟩ := again_of_get? hbare habsorbed hholds hshows hc
    · rw [if_pos hnull.1, ← hnull.2] at hpatch
      exact Or.inl hpatch
    · have hne : v ≠ .null := by
        rintro rfl
        cases hplain
      rw [if_neg hne] at hpatch
      exact Or.inr ⟨htexts, hk, v, hplain, hv, hpatch⟩

end Again

/-- So the live event is not touched, or the changed one is put, and nothing is logged. -/
theorem runOn_process_again {c : Fields} (hlive : b.eventAt e.routingKey = .ok (some live))
    (hlogged : Archive.logged (e.arriving live now) = false)
    (hc : (e.arriving live now).changeOf [] live = c) (hd : live.update? c = some d) :
    ((⟨[]⟩ : Archive).process now e).runOn b =
      (.ok false, if c.isEmpty then b else ((Store.putEvent e.routingKey d).runOn b).2) := by
  have hcopy : Archive.copyFor now e (some live) = none := if_neg (Bool.eq_false_iff.mp hlogged)
  have hwrite : (Archive.write ⟨[]⟩ now e (some live)).runOn b =
      (.ok (), if c.isEmpty then b else ((Store.putEvent e.routingKey d).runOn b).2) := by
    show (if ((e.arriving live now).changeOf [] live).isEmpty then _ else Store.updateEvent _ _).runOn b = _
    rw [hc]
    split
    · rfl
    · rw [runOn_updateEvent hlive hd]
      exact Prod.ext (runOn_putEvent b _ d) rfl
  rw [Archive.process_eq, runOn_bind, runOn_getEvent, hlive]
  dsimp only
  rw [runOn_bind, hwrite, hcopy]
  rfl

/-- The clock is not asked for the time of a check that has one. -/
theorem arriving_of_timed (he : e.timestamp.isSome = true) (prior : Event) (now now' : Instant) :
    e.arriving prior now = e.arriving prior now' := by
  obtain ⟨time, htime⟩ := Option.isSome_iff_exists.mp he
  unfold Event.arriving Event.identified
  rw [htime]
  rfl

/-- Under a name the event that is put has what the live event has, or such a number. It comes back so,
up to rounding. -/
theorem given_again {p : Json → Prop}
    (h : d.toFields.get? k = live.toFields.get? k ∨
      m = .texts ∧ k ∉ eventFieldNames ∧ ∃ v, v.plain = false ∧ p v ∧ d.toFields.get? k = some v) :
    (m.given d).toFields.get? k = live.toFields.get? k ∨
      k ∉ eventFieldNames ∧ ∃ v, v.plain = false ∧ (m.given d).toFields.get? k = some v.reread ∧
        (live.toFields.get? k = some v ∨ p v) := by
  cases m with
  | values => exact Or.inl (h.resolve_right fun hnew => nomatch hnew.1)
  | texts =>
    have hread : (Medium.texts.given d).toFields.get? k = _ := d.get?_toFields_reread k
    rw [hread]
    by_cases hk : k ∈ eventFieldNames
    · rw [if_pos hk]
      exact Or.inl (h.resolve_right fun hnew => hnew.2.1 hk)
    · rw [if_neg hk]
      rcases h with hsame | ⟨-, -, v, hplain, hv, hnew⟩
      · rw [hsame]
        cases live.toFields.get? k with
        | none => exact Or.inl rfl
        | some u =>
          cases hplain : u.plain with
          | true => exact Or.inl (congrArg some (Json.reread_of_plain u hplain))
          | false => exact Or.inr ⟨hk, u, hplain, rfl, Or.inl rfl⟩
      · rw [hnew]
        exact Or.inr ⟨hk, v, hplain, rfl, Or.inr hv⟩

/-- **A plain check that comes again** is not logged, and no live event changes, nor does the log. It
is so in memory, and in tables for a check whose extra fields are neither null nor have binary numbers
in them. For any other one it is so up to the rounding of extra fields with binary numbers in them, of
the live event itself or of the check.

The check has a time and brings nothing that live records remember or operators set (`he`). Such a
field can be new to the live record that it made, as in `ack_brought_by_off`. A live event that is
pinned keeps its state (`hpin`), so that an alert is not taken in and stays new to it. The store keeps
the check (`hkeeps`, see `Medium.keeps_of_readText`), and the live event of its key can be read, if
there is one (`hlive`). -/
theorem redelivered (he : e.PlainCheck) (hkeeps : b.medium.Keeps e) {o : Option Event}
    (hlive : b.eventAt e.routingKey = .ok o)
    (hpin : ∀ prior, o = some prior → prior.keepState ≠ some true) (now now' : Instant) :
    ∃ (added : Bool) (b₁ b₂ : Backend) (live live' : Event),
      ((⟨[]⟩ : Archive).process now e).runOn b = (.ok added, b₁) ∧
      ((⟨[]⟩ : Archive).process now' e).runOn b₁ = (.ok false, b₂) ∧
      b₁.SameBut e.routingKey b₂ ∧ b₁.eventAt e.routingKey = .ok (some live) ∧
      b₂.eventAt e.routingKey = .ok (some live') ∧
      (∀ k, live'.toFields.get? k = live.toFields.get? k ∨
        k ∉ eventFieldNames ∧ ∃ v, v.plain = false ∧ live'.toFields.get? k = some v.reread ∧
          (live.toFields.get? k = some v ∨ e.extra.fields.get? k = some v)) ∧
      (b.medium = .values ∨
        (∀ k v, e.extra.fields.get? k = some v → v ≠ .null ∧ v.plain = true) → b₂ = b₁) := by
  obtain ⟨added, b₁, d, live, hfirst, hmedium, hlive₁, hshows, habsorbed₀, hholds⟩ :=
    exists_first he hkeeps hlive hpin now
  have hbare := he.bare.identified now
  have habsorbed : live.Absorbed (e.identified now) := habsorbed₀.of_known fun k hk => by
    have hshow := hshows k
    rw [Event.get?_toFields_of_known d hk, Event.get?_toFields_of_known live hk] at hshow
    exact hshow.resolve_right fun hunknown => hunknown.2.1 hk
  let c : Fields := (e.arriving live now).changeOf [] live
  obtain ⟨d', hd', -, -⟩ := Event.exists_merged [] (e.arriving live now) live
  have hagain (k : String) := again_of_update? hbare habsorbed hholds hshows hd' k
  have hlogged := Event.logged_again hbare habsorbed (e.timestamp.getD now)
  have hsecond : ((⟨[]⟩ : Archive).process now' e).runOn b₁ =
      (.ok false, if c.isEmpty then b₁ else ((Store.putEvent e.routingKey d').runOn b₁).2) := by
    have hsame := arriving_of_timed he.timed live now' now
    refine runOn_process_again hlive₁ ?_ (congrArg (Event.changeOf [] · live) hsame) hd'
    rw [hsame]
    exact hlogged
  cases hempty : c.isEmpty with
  | true =>
    rw [hempty] at hsecond
    exact ⟨added, b₁, b₁, live, live, hfirst, hsecond, .refl _ _, hlive₁, hlive₁, fun _ => Or.inl rfl,
      fun _ => rfl⟩
  | false =>
    rw [hempty] at hsecond
    have hkept : b₁.medium.Keeps d' :=
      keeps_merged hd' (hmedium ▸ hkeeps.of_extra (e.arriving_extra live now)) (keeps_of_eventAt hlive₁)
    refine ⟨added, b₁, _, live, b₁.medium.given d', hfirst, hsecond, sameBut_putEvent _ _ _, hlive₁, ?_,
      ?_, ?_⟩
    · rw [if_neg Bool.false_ne_true, eventAt_putEvent hkept.gives_given, if_pos rfl]
    · rw [hmedium]
      exact fun k => given_again (hagain k)
    · rw [if_neg Bool.false_ne_true]
      rintro (hvalues | hplain)
      · have hsame : d' = live := Event.ext_get? fun k =>
          (hagain k).resolve_right fun hnew => nomatch hvalues.symm.trans hnew.1
        rw [hsame]
        exact putEvent_live (hmedium.trans hvalues) hlive₁
      · -- Then nothing of the check is new, and the change would have been empty.
        have hnone : c.isEmpty = true := SortedMap.isEmpty_of_get? fun k => by
          refine Option.eq_none_iff_forall_ne_some.mpr fun v hv => ?_
          obtain ⟨-, hextra, hnew⟩ := again_of_get? hbare habsorbed hholds hshows hv
          obtain ⟨hnull, hround⟩ := hplain k v hextra
          rcases hnew with ⟨hv, -⟩ | ⟨-, hv⟩
          · exact hnull hv
          · rw [hround] at hv
            cases hv
        rw [hnone] at hempty
        cases hempty

/-- A recovery with a note that is null comes again. -/
theorem redelivered_notedRecovery :
    notedRecovery.PlainCheck ∧ oneCheck.eventAt webKey = .ok (some (.webCheck 2 1000)) ∧
      ∃ (added : Bool) (b₁ b₂ : Backend),
        ((⟨[]⟩ : Archive).process (atSecond 1) notedRecovery).runOn oneCheck = (.ok added, b₁) ∧
        ((⟨[]⟩ : Archive).process (atSecond 2) notedRecovery).runOn b₁ = (.ok false, b₂) ∧
        b₁.SameBut webKey b₂ := by
  have hkey : notedRecovery.routingKey = webKey := by decide
  have hplain : notedRecovery.PlainCheck := ⟨rfl, by unfold Event.Bare; decide⟩
  have htextual : notedRecovery.Textual := by decide
  have hkeeps : oneCheck.medium.Keeps notedRecovery := Event.storable_of_lasting htextual.carries
  have hpin : ∀ prior, some (Event.webCheck 2 1000) = some prior → prior.keepState ≠ some true := by
    rintro _ ⟨⟩
    exact nofun
  obtain ⟨added, b₁, b₂, -, -, hfirst, hsecond, hsame, -⟩ :=
    redelivered hplain hkeeps (hkey ▸ eventAt_oneCheck) hpin (atSecond 1) (atSecond 2)
  exact ⟨hplain, eventAt_oneCheck, added, b₁, b₂, hfirst, hsecond, hkey ▸ hsame⟩

/-- A check with a note that is null. -/
def nullNote : Event := { Event.webCheck 2 1010 with extra := .of (.ofList [("note", .null)]) }

/-- The live event that has taken it in, beside a load that another check brought: the `n`th binary
number above 8.2e-22. -/
def heldLoad (n : Nat) : Event :=
  { Event.webCheck 2 1010 with
    rk := some webKey, lastStateChange := some (atSecond 1000),
    extra := .of (.ofList [("load", .num (.float ⟨false, 8719735652349048 + n, -123⟩))]) }

/-- The tables in which this live event was written. -/
def loadWritten (n : Nat) : Backend :=
  ((Store.putEvent webKey (heldLoad n)).runOn (.tables .empty)).2

/-- The load comes back as the next number. -/
theorem eventAt_loadWritten {n n' : Nat} (hn : n < 4) (hread : (heldLoad n).reread = heldLoad n') :
    (loadWritten n).eventAt webKey = .ok (some (heldLoad n')) := by
  have hkeeps : (heldLoad n).Storable := by
    intro k v hv
    obtain ⟨rfl, rfl⟩ := Prod.mk.inj (List.mem_singleton.mp (SortedMap.get?_eq_some_iff.mp hv))
    refine ⟨⟨?_, show -1074 ≤ (-123 : Int) by decide, show (-123 : Int) ≤ 971 by decide⟩,
      show 0 < Json.depthLimit by decide⟩
    show 8719735652349048 + n < 2 ^ 53
    omega
  have hgives : (Backend.tables .empty).medium.Gives (heldLoad n) (heldLoad n') := by
    rw [← hread]
    exact Medium.Keeps.gives_given (m := .texts) hkeeps
  rw [loadWritten, eventAt_putEvent hgives, if_pos rfl]

/-- The null is new to the live event each time, so the live event is written as it was read. -/
theorem runOn_nullNote {n n' : Nat} (hlive : (loadWritten n).eventAt webKey = .ok (some (heldLoad n')))
    (hc : (nullNote.arriving (heldLoad n') (atSecond 0)).changeOf [] (heldLoad n') =
      .ofList [("note", .null)])
    (hd : (heldLoad n').update? (.ofList [("note", .null)]) = some (heldLoad n')) :
    ((⟨[]⟩ : Archive).process (atSecond 0) nullNote).runOn (loadWritten n) =
      (.ok false, loadWritten n') := by
  have hkey : nullNote.routingKey = webKey := by decide
  have hlogged : Archive.logged (nullNote.arriving (heldLoad n') (atSecond 0)) = false := rfl
  rw [runOn_process_again (hkey ▸ hlive) hlogged hc hd, hkey, if_neg (by decide)]
  exact congrArg (fun events => (Except.ok false, Backend.tables { TableStore.empty with events }))
    (SortedMap.insert_insert _ webKey _ _)

/-- Each time the check comes, the load is another number. -/
theorem load_drifts :
    nullNote.PlainCheck ∧ (loadWritten 0).eventAt webKey = .ok (some (heldLoad 1)) ∧
      (heldLoad 1).keepState = none ∧
      ∃ b₁ b₂ : Backend,
        ((⟨[]⟩ : Archive).process (atSecond 0) nullNote).runOn (loadWritten 0) = (.ok false, b₁) ∧
        ((⟨[]⟩ : Archive).process (atSecond 0) nullNote).runOn b₁ = (.ok false, b₂) ∧
        b₁.eventAt webKey = .ok (some (heldLoad 2)) ∧ b₂.eventAt webKey = .ok (some (heldLoad 3)) ∧
        heldLoad 2 ≠ heldLoad 3 := by
  have hlive₁ : (loadWritten 0).eventAt webKey = .ok (some (heldLoad 1)) :=
    eventAt_loadWritten (by decide) (by decide +kernel)
  have hlive₂ : (loadWritten 1).eventAt webKey = .ok (some (heldLoad 2)) :=
    eventAt_loadWritten (by decide) (by decide +kernel)
  have hlive₃ : (loadWritten 2).eventAt webKey = .ok (some (heldLoad 3)) :=
    eventAt_loadWritten (by decide) (by decide +kernel)
  refine ⟨⟨rfl, by unfold Event.Bare; decide⟩, hlive₁, rfl, loadWritten 1, loadWritten 2, ?_, ?_, hlive₂,
    hlive₃, by decide +kernel⟩
  · exact runOn_nullNote hlive₁ (by decide +kernel) (by decide +kernel)
  · exact runOn_nullNote hlive₂ (by decide +kernel) (by decide +kernel)

end Backend
end AlertStatus
