import Spdy.Proofs.Known
import Spdy.Proofs.SingleWrite

/-!
# The way of a parcel

A parcel is posted, leaves the outbox in one or more frames, and between two of them its rest is put
back.

* `Passage`, `passage_of_turn` : what a moment does to the parcels that wait and to the one that is being
  written;
* `control_of_passage` : control frames wait until they are handed over.
-/

namespace Spdy

/-! ## Parcels -/

/-- What a moment does to the parcels that wait and to the one that is being written. -/
inductive Passage (cap : Nat) (mo : Moment) : Prop
  | post {new : List Parcel}
      (parcels : mo.after.session.outbox.parcels = mo.before.session.outbox.parcels ++ new)
      (outstanding : mo.after.session.outstanding = mo.before.session.outstanding)
      (said : Posted (.standard cap) mo.before.session mo.after.session mo.said? new)
      (handed : mo.handed? = none)
  | drop {before after : List Parcel} {r : StreamRef} {payload : Payload} {written : Nat}
      (parcels : mo.before.session.outbox.parcels = before ++ .data r payload written :: after)
      (parcels' : mo.after.session.outbox.parcels = before ++ after)
      (outstanding : mo.after.session.outstanding = mo.before.session.outstanding)
      (reset : (mo.before.session.stream r).reset) (silent : mo.Silent)
      (blocked : ∀ x ∈ before, mo.before.session.isReady x = false)
  | hand {before after : List Parcel} {p : Parcel} {bytes : Bytes} {h : Handler}
      (parcels : mo.before.session.outbox.parcels = before ++ p :: after)
      (parcels' : mo.after.session.outbox.parcels = before ++ after)
      (outstanding : mo.before.session.outstanding = [])
      (outstanding' : mo.after.session.outstanding = [h])
      (blocked : ∀ x ∈ before, mo.before.session.isReady x = false)
      (framed : Framed cap mo.before.session p bytes h.parcel) (said : mo.said? = none)
      (handed : mo.handed? = some (bytes, h))
  | written {h : Handler} (parcels : mo.after.session.outbox.parcels = mo.before.session.outbox.parcels)
      (outstanding : mo.before.session.outstanding = [h])
      (outstanding' : mo.after.session.outstanding = [])
      (whole : ∀ r payload written, h.parcel = .data r payload written → payload.bytes = [])
      (silent : mo.Silent)
  | stuck {h : Handler} {r : StreamRef} {payload : Payload} {written : Nat} {e : Error}
      (parcels : mo.after.session.outbox.parcels = mo.before.session.outbox.parcels)
      (outstanding : mo.before.session.outstanding = [h])
      (outstanding' : mo.after.session.outstanding = []) (parcel : h.parcel = .data r payload written)
      (credit : (mo.before.session.stream r).credit (debit written) = .error e) (silent : mo.Silent)
  | more {h : Handler} {r : StreamRef} {payload : Payload} {written : Nat} {before after : List Parcel}
      (outstanding : mo.before.session.outstanding = [h])
      (outstanding' : mo.after.session.outstanding = []) (parcel : h.parcel = .data r payload written)
      (left : payload.bytes ≠ []) (parcels : mo.before.session.outbox.parcels = before ++ after)
      (parcels' : mo.after.session.outbox.parcels = before ++ h.parcel :: after)
      (clear : ∀ q ∈ before, q.dataOf? ≠ some r) (silent : mo.Silent)
  | failed (fails : mo.isFailure) (parcels : mo.after.session.outbox.parcels = [])
      (outstanding : mo.after.session.outstanding = []) (silent : mo.Silent)
  | dropped (drops : mo.isDrop)
      (parcels : mo.after.session.outbox.parcels = mo.before.session.outbox.parcels)
      (outstanding : mo.after.session.outstanding.Sublist mo.before.session.outstanding)
      (silent : mo.Silent)

section Moment

variable {cap : Nat} {mo : Moment}

theorem Passage.of_same (silent : mo.Silent)
    (parcels : mo.after.session.outbox.parcels = mo.before.session.outbox.parcels)
    (outstanding : mo.after.session.outstanding = mo.before.session.outstanding) :
    Passage cap mo := by
  refine .post (show _ = _ ++ [] from ?_) outstanding ?_ silent.handed
  · rw [parcels, List.append_nil]
  · rw [silent.said]
    exact .own own_nil

theorem Outbox.parcels_endWrite (o : Outbox) (seq : Nat) : (o.endWrite seq).2.parcels = o.parcels := by
  unfold endWrite
  split <;> rfl

theorem Outbox.parcels_complete (o : Outbox) : o.complete.2.parcels = o.parcels := by
  unfold complete
  split <;> rfl

theorem passage_of_turn (turn : Turn cap mo)
    (howed : mo.before.owed ≤ mo.before.session.outbox.busy.toNat) : Passage cap mo := by
  cases turn with
  | plain work session before after hgone said handed =>
    have hadds := work.adds
    refine .post ?_ ?_ said handed
    · rw [session, hadds.outbox]
    · rw [session, hadds.outstanding]
  | flush work session before after said handed =>
    cases work with
    | idle =>
      exact .of_same ⟨said, handed⟩ (by rw [session]) (by rw [session])
    | drop free parcels reset blocked =>
      exact .drop parcels (by rw [session]; rfl) (by rw [session]; rfl) reset ⟨said, handed⟩ blocked
    | hand free parcels blocked framed =>
      have hout := (nothing_owed howed free).1
      refine .hand parcels (by rw [session]; rfl) hout ?_ blocked ?_ said handed
      · rw [session, Session.handing, hout]
        rfl
      · exact framed
  | endWrite session before after silent =>
    exact .of_same silent (by rw [session]; exact Outbox.parcels_endWrite _ _) (by rw [session])
  | release session before after silent =>
    exact .of_same silent (by rw [session]; exact Outbox.parcels_complete _) (by rw [session])
  | @wrote h p mem work session after silent =>
    have hone := only_outstanding howed mem
    have hnone : mo.after.session.outstanding = [] := by
      rw [session, work.outstanding]
      exact (one_owed howed mem).2.1
    generalize hparcel : h.parcel = q at work
    cases work with
    | control =>
      exact .written (by rw [session]; rfl) hone hnone (by rw [hparcel]; simp) silent
    | stuck credit =>
      exact .stuck (by rw [session]; rfl) hone hnone hparcel credit silent
    | @done r payload written x credit empty =>
      refine .written ?_ hone hnone ?_ silent
      · rw [session]
        cases payload.close <;> rfl
      · intro r' payload' written' heq
        rw [hparcel] at heq
        cases heq
        exact empty
    | more credit left parcels clear =>
      refine .more hone hnone hparcel left parcels ?_ clear silent
      rw [session, hparcel]
      rfl
  | @failed h fails mem session after silent =>
    exact .failed fails (by rw [session]; rfl) (by rw [session]; exact (one_owed howed mem).2.1) silent
  | broken breaks session before after silent =>
    exact .of_same silent (by rw [session]) (by rw [session])
  | dropped drops session after silent =>
    exact .dropped drops (by rw [session]; rfl) (by rw [session]; exact List.filter_sublist) silent

/-- A control frame that waits does so until it is handed over, or a write fails. -/
theorem control_of_passage {q : Parcel} (passage : Passage cap mo) (hq : q ∈ mo.before.session.outbox.parcels)
    (control : q.dataOf? = none) :
    q ∈ mo.after.session.outbox.parcels ∨
      (∃ bytes x, mo.handed? = some (bytes, x) ∧ x.parcel = q ∧ x ∈ mo.after.session.outstanding) ∨ mo.isFailure := by
  have apart : ∀ {before after : List Parcel} {p : Parcel}, mo.before.session.outbox.parcels = before ++ p :: after →
      mo.after.session.outbox.parcels = before ++ after → q ≠ p → q ∈ mo.after.session.outbox.parcels := by
    intro before after p hparcels hparcels' hne
    rw [hparcels, List.mem_append, List.mem_cons] at hq
    rw [hparcels', List.mem_append]
    exact hq.imp_right (·.resolve_left hne)
  have ne_data : ∀ {r : StreamRef} {payload : Payload} {written : Nat}, q ≠ .data r payload written := by
    rintro r payload written rfl
    cases control
  cases passage with
  | post parcels =>
    rw [parcels]
    exact .inl (List.mem_append_left _ hq)
  | drop parcels parcels' => exact .inl (apart parcels parcels' ne_data)
  | @hand before after p bytes x parcels parcels' outstanding outstanding' blocked framed said handed =>
    by_cases hp : q = p
    · subst hp
      refine .inr (.inl ⟨bytes, x, handed, ?_, ?_⟩)
      · generalize x.parcel = p at framed
        cases framed with
        | control => rfl
        | data => cases control
      · rw [outstanding']
        exact List.mem_singleton_self x
    · exact .inl (apart parcels parcels' hp)
  | written parcels => exact .inl (parcels ▸ hq)
  | stuck parcels => exact .inl (parcels ▸ hq)
  | more outstanding outstanding' parcel left parcels parcels' =>
    rw [parcels, List.mem_append] at hq
    rw [parcels', List.mem_append]
    exact .inl (hq.imp_right (List.mem_cons_of_mem _))
  | failed fails => exact .inr (.inr fails)
  | dropped drops parcels => exact .inl (parcels ▸ hq)

end Moment

end Spdy
