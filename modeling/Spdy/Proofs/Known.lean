import Spdy.Proofs.Turn

/-!
# Streams that parcels speak for

* `Session.Onward`, `later_of_turn` : streams later on;
* `Session.Concerns`, `concerns_of_turn` : what waits and what is being written is for certain streams;
* `Session.Known`, `known_of_run` : it is for streams of the session, whatever happens.
-/

namespace Spdy

/-! ## Streams later on -/

/-- Streams stay, and at most close, are reset or have their windows moved. -/
structure Session.Onward (s t : Session) : Prop where
  size : s.streams.size ≤ t.streams.size
  later : ∀ r, r.serial < s.streams.size → (s.stream r).Later (t.stream r)

namespace Session.Onward

variable {s t : Session}

theorem of_streams (h : t.streams = s.streams) : s.Onward t where
  size := by rw [h]
  later := by
    intro r _
    rw [stream, stream, h]
    exact .refl _

theorem of_steady (h : Steady s t) : s.Onward t := ⟨h.size, h.later⟩

theorem localClosed (h : s.Onward t) {r : StreamRef} (hr : (s.stream r).localClosed) :
    (t.stream r).localClosed := by
  by_cases hlt : r.serial < s.streams.size
  · exact (h.later r hlt).localClosed hr
  · rw [stream_of_size_le (Nat.le_of_not_lt hlt)] at hr
    cases hr

theorem reset (h : s.Onward t) {r : StreamRef} (hr : (s.stream r).reset) : (t.stream r).reset := by
  by_cases hlt : r.serial < s.streams.size
  · exact (h.later r hlt).reset hr
  · rw [stream_of_size_le (Nat.le_of_not_lt hlt)] at hr
    cases hr

theorem of_adds {p : Progress} {new : List Parcel} (h : Adds s p new) : s.Onward p.session := by
  obtain ⟨u, hu, heq⟩ := h.session
  rw [heq]
  exact ⟨hu.size, hu.later⟩

theorem of_flush {cap : Nat} {p : Progress} (h : Flushed cap s p) : s.Onward p.session := by
  cases h <;> exact of_streams rfl

theorem of_credit {r : StreamRef} {x : Stream} {delta : Int}
    (h : (s.stream r).credit delta = .ok x) : s.Onward (s.update r fun _ => x) :=
  of_steady (.credit h)

theorem of_wrote {q : Parcel} {p : Progress} (h : Wrote s q p) : s.Onward p.session := by
  cases h with
  | control => exact of_streams rfl
  | stuck => exact of_streams rfl
  | @done r payload written x credit =>
    have hcredit := of_credit credit
    dsimp only
    split
    · have hclose := (Calm.closeLocal (s.update r fun _ => x) r).toSteady
      exact ⟨Nat.le_trans hcredit.size hclose.size, fun q hq =>
        (hcredit.later q hq).trans (hclose.later q (Nat.lt_of_lt_of_le hq hcredit.size))⟩
    · exact hcredit
  | more credit =>
    have hcredit := of_credit credit
    exact ⟨hcredit.size, hcredit.later⟩

end Session.Onward

theorem later_of_turn {cap : Nat} {mo : Moment} (turn : Turn cap mo) :
    mo.before.session.Onward mo.after.session := by
  cases turn with
  | plain work session => rw [session]; exact .of_adds work.adds
  | flush work session => rw [session]; exact .of_flush work
  | endWrite session => rw [session]; exact .of_streams rfl
  | release session => rw [session]; exact .of_streams rfl
  | wrote mem work session =>
    rw [session]
    have h := Session.Onward.of_wrote work
    exact ⟨h.size, h.later⟩
  | failed fails mem session => rw [session]; exact .of_streams rfl
  | broken breaks session => rw [session]; exact .of_streams rfl
  | dropped drops session => rw [session]; exact .of_streams rfl

/-! ## Parcels and their streams -/

/-- What waits and what is being written is for certain streams only. -/
structure Session.Concerns (ok : StreamRef → Prop) (s : Session) : Prop where
  waiting : ∀ q ∈ s.outbox.parcels, ∀ r, q.stream? = some r → ok r
  leaving : ∀ h ∈ s.outstanding, ∀ r, h.parcel.stream? = some r → ok r

/-- What waits and what is being written is for streams of the session. -/
abbrev Session.Known (s : Session) : Prop := s.Concerns (·.serial < s.streams.size)

theorem Framed.stream? {cap : Nat} {s : Session} {p q : Parcel} {bytes : Bytes}
    (h : Framed cap s p bytes q) : q.stream? = p.stream? := by
  cases h <;> rfl

theorem Posted.speaks {enc : Encoder} {s t : Session} {said : Option (StreamRef × Speech)}
    {new : List Parcel} (h : Posted enc s t said new) {q : Parcel} (hq : q ∈ new) {r : StreamRef}
    (hr : q.stream? = some r) : ∃ x, Speaks s t r x := by
  cases h with
  | own hown =>
    rw [(hown q hq).1] at hr
    cases hr
  | head isHead closes encoded speaks =>
    rw [List.mem_singleton.1 hq] at hr
    cases hr
    exact ⟨_, speaks⟩
  | data speaks =>
    rw [List.mem_singleton.1 hq] at hr
    cases hr
    exact ⟨_, speaks⟩

namespace Session.Concerns

variable {s t : Session} {ok : StreamRef → Prop}

theorem mono {ok' : StreamRef → Prop} (hs : s.Concerns ok) (h : ∀ r, ok r → ok' r) : s.Concerns ok' :=
  ⟨fun q hq r hr => h r (hs.waiting q hq r hr), fun x hx r hr => h r (hs.leaving x hx r hr)⟩

theorem of_subset (hs : s.Concerns ok) (hparcels : ∀ q ∈ t.outbox.parcels, q ∈ s.outbox.parcels)
    (hout : ∀ h ∈ t.outstanding, h ∈ s.outstanding) : t.Concerns ok :=
  ⟨fun q hq => hs.waiting q (hparcels q hq), fun h hh => hs.leaving h (hout h hh)⟩

theorem post {cap : Nat} {p : Progress} {new : List Parcel} {said : Option (StreamRef × Speech)}
    (hs : s.Concerns ok) (h : Adds s p new) (hp : Posted (.standard cap) s p.session said new)
    (hnew : ∀ r x, Speaks s p.session r x → ok r) : p.session.Concerns ok := by
  constructor
  · intro q hq r hr
    rw [h.outbox] at hq
    rcases List.mem_append.1 hq with hq | hq
    · exact hs.waiting q hq r hr
    · obtain ⟨x, hx⟩ := hp.speaks hq hr
      exact hnew r x hx
  · rw [h.outstanding]
    exact hs.leaving

theorem flush {cap : Nat} {p : Progress} (hs : s.Concerns ok) (h : Flushed cap s p) :
    p.session.Concerns ok := by
  cases h with
  | idle => exact hs
  | @drop before after r payload written free parcels reset =>
    refine hs.of_subset (fun q hq => ?_) (fun h hh => hh)
    rw [parcels]
    rcases List.mem_append.1 hq with hq | hq
    · exact List.mem_append_left _ hq
    · exact List.mem_append_right _ (List.mem_cons_of_mem _ hq)
  | @hand before after p q bytes free parcels blocked framed =>
    have hmem : ∀ x ∈ before ++ after, x ∈ s.outbox.parcels := by
      intro x hx
      rw [parcels]
      rcases List.mem_append.1 hx with hx | hx
      · exact List.mem_append_left _ hx
      · exact List.mem_append_right _ (List.mem_cons_of_mem _ hx)
    constructor
    · exact fun x hx => hs.waiting x (hmem x hx)
    · intro x hx r hr
      rcases List.mem_append.1 hx with hx | hx
      · exact hs.leaving x hx r hr
      · rw [List.mem_singleton.1 hx, framed.stream?] at hr
        exact hs.waiting p (by rw [parcels]; exact List.mem_append_right _ List.mem_cons_self) r hr

theorem dropHandler (hs : s.Concerns ok) (seq : Nat) : (s.dropHandler seq).Concerns ok :=
  hs.of_subset (fun _ hq => hq) (fun _ hh => (List.mem_filter.1 hh).1)

theorem wrote {q : Parcel} {p : Progress} (hs : s.Concerns ok) (hq : ∀ r, q.stream? = some r → ok r)
    (h : Wrote s q p) : p.session.Concerns ok := by
  cases h with
  | control => exact hs
  | stuck => exact hs
  | @done r payload written x credit empty => dsimp only; split <;> exact ⟨hs.waiting, hs.leaving⟩
  | @more r payload written x before after credit left parcels clear =>
    refine ⟨fun y hy r' hr' => ?_, hs.leaving⟩
    rcases List.mem_append.1 hy with hy | hy
    · exact hs.waiting y (by rw [parcels]; exact List.mem_append_left _ hy) r' hr'
    · rcases List.mem_cons.1 hy with rfl | hy
      · exact hq r' hr'
      · exact hs.waiting y (by rw [parcels]; exact List.mem_append_right _ hy) r' hr'

end Session.Concerns

/-- New parcels are for streams on which something is said. -/
theorem concerns_of_turn {cap : Nat} {mo : Moment} {ok : StreamRef → Prop} (turn : Turn cap mo)
    (hm : mo.before.session.Concerns ok)
    (hnew : ∀ r x, Speaks mo.before.session mo.after.session r x → ok r) :
    mo.after.session.Concerns ok := by
  cases turn with
  | plain work session before after hgone said handed =>
    rw [session] at said hnew ⊢
    exact hm.post work.adds said hnew
  | flush work session before after said handed =>
    rw [session]
    exact hm.flush work
  | @endWrite seq common session before after silent =>
    rw [session]
    refine hm.of_subset (fun q hq => ?_) (fun h hh => hh)
    simp only [Outbox.endWrite] at hq
    split at hq <;> exact hq
  | release session before after silent =>
    rw [session]
    refine hm.of_subset (fun q hq => ?_) (fun h hh => hh)
    simp only [Outbox.complete] at hq
    split at hq <;> exact hq
  | @wrote h p mem work session after silent =>
    rw [session]
    exact (hm.dropHandler h.seq).wrote (hm.leaving h mem) work
  | @failed h fails mem session after silent =>
    rw [session]
    exact hm.of_subset (fun q hq => by cases hq) (fun x hx => (List.mem_filter.1 hx).1)
  | broken breaks session before after silent =>
    rw [session]
    exact hm
  | @dropped seq drops session after silent =>
    rw [session]
    exact hm.dropHandler seq

section Run

variable {cap : Nat} {config : Config} {primary : Option Listener} {s : Session} {past : List Moment}
  {m : Machine}

theorem known_of_run (hnew : Session.new config primary = .ok s)
    (run : Run (.standard cap) { session := s } past m) : m.session.Known := by
  induction run with
  | start =>
    obtain ⟨-, rfl⟩ := Session.new_eq_ok hnew
    exact ⟨fun _ hq => (nomatch hq), fun _ hh => (nomatch hh)⟩
  | next run h ih =>
    have turn := turn_of_next? h (placed_of_run run)
    exact concerns_of_turn turn
      (ih.mono fun r hr => Nat.lt_of_lt_of_le hr (later_of_turn turn).size) fun r x hx => hx.known

end Run

end Spdy
