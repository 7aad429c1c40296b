import Spdy.Proofs.Order

/-!
# What one side says is what the other side receives

The bytes that a side hands over arrive in order, and its session receives what the reader of the other side has read.
So what a session has received is a prefix of what the other one has handed over. With that, each side may take for
granted of the other what `Heeds` says.

* `Pair.Carries`, `carries_of_run` : the bytes that have arrived and what has been read of them;
* `received_of_run` : what has been read comes first of what was handed over, whatever ids streams have;
* `Pair.underway` : what was handed over and has not been received; `spoken_eq_of_carries`;
* `heeds_of_run` : what is received was read off the wire, and in the right order.
-/

namespace Spdy

/-! ## Frames that were read -/

/-- A reader that has read the first bytes of complete frames has told the first of them, up to an exception of the
session, and of all of them if no byte is left. -/
theorem Reader.HasRead.told_of_frames {bs rest : Bytes} {told letters : List Received} {r : Reader}
    {frames : List (Bytes × Bytes)} (h : Reader.HasRead bs told r) (hframing : Framing (bs ++ rest) frames [])
    (hmeans : frames.map (fun f => Received.ofFrame? f.1 f.2) = letters.map some) :
    ∃ front more, letters = front ++ more ∧ told = Received.upToFatal front ∧ (rest = [] → more = []) := by
  obtain ⟨first, kept, hfront⟩ := framing_exists bs
  obtain ⟨back, left, hback⟩ := framing_exists (kept ++ rest)
  obtain ⟨rfl, rfl⟩ := hframing.unique (hfront.append hback)
  rw [List.map_append] at hmeans
  obtain ⟨front, more, rfl, hmeans', hmore⟩ := List.append_eq_map_iff.1 hmeans
  refine ⟨front, more, rfl, ?_, ?_⟩
  · rw [h.told hfront]
    exact (Received.ofFrames_of_means hmeans'.symm).1
  · rintro rfl
    rw [List.append_nil] at hframing
    obtain ⟨hback', -⟩ := hframing.unique hfront
    rw [List.append_right_eq_self.1 hback', List.map_nil] at hmore
    exact List.map_eq_nil_iff.1 hmore

/-- It has told the first of them, and all if no byte is left, if none is an exception of the session. -/
theorem Reader.HasRead.told_of_framing {bs rest : Bytes} {told letters : List Received} {r : Reader}
    {frames : List (Bytes × Bytes)} (h : Reader.HasRead bs told r) (hframing : Framing (bs ++ rest) frames [])
    (hmeans : frames.map (fun f => Received.ofFrame? f.1 f.2) = letters.map some)
    (hcalm : ∀ got ∈ letters, got.isFatal = false) :
    ∃ more, letters = told ++ more ∧ (rest = [] → more = []) := by
  obtain ⟨front, more, rfl, rfl, hempty⟩ := h.told_of_frames hframing hmeans
  refine ⟨more, ?_, hempty⟩
  rw [Received.upToFatal_of_calm fun got hgot => hcalm got (List.mem_append_left _ hgot)]

namespace Pair

variable {cap : Side → Nat} {config : Side → Config} {primary : Side → Option Listener} {s : Side → Session} {p : Pair}

/-! ## Bytes that have arrived -/

/-- Of what a side has handed over some bytes have arrived at the other side, which has read them, and the others are
on their way. -/
def Carries (p : Pair) (x : Side) : Prop :=
  ∃ arrived, Spdy.written (p x).past = arrived ++ (p x).wire ∧
    Reader.HasRead arrived (taken (p x.other).past ++ (p x.other).inbox) (p x.other).reader

theorem carries_log {st st' : Station} {e : Event} {m : Machine} {arrived : Bytes}
    (h : Spdy.written st.past = arrived ++ st.wire) (hpast : st'.past = st.past ++ [⟨st.machine, e, m⟩])
    (hwire : st'.wire = st.wire ++ Moment.written ⟨st.machine, e, m⟩) :
    Spdy.written st'.past = arrived ++ st'.wire := by
  rw [hpast, hwire, written_append, h, List.append_assoc]

theorem taken?_eq_none_of_isReceive {m m' : Machine} {e : Event} (h : e.isReceive = false) :
    Moment.taken? ⟨m, e, m'⟩ = none := by
  cases e with
  | invoke op =>
    cases op with
    | receive got => cases h
    | _ => rfl
  | _ => rfl

theorem Carries.step {p' : Pair} {a : Act} (h : ∀ x, p.Carries x) (moves : Moves cap p a p') (x : Side) :
    p'.Carries x := by
  obtain ⟨arrived, hwritten, hread⟩ := h x
  cases moves with
  | @happens z e m hother hm =>
    have htaken : taken ((p z).log e m).past = taken (p z).past := by
      rw [Station.log, taken_append, taken?_eq_none_of_isReceive hother, Option.toList_none, List.append_nil]
    by_cases hz : x = z
    · subst hz
      refine ⟨arrived, ?_, ?_⟩
      · rw [Function.update_self]
        exact carries_log hwritten rfl rfl
      · rw [Function.update_of_ne x.other_ne]
        exact hread
    · obtain rfl : x = z.other := Side.eq_other_of_ne hz
      refine ⟨arrived, ?_, ?_⟩
      · rw [Function.update_of_ne hz]
        exact hwritten
      · rw [Side.other_other] at hread ⊢
        rw [Function.update_self, htaken]
        exact hread
  | arrives z n =>
    by_cases hz : x = z
    · subst hz
      refine ⟨arrived ++ (p x).wire.take n, ?_, ?_⟩
      · rw [Function.update_of_ne x.other_ne.symm, Function.update_self, List.append_assoc, List.take_append_drop]
        exact hwritten
      · rw [Function.update_self]
        have := hread.feed ((p x).wire.take n)
        rwa [List.append_assoc] at this
    · obtain rfl : x = z.other := Side.eq_other_of_ne hz
      have hz' : z ≠ z.other := Ne.symm hz
      refine ⟨arrived, ?_, ?_⟩
      · rw [Function.update_self]
        exact hwritten
      · rw [Side.other_other] at hread ⊢
        rw [Function.update_of_ne hz', Function.update_self]
        exact hread
  | @reads z got rest m hinbox hfree hm =>
    by_cases hz : x = z
    · subst hz
      refine ⟨arrived, ?_, ?_⟩
      · rw [Function.update_self]
        show Spdy.written ({ p x with inbox := rest }.log (.invoke (.receive got)) m).past = _
        exact carries_log hwritten rfl rfl
      · rw [Function.update_of_ne x.other_ne]
        exact hread
    · obtain rfl : x = z.other := Side.eq_other_of_ne hz
      refine ⟨arrived, ?_, ?_⟩
      · rw [Function.update_of_ne hz]
        exact hwritten
      · rw [Side.other_other] at hread ⊢
        rw [Function.update_self]
        show Reader.HasRead arrived (taken ((p z).past ++ [_]) ++ rest) (p z).reader
        rw [taken_append, List.append_assoc]
        rw [hinbox] at hread
        exact hread

theorem carries_of_run (run : Run cap (new s) p) : ∀ x, p.Carries x := by
  induction run with
  | start => exact fun x => ⟨[], rfl, Reader.hasRead_new⟩
  | next run h ih => exact Carries.step ih (moves_of_next? h)

/-- What has been read of what a side has handed over is the first of it, up to an exception of the session. -/
theorem received_of_run (hnew : ∀ x, Session.new (config x) (primary x) = .ok (s x)) (run : Run cap (new s) p)
    (x : Side) : ∃ front more, spoken (p x).past = front ++ more ∧
      taken (p x.other).past ++ (p x.other).inbox = Received.upToFatal front ∧ ((p x).wire = [] → more = []) := by
  obtain ⟨frames, hframing, hmeans⟩ := frames_of_run (hnew x) (run.session x)
  obtain ⟨arrived, hwritten, hread⟩ := carries_of_run run x
  rw [hwritten] at hframing
  exact hread.told_of_frames hframing hmeans

/-- What a side has received and what it has read come first of what the other side has handed over. -/
theorem received_prefix_of_run (hnew : ∀ x, Session.new (config x) (primary x) = .ok (s x)) (run : Run cap (new s) p)
    (x : Side) : taken (p x.other).past ++ (p x.other).inbox <+: spoken (p x).past := by
  obtain ⟨front, more, hspoken, hreceived, -⟩ := received_of_run hnew run x
  rw [hspoken, hreceived]
  exact (Received.upToFatal_prefix front).trans (List.prefix_append _ _)

/-! ## Letters on their way -/

/-- What a side has handed over and the session of the other side has not received. -/
def underway (p : Pair) (x : Side) : List Received :=
  (spoken (p x).past).drop (taken (p x.other).past).length

section Heeds

variable {resets : Bool}

/-- What the session of a side has handed over, its peer has received, has read or will read. -/
theorem spoken_eq_of_carries {x : Side} (carries : p.Carries x) (hnew : Session.new (config x) (primary x) = .ok (s x))
    (run : Run cap (new s) p) (hfew : Few (p x).past) (heeds : Heeds resets (config x) (p x).past) :
    (∃ more, spoken (p x).past = taken (p x.other).past ++ ((p x.other).inbox ++ more) ∧
      ((p x).wire = [] → more = [])) ∧ ∀ got ∈ spoken (p x).past, got.IsRead := by
  obtain ⟨frames, hframing, hmeans, hcalm⟩ := framing_of_run hnew (run.session x) hfew heeds.read
  obtain ⟨arrived, hwritten, hread⟩ := carries
  rw [hwritten] at hframing
  obtain ⟨more, hmore, hempty⟩ := hread.told_of_framing hframing hmeans fun got hgot => (hcalm got hgot).2
  exact ⟨⟨more, by rw [hmore, List.append_assoc], hempty⟩, fun got hgot => (hcalm got hgot).1⟩

theorem isLocal_other (hfirst : ∀ x, (config x).initialStreamId = x.firstId) (x : Side) (id : UInt32) :
    (config x.other).isLocal id = !(config x).isLocal id := by
  have hiff : ∀ y, (config y).isLocal id = true ↔ id.toNat % 2 = y.firstId.toNat % 2 := by
    intro y
    rw [Config.isLocal_iff, hfirst]
  have hparity : x.other.firstId.toNat % 2 = 1 - x.firstId.toNat % 2 := by
    cases x <;> rfl
  rw [Bool.eq_iff_iff, hiff, hparity, Bool.not_eq_true', ← Bool.not_eq_true, hiff]
  omega

/-- What a session is about to receive is as it takes for granted. -/
theorem heeds_of_reads (hnew : ∀ x, Session.new (config x) (primary x) = .ok (s x))
    (hfirst : ∀ x, (config x).initialStreamId = x.firstId) (run : Run cap (new s) p) (hfew : ∀ x, Few (p x).past)
    (heeds : ∀ x, Heeds resets (config x) (p x).past) {x : Side} {got : Received} {rest : List Received} {m : Machine}
    (inbox : (p x).inbox = got :: rest) :
    Heeds resets (config x) ((p x).past ++ [⟨(p x).machine, .invoke (.receive got), m⟩]) := by
  have hcarries := carries_of_run run
  obtain ⟨⟨more, hspoken, -⟩, hread⟩ := spoken_eq_of_carries (hcarries x.other) (hnew x.other) run (hfew x.other)
    (heeds x.other)
  obtain ⟨⟨more', hspoken', -⟩, -⟩ := spoken_eq_of_carries (hcarries x) (hnew x) run (hfew x) (heeds x)
  rw [Side.other_other, inbox] at hspoken
  have hgot : got ∈ spoken (p x.other).past := by
    rw [hspoken]
    exact List.mem_append_right _ List.mem_cons_self
  have htaken : taken ((p x).past ++ [⟨(p x).machine, .invoke (.receive got), m⟩]) = taken (p x).past ++ [got] := by
    rw [taken_append]
    rfl
  refine ⟨?_, ?_, ?_, ?_⟩
  · intro other hother
    rw [htaken, List.mem_append, List.mem_singleton] at hother
    rcases hother with hother | rfl
    · exact (heeds x).read other hother
    · exact hread other hgot
  · -- it comes in the order in which the other side says it
    rw [htaken]
    have horder := opensFirst_of_run (hnew x.other) (run.session x.other) (hfew x.other) (heeds x.other)
    rw [uttered, hspoken, List.cons_append, List.append_cons, List.append_assoc] at horder
    exact (List.pairwise_append.1 horder).1
  · intro mo hmo got' hgot' id hmention hlocal
    rcases List.mem_append.1 hmo with hmo | hmo
    · exact (heeds x).awaits mo hmo got' hgot' id hmention hlocal
    · -- the other side speaks of a stream of this side because it heard of it
      rw [List.mem_singleton.1 hmo] at hgot' ⊢
      obtain rfl : got = got' := Option.some.inj hgot'
      have hgrounded := grounded_of_run (hnew x.other) (run.session x.other) (hfew x.other) (heeds x.other)
      obtain ⟨other, hother, hmention'⟩ := (hgrounded got (List.mem_append_left _ hgot) id hmention).2
        (by rw [isLocal_other hfirst, hlocal, Bool.not_true])
      have hsaid : other ∈ uttered (p x).past (p x).machine.session := by
        rw [uttered, hspoken']
        exact List.mem_append_left _ (List.mem_append_left _ hother)
      exact (grounded_of_run (hnew x) (run.session x) (hfew x) (heeds x) other hsaid id hmention').1 hlocal
  · intro hresets mo hmo version id status hop
    rcases List.mem_append.1 hmo with hmo | hmo
    · exact (heeds x).asks hresets mo hmo version id status hop
    · rw [List.mem_singleton.1 hmo] at hop
      cases hop

/-- Each side receives what was read off the wire and in the right order, as long as there are not too many streams. If
resets count, the application gives up only streams that are open. -/
theorem heeds_of_run (hnew : ∀ x, Session.new (config x) (primary x) = .ok (s x))
    (hfirst : ∀ x, (config x).initialStreamId = x.firstId) (run : Run cap (new s) p) (hfew : ∀ x, Few (p x).past)
    (hasks : resets → ∀ x, ∀ mo ∈ (p x).past, ∀ version id status, mo.op? = some (.reset version id status) →
      ∃ r ∈ mo.before.session.table, mo.before.session.idOf r = id) :
    ∀ x, Heeds resets (config x) (p x).past := by
  induction run with
  | start =>
    intro x
    exact ⟨fun got hgot => absurd hgot List.not_mem_nil, .nil, fun mo hmo => absurd hmo List.not_mem_nil,
      fun _ mo hmo => absurd hmo List.not_mem_nil⟩
  | @next p p' a run h ih =>
    have moves := moves_of_next? h
    have hpast : ∀ x, ∀ mo ∈ (p x).past, mo ∈ (p' x).past := by
      intro x mo hmo
      cases moves.aside x with
      | still machine past => exact past ▸ hmo
      | moved hm past => exact past ▸ List.mem_append_left _ hmo
    have hfew' : ∀ x, Few (p x).past := by
      intro x
      cases moves.aside x with
      | still machine past => exact past ▸ hfew x
      | moved hm past => exact Few.of_append (past ▸ hfew x)
    have heeds := ih hfew' fun hresets x mo hmo => hasks hresets x mo (hpast x mo hmo)
    intro x
    cases moves.aside x with
    | still machine past => exact past ▸ heeds x
    | @moved e hm past free first =>
      rw [past]
      by_cases he : ∃ got, e = .invoke (.receive got)
      · obtain ⟨got, rfl⟩ := he
        obtain ⟨rest, inbox⟩ := first got rfl
        exact heeds_of_reads hnew hfirst run hfew' heeds inbox
      · refine (heeds x).of_none ?_ fun hresets version id status hop => ?_
        · refine taken?_eq_none_of_isReceive ?_
          rw [Bool.eq_false_iff]
          exact fun hreceive => he (Event.eq_of_isReceive hreceive)
        · exact hasks hresets x _ (past ▸ List.mem_append_right _ List.mem_cons_self) version id status hop

end Heeds

end Pair

end Spdy
