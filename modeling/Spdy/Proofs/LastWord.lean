import Spdy.Proofs.Fin

/-!
# The last word on a stream

* `Heads` : what holds of the control frames of a stream, whatever the application does;
* `Disciplined` : nothing is said after data that closes, and no control frame closes a stream before all of
  its data was handed over;
* `Words` : what holds of all frames of a stream if the application keeps to that;
* `fin_comes_last` : FIN is the last control frame of a stream, and its last frame if the application keeps
  to that.
-/

namespace Spdy

/-! ## Control frames -/

/-- The control frames of a stream, those that were handed over and those that wait: only the last closes
it, and then the stream is closed on this side. -/
structure Heads (r : StreamRef) (past : List Moment) (s : Session) : Prop where
  onlyLast : OnlyLast (sentHeadFins r past ++ s.queuedHeadFins r)
  closed : true ∈ sentHeadFins r past ++ s.queuedHeadFins r → (s.stream r).localClosed

section Moment

variable {cap : Nat} {r : StreamRef} {past : List Moment} {mo : Moment}

theorem queuedHeadFins_of_blocked {s : Session} {before : List Parcel}
    (h : ∀ x ∈ before, s.isReady x = false) : before.filterMap (·.headFin? r) = [] := by
  rw [List.filterMap_eq_nil_iff]
  intro x hx
  cases x with
  | control => cases h _ hx
  | data => rfl

/-- What a moment does to the control frames of a stream: one may be said, and then is the last. -/
theorem heads_of_passage (r : StreamRef) (past : List Moment) (passage : Passage cap mo) :
    ∃ said, (sentHeadFins r (past ++ [mo]) ++ mo.after.session.queuedHeadFins r).Sublist
        (sentHeadFins r past ++ mo.before.session.queuedHeadFins r ++ said) ∧
      (said = [] ∨ ∃ close, said = [close] ∧
        Speaks mo.before.session mo.after.session r (.head close)) := by
  have hsame : mo.Silent →
      (mo.after.session.queuedHeadFins r).Sublist (mo.before.session.queuedHeadFins r) →
      ∃ said, (sentHeadFins r (past ++ [mo]) ++ mo.after.session.queuedHeadFins r).Sublist
          (sentHeadFins r past ++ mo.before.session.queuedHeadFins r ++ said) ∧
        (said = [] ∨ ∃ close, said = [close] ∧
          Speaks mo.before.session mo.after.session r (.head close)) := by
    intro silent h
    refine ⟨[], ?_, .inl rfl⟩
    rw [sentHeadFins_append_of_none silent.handed, List.append_nil]
    exact h.append_left _
  cases passage with
  | @post new parcels outstanding said handed =>
    refine ⟨new.filterMap (·.headFin? r), ?_, ?_⟩
    · have hqueued : mo.after.session.queuedHeadFins r =
          mo.before.session.queuedHeadFins r ++ new.filterMap (·.headFin? r) := by
        rw [Session.queuedHeadFins, parcels, List.filterMap_append, Session.queuedHeadFins]
      rw [sentHeadFins_append_of_none handed, List.append_assoc]
      exact hqueued ▸ List.Sublist.refl _
    · generalize mo.said? = x at said
      cases said with
      | own hown =>
        refine .inl (List.filterMap_eq_nil_iff.2 fun q hq => Parcel.headFin?_of_ne ?_)
        rw [(hown q hq).1]
        simp
      | @head f bytes r' close isHead closes encoded speaks =>
        by_cases hr : r' = r
        · subst hr
          refine .inr ⟨close, ?_, speaks⟩
          simp [Parcel.headFin?, carriesFin_of_encode isHead encoded, closes]
        · refine .inl ?_
          simp [Parcel.headFin?, hr]
      | data speaks => exact .inl rfl
  | @drop before after r' payload written parcels parcels' outstanding reset silent =>
    refine hsame silent ?_
    rw [Session.queuedHeadFins, Session.queuedHeadFins, parcels, parcels']
    exact ((List.Sublist.cons _ (List.Sublist.refl _)).append_left _).filterMap _
  | @hand before after p bytes h parcels parcels' outstanding outstanding' blocked framed said handed =>
    refine ⟨[], ?_, .inl rfl⟩
    have hbefore : before.filterMap (·.headFin? r) = [] := queuedHeadFins_of_blocked blocked
    rw [List.append_nil, Session.queuedHeadFins, Session.queuedHeadFins, parcels, parcels',
      List.filterMap_append, List.filterMap_append, hbefore, List.nil_append, List.nil_append]
    generalize hx : h.parcel = q at framed
    cases framed with
    | control type bytes r' =>
      rw [sentHeadFins_append_of_control handed hx, List.append_assoc]
      by_cases hr : r' = some r <;> simp [Parcel.headFin?, hr]
    | data r' payload written alive window chunk =>
      rw [sentHeadFins_append_of_data handed hx]
      simp [Parcel.headFin?]
  | written parcels outstanding outstanding' whole silent =>
    refine hsame silent ?_
    rw [Session.queuedHeadFins, parcels]
    exact List.Sublist.refl _
  | stuck parcels outstanding outstanding' parcel credit silent =>
    refine hsame silent ?_
    rw [Session.queuedHeadFins, parcels]
    exact List.Sublist.refl _
  | @more h r' payload written before after outstanding outstanding' parcel left parcels parcels' clear
      silent =>
    refine hsame silent ?_
    rw [Session.queuedHeadFins, Session.queuedHeadFins, parcels, parcels', parcel]
    simp [Parcel.headFin?]
  | failed fails parcels outstanding silent =>
    refine hsame silent ?_
    rw [Session.queuedHeadFins, parcels]
    exact List.nil_sublist _
  | dropped drops parcels outstanding silent =>
    refine hsame silent ?_
    rw [Session.queuedHeadFins, parcels]
    exact List.Sublist.refl _

/-- No control frame is to close a stream on which something is said. -/
theorem Heads.not_closing {s t : Session} {x : Speech} (h : Heads r past s) (speaks : Speaks s t r x) :
    ¬true ∈ sentHeadFins r past ++ s.queuedHeadFins r := by
  intro hm
  have := h.closed hm
  rw [speaks.localOpen] at this
  cases this

theorem Heads.not_queued {s t : Session} {x : Speech} (h : Heads r past s) (speaks : Speaks s t r x) :
    ¬true ∈ s.queuedHeadFins r :=
  fun hm => h.not_closing speaks (List.mem_append_right _ hm)

theorem Heads.next (ih : Heads r past mo.before.session) (passage : Passage cap mo)
    (onward : mo.before.session.Onward mo.after.session) :
    Heads r (past ++ [mo]) mo.after.session := by
  obtain ⟨said, hsub, rfl | ⟨close, rfl, speaks⟩⟩ := heads_of_passage r past passage
  · rw [List.append_nil] at hsub
    exact ⟨ih.onlyLast.sublist hsub, fun h => onward.localClosed (ih.closed (hsub.subset h))⟩
  · have hfalse : ∀ a ∈ sentHeadFins r past ++ mo.before.session.queuedHeadFins r, a = false := by
      intro a ha
      cases a with
      | false => rfl
      | true => exact absurd ha (ih.not_closing speaks)
    refine ⟨(OnlyLast.append_singleton hfalse close).sublist hsub, fun h => ?_⟩
    rcases List.mem_append.1 (hsub.subset h) with h | h
    · cases hfalse true h
    · refine speaks.closed ?_
      rw [← List.mem_singleton.1 h]

end Moment

/-! ## All frames -/

/-- Data is said on a stream, and nothing is to follow. -/
def Moment.closesWithData (r : StreamRef) (mo : Moment) : Bool :=
  match mo.said? with
  | some (r', .data payload) => decide (r' = r) && payload.close
  | _ => false

def Moment.speaksOn (r : StreamRef) (mo : Moment) : Bool := mo.said?.any fun p => p.1 = r

/-- Data of a stream waits, or is the rest of what is being written. -/
def Session.hasDataLeft (s : Session) (r : StreamRef) : Bool :=
  s.outbox.parcels.any (·.dataOf? = some r) || !(s.restFins r).isEmpty

/-- How an application sees to it that FIN comes last: it says nothing after data that closes, and closes
with a control frame only when all data was handed over. -/
structure Disciplined (r : StreamRef) (past : List Moment) : Prop where
  dataLast : past.Pairwise fun a b => a.closesWithData r → b.speaksOn r = false
  headLast : ∀ mo ∈ past, mo.said? = some (r, .head true) → mo.before.session.hasDataLeft r = false

theorem Session.hasDataLeft_eq_false {s : Session} {r : StreamRef} :
    s.hasDataLeft r = false ↔
      (∀ q ∈ s.outbox.parcels, q.dataOf? ≠ some r) ∧ s.restFins r = [] := by
  simp [hasDataLeft]

/-- The frames of a stream, those that were handed over and those to come: only the last closes it, and
then the application has closed it. -/
structure Words (r : StreamRef) (past : List Moment) (s : Session) : Prop where
  onlyLast : OnlyLast (sentFins r past ++ (s.restFins r ++ s.queuedFins r))
  closed : true ∈ sentFins r past ++ (s.restFins r ++ s.queuedFins r) →
    (s.stream r).localClosed ∨ ∃ mo ∈ past, mo.closesWithData r
  parted : true ∈ s.queuedHeadFins r → s.hasDataLeft r = false

section Moment

variable {cap : Nat} {r : StreamRef} {past : List Moment} {mo : Moment} {s t : Session}

theorem Session.restFins_of_nil (h : s.outstanding = []) : s.restFins r = [] := by
  rw [restFins, h]
  rfl

theorem Session.restFins_of_singleton {x : Handler} (h : s.outstanding = [x]) :
    s.restFins r = (x.parcel.restFin? r).toList := by
  rw [restFins, h]
  cases hx : x.parcel.restFin? r <;> simp [hx]

theorem Session.queuedFins_of_eq {before after : List Parcel} {p : Parcel}
    (h : s.outbox.parcels = before ++ p :: after) :
    s.queuedFins r =
      before.filterMap (·.fin? r) ++ ((p.fin? r).toList ++ after.filterMap (·.fin? r)) := by
  rw [queuedFins, h, List.filterMap_append]
  cases hp : p.fin? r <;> simp [hp]

theorem Session.queuedFins_of_append {before after : List Parcel}
    (h : s.outbox.parcels = before ++ after) :
    s.queuedFins r = before.filterMap (·.fin? r) ++ after.filterMap (·.fin? r) := by
  rw [queuedFins, h, List.filterMap_append]

theorem Session.queuedHeadFins_mem (h : ∀ q ∈ t.outbox.parcels, q ∈ s.outbox.parcels)
    (ht : true ∈ t.queuedHeadFins r) : true ∈ s.queuedHeadFins r := by
  obtain ⟨q, hq, hfin⟩ := List.mem_filterMap.1 ht
  exact List.mem_filterMap.2 ⟨q, h q hq, hfin⟩

theorem Words.closed_later (ih : Words r past mo.before.session)
    (onward : mo.before.session.Onward mo.after.session)
    (h : true ∈ sentFins r past ++
      (mo.before.session.restFins r ++ mo.before.session.queuedFins r)) :
    (mo.after.session.stream r).localClosed ∨ ∃ mo' ∈ past ++ [mo], mo'.closesWithData r := by
  rcases ih.closed h with h | ⟨mo', hmo', h⟩
  · exact .inl (onward.localClosed h)
  · exact .inr ⟨mo', List.mem_append_left _ hmo', h⟩

/-- Nothing comes from a stream but what was to come, and not later. -/
theorem Words.next_of_sublist (ih : Words r past mo.before.session)
    (onward : mo.before.session.Onward mo.after.session)
    (hsent : sentFins r (past ++ [mo]) = sentFins r past)
    (hrest : (mo.after.session.restFins r).Sublist (mo.before.session.restFins r))
    (hqueued : (mo.after.session.queuedFins r).Sublist (mo.before.session.queuedFins r))
    (hheads : true ∈ mo.after.session.queuedHeadFins r → true ∈ mo.before.session.queuedHeadFins r)
    (hdata : ∀ q ∈ mo.after.session.outbox.parcels, q.dataOf? = some r →
      ∃ q' ∈ mo.before.session.outbox.parcels, q'.dataOf? = some r) :
    Words r (past ++ [mo]) mo.after.session := by
  have hsub : (sentFins r (past ++ [mo]) ++
      (mo.after.session.restFins r ++ mo.after.session.queuedFins r)).Sublist
        (sentFins r past ++ (mo.before.session.restFins r ++ mo.before.session.queuedFins r)) := by
    rw [hsent]
    exact (hrest.append hqueued).append_left _
  refine ⟨ih.onlyLast.sublist hsub, fun h => ih.closed_later onward (hsub.subset h), fun h => ?_⟩
  · obtain ⟨hnone, hnil⟩ := Session.hasDataLeft_eq_false.1 (ih.parted (hheads h))
    refine Session.hasDataLeft_eq_false.2 ⟨fun q hq hr => ?_, ?_⟩
    · obtain ⟨q', hq', hr'⟩ := hdata q hq hr
      exact hnone q' hq' hr'
    · rw [hnil] at hrest
      exact List.sublist_nil.1 hrest

/-- Nothing was to close a stream on which something is said. -/
theorem Words.false_of_speaks {x : Speech} (ih : Words r past mo.before.session)
    (hd : Disciplined r (past ++ [mo])) (hsaid : mo.said? = some (r, x))
    (speaks : Speaks mo.before.session mo.after.session r x) :
    ∀ a ∈ sentFins r past ++ (mo.before.session.restFins r ++ mo.before.session.queuedFins r),
      a = false := by
  intro a ha
  cases a with
  | false => rfl
  | true =>
    rcases ih.closed ha with h | ⟨mo', hmo', h⟩
    · rw [speaks.localOpen] at h
      cases h
    · have hquiet := (List.pairwise_append.1 hd.dataLast).2.2 mo' hmo' mo (List.mem_singleton_self mo) h
      rw [Moment.speaksOn, hsaid] at hquiet
      simp at hquiet

/-- What is said on a stream comes after all its frames. -/
theorem Words.say {x : Speech} (ih : Words r past mo.before.session)
    (hd : Disciplined r (past ++ [mo])) (hsaid : mo.said? = some (r, x))
    (speaks : Speaks mo.before.session mo.after.session r x)
    (hsent : sentFins r (past ++ [mo]) = sentFins r past)
    (hrest : mo.after.session.restFins r = mo.before.session.restFins r)
    (hqueued : mo.after.session.queuedFins r = mo.before.session.queuedFins r ++ [x.closes])
    (hparted : true ∈ mo.after.session.queuedHeadFins r →
      mo.after.session.hasDataLeft r = false) : Words r (past ++ [mo]) mo.after.session := by
  have hfalse := ih.false_of_speaks hd hsaid speaks
  have hlist : sentFins r (past ++ [mo]) ++
      (mo.after.session.restFins r ++ mo.after.session.queuedFins r) =
        sentFins r past ++ (mo.before.session.restFins r ++ mo.before.session.queuedFins r) ++
          [x.closes] := by
    rw [hsent, hrest, hqueued]
    simp only [List.append_assoc]
  refine ⟨?_, fun h => ?_, hparted⟩
  · rw [hlist]
    exact OnlyLast.append_singleton hfalse x.closes
  · rw [hlist] at h
    rcases List.mem_append.1 h with h | h
    · cases hfalse true h
    · have hcloses : x.closes = true := (List.mem_singleton.1 h).symm
      cases x with
      | head close =>
        obtain rfl : close = true := hcloses
        exact .inl (speaks.closed rfl)
      | data payload =>
        refine .inr ⟨mo, List.mem_append_right _ List.mem_cons_self, ?_⟩
        obtain hcloses : payload.close = true := hcloses
        simp [Moment.closesWithData, hsaid, hcloses]

theorem Words.post {new : List Parcel} (ih : Words r past mo.before.session)
    (heads : Heads r past mo.before.session) (hd : Disciplined r (past ++ [mo]))
    (onward : mo.before.session.Onward mo.after.session)
    (parcels : mo.after.session.outbox.parcels = mo.before.session.outbox.parcels ++ new)
    (outstanding : mo.after.session.outstanding = mo.before.session.outstanding)
    (said : Posted (.standard cap) mo.before.session mo.after.session mo.said? new)
    (handed : mo.handed? = none) : Words r (past ++ [mo]) mo.after.session := by
  have hsent : sentFins r (past ++ [mo]) = sentFins r past := sentFins_append_of_none handed
  have hrest : mo.after.session.restFins r = mo.before.session.restFins r := by
    rw [Session.restFins, outstanding, Session.restFins]
  have hqueued : mo.after.session.queuedFins r =
      mo.before.session.queuedFins r ++ new.filterMap (·.fin? r) :=
    Session.queuedFins_of_append parcels
  have hheads : mo.after.session.queuedHeadFins r =
      mo.before.session.queuedHeadFins r ++ new.filterMap (·.headFin? r) := by
    rw [Session.queuedHeadFins, parcels, List.filterMap_append, Session.queuedHeadFins]
  -- what is posted on the account of someone else changes nothing
  have hother : (∀ q ∈ new, q.stream? ≠ some r ∧ q.dataOf? ≠ some r) →
      Words r (past ++ [mo]) mo.after.session := by
    intro h
    have hfin : new.filterMap (·.fin? r) = [] :=
      List.filterMap_eq_nil_iff.2 fun q hq => Parcel.fin?_of_ne (h q hq).1
    have hhead : new.filterMap (·.headFin? r) = [] :=
      List.filterMap_eq_nil_iff.2 fun q hq => Parcel.headFin?_of_ne (h q hq).1
    rw [hfin, List.append_nil] at hqueued
    rw [hhead, List.append_nil] at hheads
    refine ih.next_of_sublist onward hsent ?_ ?_ (fun hm => hheads ▸ hm) fun q hq hr => ?_
    · exact hrest ▸ List.Sublist.refl _
    · exact hqueued ▸ List.Sublist.refl _
    · rw [parcels] at hq
      rcases List.mem_append.1 hq with hq | hq
      · exact ⟨q, hq, hr⟩
      · exact absurd hr (h q hq).2
  generalize hsaid : mo.said? = x at said
  cases said with
  | own hown => exact hother fun q hq => by rw [(hown q hq).1, (hown q hq).2]; simp
  | @head f bytes r' close isHead closes encoded speaks =>
    by_cases hr : r' = r
    · subst hr
      have hfin : carriesFin bytes = close := by rw [carriesFin_of_encode isHead encoded, closes]
      refine ih.say hd hsaid speaks hsent hrest ?_ fun h => ?_
      · rw [hqueued]
        simp [Parcel.fin?, hfin, Speech.closes]
      · rw [hheads] at h
        rcases List.mem_append.1 h with h | h
        · exact absurd h (heads.not_queued speaks)
        · obtain rfl : close = true := by simpa [Parcel.headFin?, hfin, eq_comm] using h
          have hleft := hd.headLast mo (by simp) hsaid
          obtain ⟨hnone, hnil⟩ := Session.hasDataLeft_eq_false.1 hleft
          refine Session.hasDataLeft_eq_false.2 ⟨fun q hq => ?_, by rw [hrest, hnil]⟩
          rw [parcels] at hq
          rcases List.mem_append.1 hq with hq | hq
          · exact hnone q hq
          · rw [List.mem_singleton.1 hq]
            simp [Parcel.dataOf?]
    · refine hother fun q hq => ?_
      rw [List.mem_singleton.1 hq]
      simp [Parcel.stream?, Parcel.dataOf?, hr]
  | @data r' payload speaks =>
    by_cases hr : r' = r
    · subst hr
      refine ih.say hd hsaid speaks hsent hrest ?_ fun h => ?_
      · rw [hqueued]
        simp [Parcel.fin?, Speech.closes]
      · rw [hheads] at h
        simp only [List.filterMap_cons, Parcel.headFin?, List.filterMap_nil, List.append_nil] at h
        exact absurd h (heads.not_queued speaks)
    · refine hother fun q hq => ?_
      rw [List.mem_singleton.1 hq]
      simp [Parcel.stream?, Parcel.dataOf?, hr]

theorem Words.hand_other {before after : List Parcel} {p : Parcel} {bytes : Bytes} {h : Handler}
    (ih : Words r past mo.before.session) (onward : mo.before.session.Onward mo.after.session)
    (parcels : mo.before.session.outbox.parcels = before ++ p :: after)
    (parcels' : mo.after.session.outbox.parcels = before ++ after)
    (outstanding' : mo.after.session.outstanding = [h]) (hp : p.stream? ≠ some r)
    (hstream : h.parcel.stream? = p.stream?) (handed : mo.handed? = some (bytes, h)) :
    Words r (past ++ [mo]) mo.after.session := by
  have hsub : mo.after.session.outbox.parcels.Sublist mo.before.session.outbox.parcels := by
    rw [parcels, parcels']
    exact (List.sublist_cons_self _ _).append_left _
  have hother : h.parcel.stream? ≠ some r := hstream ▸ hp
  have hsent := sentFins_append_of_some r past handed
  rw [if_neg hother, List.append_nil] at hsent
  refine ih.next_of_sublist onward hsent ?_ (hsub.filterMap _)
    (Session.queuedHeadFins_mem fun q hq => hsub.subset hq) fun q hq hr => ⟨q, hsub.subset hq, hr⟩
  rw [Session.restFins_of_singleton outstanding', Parcel.restFin?_of_ne hother]
  exact List.nil_sublist _

/-- A control frame overtakes data, but only if it does not close the stream. -/
theorem Words.hand_control {before after : List Parcel} {type : FrameType} {bytes : Bytes} {h : Handler}
    (ih : Words r past mo.before.session) (onward : mo.before.session.Onward mo.after.session)
    (parcels : mo.before.session.outbox.parcels = before ++ .control type bytes (some r) :: after)
    (parcels' : mo.after.session.outbox.parcels = before ++ after)
    (outstanding : mo.before.session.outstanding = [])
    (outstanding' : mo.after.session.outstanding = [h])
    (hparcel : h.parcel = .control type bytes (some r))
    (blocked : ∀ x ∈ before, mo.before.session.isReady x = false)
    (handed : mo.handed? = some (bytes, h)) : Words r (past ++ [mo]) mo.after.session := by
  have hmem : ∀ q ∈ mo.after.session.outbox.parcels, q ∈ mo.before.session.outbox.parcels := by
    rw [parcels, parcels']
    exact ((List.sublist_cons_self _ _).append_left _).subset
  have hrest : mo.before.session.restFins r = [] := Session.restFins_of_nil outstanding
  have hrest' : mo.after.session.restFins r = [] := by
    rw [Session.restFins_of_singleton outstanding', hparcel]
    rfl
  have hqueued := Session.queuedFins_of_eq (r := r) parcels
  have hqueued' := Session.queuedFins_of_append (r := r) parcels'
  have hsent := sentFins_append_of_some r past handed
  rw [Parcel.fin?, if_pos rfl, Option.toList_some, List.singleton_append] at hqueued
  rw [if_pos (by rw [hparcel, Parcel.stream?])] at hsent
  have hlist : sentFins r (past ++ [mo]) ++
      (mo.after.session.restFins r ++ mo.after.session.queuedFins r) =
        sentFins r past ++ carriesFin bytes ::
          (before.filterMap (·.fin? r) ++ after.filterMap (·.fin? r)) := by
    rw [hsent, hrest', hqueued', List.nil_append, List.append_assoc, List.singleton_append]
  have honly := ih.onlyLast
  rw [hrest, hqueued, List.nil_append] at honly
  refine ⟨?_, fun hm => ?_, fun hm => ?_⟩
  · rw [hlist]
    cases hc : carriesFin bytes with
    | false => exact OnlyLast.advance (hc ▸ honly)
    | true =>
      -- a frame that closes the stream has none of its data before it
      have hhead : true ∈ mo.before.session.queuedHeadFins r := by
        refine List.mem_filterMap.2 ⟨.control type bytes (some r), ?_, ?_⟩
        · rw [parcels]
          exact List.mem_append_right _ List.mem_cons_self
        · rw [Parcel.headFin?, if_pos rfl, hc]
      obtain ⟨hnone, -⟩ := Session.hasDataLeft_eq_false.1 (ih.parted hhead)
      have hclear : ∀ q ∈ before, q.dataOf? ≠ some r := by
        intro q hq
        exact hnone q (by rw [parcels]; exact List.mem_append_left _ hq)
      have hbefore : before.filterMap (·.fin? r) = [] := by
        rw [Parcel.filterMap_fin?_of_clear hclear]
        exact queuedHeadFins_of_blocked blocked
      rw [hbefore, hc] at honly
      rw [hbefore]
      exact honly
  · rw [hlist] at hm
    refine ih.closed_later onward ?_
    rw [hrest, hqueued, List.nil_append]
    exact (List.perm_middle.append_left _).mem_iff.2 hm
  · obtain ⟨hnone, -⟩ := Session.hasDataLeft_eq_false.1
      (ih.parted (Session.queuedHeadFins_mem hmem hm))
    exact Session.hasDataLeft_eq_false.2 ⟨fun q hq => hnone q (hmem q hq), hrest'⟩

/-- A frame of data is followed by the rest of its data, and FIN is in the frame that has no rest. -/
theorem Words.hand_data {before after : List Parcel} {payload rest : Payload} {written written' : Nat}
    {frame : DataFrame} {h : Handler} {window : Int} {id : UInt32} (ih : Words r past mo.before.session)
    (onward : mo.before.session.Onward mo.after.session)
    (parcels : mo.before.session.outbox.parcels = before ++ .data r payload written :: after)
    (parcels' : mo.after.session.outbox.parcels = before ++ after)
    (outstanding : mo.before.session.outstanding = [])
    (outstanding' : mo.after.session.outstanding = [h]) (hparcel : h.parcel = .data r rest written')
    (blocked : ∀ x ∈ before, mo.before.session.isReady x = false)
    (ready : (mo.before.session.stream r).isReady)
    (chunk : payload.chunk (Encoder.clampCap cap) id window = (frame, rest))
    (handed : mo.handed? = some (frame.encode, h)) : Words r (past ++ [mo]) mo.after.session := by
  have hmem : ∀ q ∈ mo.after.session.outbox.parcels, q ∈ mo.before.session.outbox.parcels := by
    rw [parcels, parcels']
    exact ((List.sublist_cons_self _ _).append_left _).subset
  obtain ⟨hcarries, hclose⟩ := carriesFin_chunk chunk
  have hrest : mo.before.session.restFins r = [] := Session.restFins_of_nil outstanding
  have hrest' := Session.restFins_of_singleton (r := r) outstanding'
  have hqueued := Session.queuedFins_of_eq (r := r) parcels
  have hqueued' := Session.queuedFins_of_append (r := r) parcels'
  have hsent := sentFins_append_of_some r past handed
  have hclear : ∀ q ∈ before, q.dataOf? ≠ some r := by
    intro q hq
    exact Session.dataOf?_ne_of_blocked (blocked q hq) ready
  have hbefore : before.filterMap (·.fin? r) = [] := by
    rw [Parcel.filterMap_fin?_of_clear hclear]
    exact queuedHeadFins_of_blocked blocked
  rw [hparcel] at hrest'
  rw [hbefore, Parcel.fin?, if_pos rfl, Option.toList_some, List.nil_append,
    List.singleton_append] at hqueued
  rw [hbefore, List.nil_append] at hqueued'
  rw [if_pos (by rw [hparcel, Parcel.stream?]), hcarries] at hsent
  have honly := ih.onlyLast
  rw [hrest, hqueued, List.nil_append] at honly
  have hparted : ¬true ∈ mo.after.session.queuedHeadFins r := by
    intro hm
    obtain ⟨hnone, -⟩ := Session.hasDataLeft_eq_false.1
      (ih.parted (Session.queuedHeadFins_mem hmem hm))
    exact hnone (.data r payload written)
      (by rw [parcels]; exact List.mem_append_right _ List.mem_cons_self) rfl
  have hempty : rest.isEmpty ↔ rest.bytes = [] := List.isEmpty_iff
  by_cases hnil : rest.bytes = []
  · have hlist : sentFins r (past ++ [mo]) ++
        (mo.after.session.restFins r ++ mo.after.session.queuedFins r) =
          sentFins r past ++ payload.close :: after.filterMap (·.fin? r) := by
      rw [hsent, hrest', hqueued', hempty.2 hnil]
      simp [Parcel.restFin?, hnil]
    refine ⟨?_, fun hm => ?_, fun hm => absurd hm hparted⟩
    · rw [hlist]
      exact honly
    · rw [hlist] at hm
      refine ih.closed_later onward ?_
      rw [hrest, hqueued]
      exact hm
  · have hnempty : rest.isEmpty = false := Bool.eq_false_iff.2 (mt hempty.1 hnil)
    have hlist : sentFins r (past ++ [mo]) ++
        (mo.after.session.restFins r ++ mo.after.session.queuedFins r) =
          sentFins r past ++ false :: payload.close :: after.filterMap (·.fin? r) := by
      rw [hsent, hrest', hqueued', hnempty]
      simp [Parcel.restFin?, hnil, hclose]
    refine ⟨?_, fun hm => ?_, fun hm => absurd hm hparted⟩
    · rw [hlist]
      obtain ⟨hfalse, hlast⟩ := OnlyLast.append_cons_iff.1 honly
      exact OnlyLast.append_cons_iff.2 ⟨hfalse, OnlyLast.cons_false_iff.2 hlast⟩
    · rw [hlist] at hm
      refine ih.closed_later onward ?_
      rw [hrest, hqueued, List.nil_append]
      rcases List.mem_append.1 hm with hm | hm
      · exact List.mem_append_left _ hm
      · rcases List.mem_cons.1 hm with hm | hm
        · cases hm
        · exact List.mem_append_right _ hm

/-- The rest of data is put back where nothing that closes the stream is ahead of it. -/
theorem Words.more {before after : List Parcel} {payload : Payload} {written : Nat} {r' : StreamRef}
    {h : Handler} (ih : Words r past mo.before.session)
    (onward : mo.before.session.Onward mo.after.session)
    (outstanding : mo.before.session.outstanding = [h])
    (outstanding' : mo.after.session.outstanding = []) (parcel : h.parcel = .data r' payload written)
    (left : payload.bytes ≠ []) (parcels : mo.before.session.outbox.parcels = before ++ after)
    (parcels' : mo.after.session.outbox.parcels = before ++ h.parcel :: after)
    (clear : ∀ q ∈ before, q.dataOf? ≠ some r') (silent : mo.Silent) :
    Words r (past ++ [mo]) mo.after.session := by
  have hsent : sentFins r (past ++ [mo]) = sentFins r past := sentFins_append_of_none silent.handed
  have hrest := Session.restFins_of_singleton (r := r) outstanding
  have hrest' : mo.after.session.restFins r = [] := Session.restFins_of_nil outstanding'
  have hqueued := Session.queuedFins_of_append (r := r) parcels
  have hqueued' := Session.queuedFins_of_eq (r := r) parcels'
  rw [parcel] at hrest hqueued'
  have hheads : mo.after.session.queuedHeadFins r = mo.before.session.queuedHeadFins r := by
    rw [Session.queuedHeadFins, Session.queuedHeadFins, parcels, parcels', parcel]
    simp [Parcel.headFin?]
  by_cases hr : r' = r
  · subst hr
    rw [Parcel.restFin?, if_pos ⟨rfl, left⟩, Option.toList_some] at hrest
    rw [Parcel.fin?, if_pos rfl, Option.toList_some, List.singleton_append] at hqueued'
    have hparted : ¬true ∈ mo.before.session.queuedHeadFins r' := by
      intro hm
      obtain ⟨-, hnil⟩ := Session.hasDataLeft_eq_false.1 (ih.parted hm)
      rw [hrest] at hnil
      cases hnil
    have hbefore : ∀ a ∈ before.filterMap (·.fin? r'), a = false := by
      intro a ha
      cases a with
      | false => rfl
      | true =>
        rw [Parcel.filterMap_fin?_of_clear clear] at ha
        refine absurd ?_ hparted
        rw [Session.queuedHeadFins, parcels, List.filterMap_append]
        exact List.mem_append_left _ ha
    have honly := ih.onlyLast
    rw [hrest, hqueued, List.singleton_append] at honly
    have hlist : sentFins r' (past ++ [mo]) ++
        (mo.after.session.restFins r' ++ mo.after.session.queuedFins r') =
          sentFins r' past ++ (before.filterMap (·.fin? r') ++
            payload.close :: after.filterMap (·.fin? r')) := by
      rw [hsent, hrest', hqueued', List.nil_append]
    refine ⟨?_, fun hm => ?_, fun hm => absurd (hheads ▸ hm) hparted⟩
    · rw [hlist]
      cases hc : payload.close with
      | false => exact OnlyLast.retreat hbefore (hc ▸ honly)
      | true =>
        rw [hc] at honly
        obtain ⟨hfalse, hlast⟩ := OnlyLast.append_cons_iff.1 honly
        obtain ⟨hnil, hnil'⟩ := List.append_eq_nil_iff.1 (OnlyLast.eq_nil_of_cons_true hlast)
        rw [hnil, hnil']
        exact OnlyLast.append_singleton hfalse true
    · rw [hlist] at hm
      refine ih.closed_later onward ?_
      rw [hrest, hqueued, List.singleton_append]
      exact (List.perm_middle.append_left _).mem_iff.1 hm
  · rw [Parcel.fin?, if_neg hr, Option.toList_none, List.nil_append] at hqueued'
    refine ih.next_of_sublist onward hsent ?_ ?_ (fun hm => hheads ▸ hm) fun q hq hq' => ?_
    · rw [hrest']
      exact List.nil_sublist _
    · exact hqueued ▸ hqueued' ▸ List.Sublist.refl _
    · rw [parcels', parcel] at hq
      rw [parcels]
      rcases List.mem_append.1 hq with hq | hq
      · exact ⟨q, List.mem_append_left _ hq, hq'⟩
      · rcases List.mem_cons.1 hq with rfl | hq
        · exact absurd (by simpa [Parcel.dataOf?] using hq') hr
        · exact ⟨q, List.mem_append_right _ hq, hq'⟩

theorem Words.next (ih : Words r past mo.before.session) (heads : Heads r past mo.before.session)
    (hd : Disciplined r (past ++ [mo])) (onward : mo.before.session.Onward mo.after.session)
    (passage : Passage cap mo) : Words r (past ++ [mo]) mo.after.session := by
  have hsilent : mo.Silent →
      mo.after.session.outbox.parcels.Sublist mo.before.session.outbox.parcels →
      (mo.after.session.restFins r).Sublist (mo.before.session.restFins r) →
      Words r (past ++ [mo]) mo.after.session := by
    intro silent hsub hrest
    exact ih.next_of_sublist onward (sentFins_append_of_none silent.handed) hrest (hsub.filterMap _)
      (Session.queuedHeadFins_mem fun q hq => hsub.subset hq) fun q hq hr => ⟨q, hsub.subset hq, hr⟩
  have hnone : mo.after.session.outstanding = [] →
      (mo.after.session.restFins r).Sublist (mo.before.session.restFins r) := by
    intro hout
    rw [Session.restFins_of_nil hout]
    exact List.nil_sublist _
  cases passage with
  | post parcels outstanding said handed =>
    exact ih.post heads hd onward parcels outstanding said handed
  | @drop before after r' payload written parcels parcels' outstanding reset silent =>
    refine hsilent silent ?_ ?_
    · rw [parcels, parcels']
      exact (List.sublist_cons_self _ _).append_left _
    · rw [Session.restFins, outstanding]
      exact List.Sublist.refl _
  | @hand before after p bytes h parcels parcels' outstanding outstanding' blocked framed said handed =>
    by_cases hr : p.stream? = some r
    · generalize hparcel : h.parcel = q at framed
      cases framed with
      | control type bytes r' =>
        obtain rfl : r' = some r := hr
        exact ih.hand_control onward parcels parcels' outstanding outstanding' hparcel blocked handed
      | data r' payload written alive window chunk =>
        obtain rfl : r' = r := Option.some.inj hr
        refine ih.hand_data onward parcels parcels' outstanding outstanding' hparcel blocked ?_ chunk
          handed
        rw [Stream.isReady, decide_eq_true window, Bool.or_true]
    · exact ih.hand_other onward parcels parcels' outstanding' hr framed.stream? handed
  | written parcels outstanding outstanding' whole silent =>
    exact hsilent silent (parcels ▸ List.Sublist.refl _) (hnone outstanding')
  | stuck parcels outstanding outstanding' parcel credit silent =>
    exact hsilent silent (parcels ▸ List.Sublist.refl _) (hnone outstanding')
  | more outstanding outstanding' parcel left parcels parcels' clear silent =>
    exact ih.more onward outstanding outstanding' parcel left parcels parcels' clear silent
  | failed fails parcels outstanding silent =>
    exact hsilent silent (parcels ▸ List.nil_sublist _) (hnone outstanding)
  | dropped drops parcels outstanding silent =>
    exact hsilent silent (parcels ▸ List.Sublist.refl _) (outstanding.filterMap _)

end Moment

/-! ## Over a run -/

section Run

variable {cap : Nat} {config : Config} {primary : Option Listener} {s : Session} {past : List Moment}
  {m : Machine}

theorem heads_of_run (hnew : Session.new config primary = .ok s)
    (run : Run (.standard cap) { session := s } past m) (r : StreamRef) : Heads r past m.session := by
  induction run with
  | start =>
    obtain ⟨-, rfl⟩ := Session.new_eq_ok hnew
    exact ⟨.nil, fun h => (nomatch h)⟩
  | next run h ih =>
    have turn := turn_of_next? h (placed_of_run run)
    exact ih.next (passage_of_turn turn (owed_le_of_new hnew run)) (later_of_turn turn)

theorem words_of_run (hnew : Session.new config primary = .ok s)
    (run : Run (.standard cap) { session := s } past m) {r : StreamRef} (hd : Disciplined r past) :
    Words r past m.session := by
  induction run with
  | start =>
    obtain ⟨-, rfl⟩ := Session.new_eq_ok hnew
    exact ⟨.nil, fun h => (nomatch h), fun h => (nomatch h)⟩
  | next run h ih =>
    have turn := turn_of_next? h (placed_of_run run)
    have hpast := ih ⟨(List.pairwise_append.1 hd.dataLast).1, fun mo hmo =>
      hd.headLast mo (List.mem_append_left _ hmo)⟩
    exact hpast.next (heads_of_run hnew run r) hd (later_of_turn turn)
      (passage_of_turn turn (owed_le_of_new hnew run))

end Run

/-- Of the control frames of a stream that are handed to the controller, at most one carries FIN, and it
is the last. Of all frames of the stream this holds if the application says nothing on it after data that
closes it, and closes it with a control frame only when no data is left: data closes a stream when its
last byte was written, and control frames do not wait for data. -/
theorem fin_comes_last {cap : Nat} {config : Config} {primary : Option Listener} {s : Session}
    {past : List Moment} {m : Machine} (hnew : Session.new config primary = .ok s)
    (run : Run (.standard cap) { session := s } past m) (r : StreamRef) :
    (headFramesOf r past).Pairwise (fun f _ => carriesFin f.1 = false) ∧
      (Disciplined r past → (framesOf r past).Pairwise fun f _ => carriesFin f.1 = false) := by
  constructor
  · have h := (heads_of_run hnew run r).onlyLast.sublist (List.sublist_append_left _ _)
    exact List.pairwise_map.1 h
  · intro hd
    have h := (words_of_run hnew run hd).onlyLast.sublist (List.sublist_append_left _ _)
    exact List.pairwise_map.1 h

/-- Data in two frames, of which the second waits for the window. -/
theorem fin_comes_last_in_second_frame : ∃ s past m,
    Session.new { Config.client with initialWindow := 2 } none = .ok s ∧
      Run (.standard 16384) { session := s } past m ∧ Disciplined ⟨0⟩ past ∧
      (framesOf ⟨0⟩ past).map (carriesFin ·.1) = [false, false, true] ∧
      (framesOf ⟨0⟩ past).Pairwise fun f _ => carriesFin f.1 = false := by
  have hnew : Session.new { Config.client with initialWindow := 2 } none =
      .ok (.fresh { Config.client with initialWindow := 2 } none) := rfl
  have hrun := Machine.run_of_replay? (.standard 16384)
    { session := .fresh { Config.client with initialWindow := 2 } none }
    [.invoke (.syn .v3 (.plain default false) none), .tick, .tick, .answer none, .tick, .leave,
      .invoke (.complete 1), .tick, .tick, .tick, .leave,
      .invoke (.data ⟨0⟩ ⟨[1, 2, 3], true⟩), .tick, .invoke (.complete 2), .tick, .leave, .answer none,
      .tick, .tick, .leave,
      .invoke (.receive (.control ⟨.v3, .windowUpdate 1 5⟩)), .tick] rfl
  exact ⟨_, _, _, hnew, hrun, ⟨by decide, by decide⟩, by decide,
    (fin_comes_last hnew hrun ⟨0⟩).2 ⟨by decide, by decide⟩⟩

/-- FIN is not the last word if more data is said while the data that closes is being written, nor if a
control frame closes the stream while data waits for the window. -/
theorem fin_not_last :
    (∃ s past m, Session.new .client none = .ok s ∧ Run (.standard 16384) { session := s } past m ∧
      (∀ mo ∈ past, mo.said? = some (⟨0⟩, .head true) →
        mo.before.session.hasDataLeft ⟨0⟩ = false) ∧
      ¬(framesOf ⟨0⟩ past).Pairwise fun f _ => carriesFin f.1 = false) ∧
    (∃ s past m, Session.new { Config.client with initialWindow := 1 } none = .ok s ∧
      Run (.standard 16384) { session := s } past m ∧
      (past.Pairwise fun a b => a.closesWithData ⟨0⟩ → b.speaksOn ⟨0⟩ = false) ∧
      ¬(framesOf ⟨0⟩ past).Pairwise fun f _ => carriesFin f.1 = false) := by
  constructor
  · have hrun := Machine.run_of_replay? (.standard 16384) { session := .fresh .client none }
      [.invoke (.syn .v3 (.plain default false) none), .tick, .tick, .answer none, .tick, .leave,
        .invoke (.complete 1), .tick, .tick, .tick, .leave,
        .invoke (.data ⟨0⟩ ⟨[1], true⟩), .tick, .answer none, .tick, .leave,
        .invoke (.data ⟨0⟩ ⟨[2], true⟩), .tick, .leave,
        .invoke (.complete 2), .tick, .tick, .tick] rfl
    exact ⟨_, _, _, rfl, hrun, by decide, by decide⟩
  · have hrun := Machine.run_of_replay? (.standard 16384)
      { session := .fresh { Config.client with initialWindow := 1 } none }
      [.invoke (.syn .v3 (.plain default false) none), .tick, .tick, .answer none, .tick, .leave,
        .invoke (.complete 1), .tick, .tick, .tick, .leave,
        .invoke (.data ⟨0⟩ ⟨[1, 2], false⟩), .tick, .answer none, .tick, .leave,
        .invoke (.complete 2), .tick, .tick, .leave,
        .invoke (.headers ⟨0⟩ ⟨default, true⟩), .tick, .answer none, .tick, .leave,
        .invoke (.complete 3), .tick, .tick, .tick, .leave,
        .invoke (.receive (.control ⟨.v3, .windowUpdate 1 5⟩)), .tick] rfl
    exact ⟨_, _, _, rfl, hrun, by decide, by decide⟩

end Spdy
