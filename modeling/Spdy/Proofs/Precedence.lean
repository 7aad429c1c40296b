import Spdy.Proofs.Delivery
import Spdy.Proofs.Letters
import Spdy.Proofs.Wakeful

/-!
# Control frames keep their order

Data is overtaken when it is blocked and its rest is put back in the middle of the outbox, but control frames leave the
outbox in the order in which they came, and no data that came later leaves it before them.

* `Moment.posted`, `enqueuedControls` : what is appended to the outbox, and the control frames among it;
* `sentControls`, `Session.queuedControls` : the control frames that were handed over and those that wait;
* `acceptedUnits`, `Session.wholeUnits` : the data that was accepted on a stream, and that of which nothing was handed
  over so far;
* `controls_of_passage`, `controls_of_run` : control frames leave in order;
* `Lags`, `lags_of_run` : data stays whole until the control frames that came before it are handed over;
* `Introduced`, `introduced_of_run` : the frame that opens a stream is the first one that is handed over for it;
* `controls_keep_order` : all this in every run without a failure.
-/

namespace Spdy

/-! ## What is enqueued and what is handed over -/

def Parcel.isControl (q : Parcel) : Bool := q.dataOf?.isNone

/-- The parcels that a moment appends to the outbox. -/
def Moment.posted (mo : Moment) : List Parcel :=
  if mo.before.session.outbox.parcels <+: mo.after.session.outbox.parcels then
    mo.after.session.outbox.parcels.drop mo.before.session.outbox.parcels.length
  else []

/-- The control frames that were enqueued, first the first. -/
def enqueuedControls (past : List Moment) : List Parcel := past.flatMap fun mo => mo.posted.filter (·.isControl)

/-- The control frame that is handed over, with the bytes that the controller gets. -/
def Moment.sentControl? (mo : Moment) : Option Parcel :=
  match mo.handed? with
  | some (bytes, ⟨_, .control type _ r⟩) => some (.control type bytes r)
  | _ => none

/-- The control frames that were handed over, first the first. -/
def sentControls (past : List Moment) : List Parcel := past.filterMap Moment.sentControl?

def Session.queuedControls (s : Session) : List Parcel := s.outbox.parcels.filter (·.isControl)

def unitSaid? (r : StreamRef) : Option (StreamRef × Speech) → Option Payload
  | some (r', .data payload) => if r' = r then some payload else none
  | _ => none

/-- The data that was accepted on a stream, call by call. -/
def acceptedUnits (r : StreamRef) (past : List Moment) : List Payload := past.filterMap fun mo => unitSaid? r mo.said?

/-- The data of a stream that a parcel holds, if nothing of it was handed over. -/
def Parcel.whole? (r : StreamRef) : Parcel → Option Payload
  | .data r' payload 0 => if r' = r then some payload else none
  | _ => none

/-- The data of a stream that waits and of which nothing was handed over, call by call. -/
def Session.wholeUnits (s : Session) (r : StreamRef) : List Payload := s.outbox.parcels.filterMap (·.whole? r)

section Append

variable {past : List Moment} {mo : Moment}

theorem enqueuedControls_append (past : List Moment) (mo : Moment) :
    enqueuedControls (past ++ [mo]) = enqueuedControls past ++ mo.posted.filter (·.isControl) := by
  rw [enqueuedControls, List.flatMap_append, List.flatMap_singleton, ← enqueuedControls]

theorem sentControls_append (past : List Moment) (mo : Moment) :
    sentControls (past ++ [mo]) = sentControls past ++ mo.sentControl?.toList := by
  rw [sentControls, List.filterMap_append, ← sentControls]
  cases h : mo.sentControl? <;> simp [h]

theorem acceptedUnits_append (r : StreamRef) (past : List Moment) (mo : Moment) :
    acceptedUnits r (past ++ [mo]) = acceptedUnits r past ++ (unitSaid? r mo.said?).toList := by
  rw [acceptedUnits, List.filterMap_append, ← acceptedUnits]
  cases h : unitSaid? r mo.said? <;> simp [h]

theorem acceptedUnits_append_of_none {r : StreamRef} (h : mo.said? = none) :
    acceptedUnits r (past ++ [mo]) = acceptedUnits r past := by
  rw [acceptedUnits_append, h]
  exact List.append_nil _

namespace Moment

theorem posted_of_append {new : List Parcel}
    (h : mo.after.session.outbox.parcels = mo.before.session.outbox.parcels ++ new) : mo.posted = new := by
  rw [posted, h, if_pos (List.prefix_append _ _), List.drop_left]

theorem posted_of_length_lt
    (h : mo.after.session.outbox.parcels.length < mo.before.session.outbox.parcels.length) : mo.posted = [] :=
  if_neg fun hprefix => Nat.not_le.2 h hprefix.length_le

/-- Where no more control frames wait than before, none was enqueued. -/
theorem posted_of_length_le
    (h : mo.after.session.queuedControls.length ≤ mo.before.session.queuedControls.length) :
    mo.posted.filter (·.isControl) = [] := by
  unfold posted
  split
  · next hprefix =>
    obtain ⟨new, hnew⟩ := hprefix
    rw [Session.queuedControls, Session.queuedControls, ← hnew, List.filter_append, List.length_append] at h
    rw [← hnew, List.drop_left]
    apply List.eq_nil_of_length_eq_zero
    omega
  · rfl

theorem sentControl?_of_none (h : mo.handed? = none) : mo.sentControl? = none := by
  rw [sentControl?, h]

end Moment

end Append

/-! ## Control frames leave in order -/

theorem filter_isControl_eq_nil {s : Session} {l : List Parcel} (blocked : ∀ x ∈ l, s.isReady x = false) :
    l.filter (·.isControl) = [] := by
  refine List.filter_eq_nil_iff.2 fun q hq hcontrol => ?_
  cases q with
  | control => cases blocked _ hq
  | data => cases hcontrol

/-- A parcel that is handed over is a control frame, or no control frame is. -/
theorem sentControl?_of_framed {cap : Nat} {mo : Moment} {p : Parcel} {bytes : Bytes} {h : Handler}
    (framed : Framed cap mo.before.session p bytes h.parcel) (handed : mo.handed? = some (bytes, h)) :
    mo.sentControl?.toList = [p].filter (·.isControl) := by
  generalize hparcel : h.parcel = q at framed
  obtain ⟨seq, _⟩ := h
  obtain rfl : _ = q := hparcel
  cases framed with
  | control type bytes r => rw [Moment.sentControl?, handed]; rfl
  | data r payload written alive window chunk => rw [Moment.sentControl?, handed]; rfl

/-- Of the control frames that wait and those that come, the first one is handed over, if any is. -/
theorem controls_of_passage {cap : Nat} {mo : Moment} (passage : Passage cap mo) (hfail : mo.isFailure = false) :
    mo.before.session.queuedControls ++ mo.posted.filter (·.isControl) =
      mo.sentControl?.toList ++ mo.after.session.queuedControls := by
  have of_same : mo.handed? = none → mo.after.session.queuedControls = mo.before.session.queuedControls →
      mo.before.session.queuedControls ++ mo.posted.filter (·.isControl) =
        mo.sentControl?.toList ++ mo.after.session.queuedControls := by
    intro handed hsame
    have hnone := Moment.posted_of_length_le (Nat.le_of_eq (congrArg List.length hsame))
    rw [Moment.sentControl?_of_none handed, hnone, hsame, List.append_nil]
    rfl
  have of_parcels : mo.after.session.outbox.parcels = mo.before.session.outbox.parcels →
      mo.after.session.queuedControls = mo.before.session.queuedControls := by
    intro h
    rw [Session.queuedControls, h, ← Session.queuedControls]
  cases passage with
  | post parcels outstanding said handed =>
    rw [Moment.sentControl?_of_none handed, Moment.posted_of_append parcels, Session.queuedControls,
      Session.queuedControls, parcels, List.filter_append]
    rfl
  | drop parcels parcels' outstanding reset silent =>
    refine of_same silent.handed ?_
    rw [Session.queuedControls, Session.queuedControls, parcels, parcels', List.filter_append, List.filter_append]
    rfl
  | @hand before after p bytes h parcels parcels' outstanding outstanding' blocked framed said handed =>
    have hposted : mo.posted = [] := Moment.posted_of_length_lt (by rw [parcels, parcels']; simp)
    rw [hposted, List.filter_nil, List.append_nil, Session.queuedControls, Session.queuedControls, parcels, parcels',
      List.filter_append, List.filter_append, filter_isControl_eq_nil blocked, List.nil_append, List.nil_append,
      sentControl?_of_framed framed handed, ← List.filter_append]
    rfl
  | written parcels outstanding outstanding' whole silent => exact of_same silent.handed (of_parcels parcels)
  | stuck parcels outstanding outstanding' parcel credit silent => exact of_same silent.handed (of_parcels parcels)
  | more outstanding outstanding' parcel left parcels parcels' clear silent =>
    refine of_same silent.handed ?_
    rw [Session.queuedControls, Session.queuedControls, parcels, parcels', parcel, List.filter_append,
      List.filter_append]
    rfl
  | failed fails => cases hfail.symm.trans fails
  | dropped drops parcels outstanding silent => exact of_same silent.handed (of_parcels parcels)

/-! ## Data that is whole -/

theorem Parcel.whole?_of_ne {q : Parcel} {r : StreamRef} (h : q.dataOf? ≠ some r) : q.whole? r = none := by
  cases q with
  | control => rfl
  | data r' payload written =>
    cases written with
    | zero => exact if_neg fun he => h (congrArg some he)
    | succ n => rfl

theorem Parcel.whole?_of_written {r r' : StreamRef} {payload : Payload} {written : Nat} (h : written ≠ 0) :
    (Parcel.data r' payload written).whole? r = none := by
  cases written with
  | zero => exact absurd rfl h
  | succ n => rfl

theorem Posted.wholeUnits {enc : Encoder} {s t : Session} {said : Option (StreamRef × Speech)} {new : List Parcel}
    (h : Posted enc s t said new) (r : StreamRef) : new.filterMap (·.whole? r) = (unitSaid? r said).toList := by
  cases h with
  | own hown =>
    refine List.filterMap_eq_nil_iff.2 fun q hq => Parcel.whole?_of_ne ?_
    rw [(hown q hq).2]
    nofun
  | head => rfl
  | @data r' payload speaks =>
    rw [List.filterMap_cons, List.filterMap_nil, Parcel.whole?, unitSaid?]
    split <;> rename_i h <;> rw [h] <;> rfl

/-- What is taken from the outbox is the first of its stream's data that waits, if it is data. -/
theorem wholeUnits_of_taken {s : Session} {r : StreamRef} {before after : List Parcel} {x : Parcel}
    (blocked : ∀ q ∈ before, s.isReady q = false) (ready : x.dataOf? = some r → (s.stream r).isReady) :
    (before ++ x :: after).filterMap (·.whole? r) =
      (x.whole? r).toList ++ (before ++ after).filterMap (·.whole? r) := by
  rw [List.filterMap_append, List.filterMap_append]
  by_cases hx : x.dataOf? = some r
  · have hbefore : before.filterMap (·.whole? r) = [] := List.filterMap_eq_nil_iff.2 fun q hq =>
      Parcel.whole?_of_ne (Session.dataOf?_ne_of_blocked (blocked q hq) (ready hx))
    rw [hbefore]
    cases h : x.whole? r <;> simp [h]
  · rw [Parcel.whole?_of_ne hx, List.filterMap_cons_none (Parcel.whole?_of_ne hx)]
    rfl

theorem Framed.ready {cap : Nat} {s : Session} {p q : Parcel} {bytes : Bytes} (h : Framed cap s p bytes q)
    {r : StreamRef} (hr : p.dataOf? = some r) : (s.stream r).isReady := by
  cases h with
  | control => cases hr
  | data r' payload written alive window chunk =>
    cases hr
    rw [Stream.isReady, decide_eq_true window, Bool.or_true]

theorem Session.isReady_of_reset {s : Session} {x : Parcel} {q r : StreamRef} (reset : (s.stream q).reset)
    (hx : x.dataOf? = some q) (hr : x.dataOf? = some r) : (s.stream r).isReady := by
  obtain rfl := Option.some.inj (hx.symm.trans hr)
  rw [Stream.isReady, reset, Bool.true_or]

theorem Framed.written_ne_zero {cap : Nat} {s : Session} {p : Parcel} {bytes : Bytes} {r : StreamRef} {rest : Payload}
    {written : Nat} (h : Framed cap s p bytes (.data r rest written)) (left : rest.bytes ≠ []) : written ≠ 0 := by
  cases h with
  | @data r payload written frame rest alive window chunk =>
    have hlength := Payload.length_of_chunk chunk
    have hcap : 1 ≤ Encoder.clampCap cap := Nat.le_max_left _ _
    have hlong : min (s.stream r).window.toNat (Encoder.clampCap cap) < payload.bytes.length := by
      obtain ⟨-, rfl⟩ := Prod.mk.inj chunk
      by_contra hshort
      exact left (List.drop_eq_nil_iff.2 (Nat.le_of_not_lt hshort))
    omega

/-- Of data that is being written a frame was handed over that took something, or nothing is left of it. -/
def Session.Started (s : Session) : Prop :=
  ∀ h ∈ s.outstanding, ∀ r payload written, h.parcel = .data r payload written → payload.bytes ≠ [] → written ≠ 0

theorem started_of_passage {cap : Nat} {mo : Moment} (passage : Passage cap mo) (h : mo.before.session.Started) :
    mo.after.session.Started := by
  have of_nil : mo.after.session.outstanding = [] → mo.after.session.Started := by
    intro hnil x hx
    rw [hnil] at hx
    cases hx
  cases passage with
  | post parcels outstanding => exact fun x hx => h x (outstanding ▸ hx)
  | drop parcels parcels' outstanding => exact fun x hx => h x (outstanding ▸ hx)
  | hand parcels parcels' outstanding outstanding' blocked framed =>
    intro x hx r payload written hparcel left
    rw [outstanding', List.mem_singleton] at hx
    subst hx
    rw [hparcel] at framed
    exact framed.written_ne_zero left
  | written parcels outstanding outstanding' => exact of_nil outstanding'
  | stuck parcels outstanding outstanding' => exact of_nil outstanding'
  | more outstanding outstanding' => exact of_nil outstanding'
  | failed fails parcels outstanding => exact of_nil outstanding
  | dropped drops parcels outstanding => exact fun x hx => h x (outstanding.subset hx)

/-- The data of a stream that is whole came last. -/
theorem units_of_passage {cap : Nat} {mo : Moment} {past : List Moment} {r : StreamRef} (passage : Passage cap mo)
    (started : mo.before.session.Started) (h : mo.before.session.wholeUnits r <:+ acceptedUnits r past) :
    mo.after.session.wholeUnits r <:+ acceptedUnits r (past ++ [mo]) := by
  have of_suffix : mo.said? = none → mo.after.session.wholeUnits r <:+ mo.before.session.wholeUnits r →
      mo.after.session.wholeUnits r <:+ acceptedUnits r (past ++ [mo]) := by
    intro said hsuffix
    rw [acceptedUnits_append_of_none said]
    exact hsuffix.trans h
  have of_parcels : mo.after.session.outbox.parcels = mo.before.session.outbox.parcels →
      mo.after.session.wholeUnits r <:+ mo.before.session.wholeUnits r := by
    intro hparcels
    rw [Session.wholeUnits, hparcels]
    exact List.suffix_refl _
  cases passage with
  | post parcels outstanding said handed =>
    obtain ⟨l, hl⟩ := h
    rw [acceptedUnits_append, ← hl, Session.wholeUnits, parcels, List.filterMap_append, said.wholeUnits r,
      List.append_assoc]
    exact List.suffix_append _ _
  | drop parcels parcels' outstanding reset silent blocked =>
    refine of_suffix silent.said ?_
    rw [Session.wholeUnits, Session.wholeUnits, parcels, parcels',
      wholeUnits_of_taken blocked (Session.isReady_of_reset reset rfl)]
    exact List.suffix_append _ _
  | hand parcels parcels' outstanding outstanding' blocked framed said handed =>
    refine of_suffix said ?_
    rw [Session.wholeUnits, Session.wholeUnits, parcels, parcels', wholeUnits_of_taken blocked framed.ready]
    exact List.suffix_append _ _
  | written parcels outstanding outstanding' whole silent => exact of_suffix silent.said (of_parcels parcels)
  | stuck parcels outstanding outstanding' parcel credit silent => exact of_suffix silent.said (of_parcels parcels)
  | @more x q payload written before after outstanding outstanding' parcel left parcels parcels' clear silent =>
    have hwritten : written ≠ 0 := started x (outstanding ▸ List.mem_cons_self) q payload written parcel left
    have hsame : mo.after.session.wholeUnits r = mo.before.session.wholeUnits r := by
      rw [Session.wholeUnits, Session.wholeUnits, parcels, parcels', parcel, List.filterMap_append,
        List.filterMap_append, List.filterMap_cons_none (Parcel.whole?_of_written hwritten)]
    apply of_suffix silent.said
    exact hsame ▸ List.suffix_refl _
  | failed fails parcels outstanding silent =>
    refine of_suffix silent.said ?_
    rw [Session.wholeUnits, parcels]
    exact List.nil_suffix
  | dropped drops parcels outstanding silent => exact of_suffix silent.said (of_parcels parcels)

/-- A frame of data is the first of its call, which was whole, or a later one. -/
theorem wholeUnits_of_handed {cap : Nat} {mo : Moment} {r : StreamRef} (passage : Passage cap mo) {bytes : Bytes}
    {h : Handler} (handed : mo.handed? = some (bytes, h)) {rest : Payload} {written : Nat}
    (parcel : h.parcel = .data r rest written) :
    mo.before.session.wholeUnits r = mo.after.session.wholeUnits r ∨
      ∃ payload, mo.before.session.wholeUnits r = payload :: mo.after.session.wholeUnits r ∧
        bytes.drop headerLength ++ rest.bytes = payload.bytes := by
  have hnone : mo.handed? ≠ none := by
    rw [handed]
    nofun
  cases passage with
  | post parcels outstanding said hquiet => exact absurd hquiet hnone
  | drop parcels parcels' outstanding reset silent => exact absurd silent.handed hnone
  | hand parcels parcels' outstanding outstanding' blocked framed said handed' =>
    obtain ⟨rfl, rfl⟩ := Prod.mk.inj (Option.some.inj (handed'.symm.trans handed))
    rw [Session.wholeUnits, Session.wholeUnits, parcels, parcels', wholeUnits_of_taken blocked framed.ready]
    rw [parcel] at framed
    cases framed with
    | @data r payload written frame rest alive window chunk =>
      cases written with
      | zero =>
        refine .inr ⟨payload, ?_, drop_encode_append_rest chunk⟩
        rw [Parcel.whole?, if_pos rfl]
        rfl
      | succ n => exact .inl rfl
  | written parcels outstanding outstanding' whole silent => exact absurd silent.handed hnone
  | stuck parcels outstanding outstanding' parcel credit silent => exact absurd silent.handed hnone
  | more outstanding outstanding' parcel left parcels parcels' clear silent => exact absurd silent.handed hnone
  | failed fails parcels outstanding silent => exact absurd silent.handed hnone
  | dropped drops parcels outstanding silent => exact absurd silent.handed hnone

/-! ## A place in the outbox -/

/-- A place in a list that has something taken out is before or behind what is taken. -/
theorem place_of_taken {front back before after : List Parcel} {x : Parcel}
    (h : front ++ back = before ++ x :: after) :
    (∃ rest, front = before ++ x :: rest ∧ after = rest ++ back) ∨
      ∃ rest, before = front ++ rest ∧ back = rest ++ x :: after := by
  rcases List.append_eq_append_iff.1 h with ⟨rest, hbefore, hback⟩ | ⟨rest, hfront, hafter⟩
  · exact .inr ⟨rest, hbefore, hback⟩
  · cases rest with
    | nil => exact .inr ⟨[], by simpa using hfront.symm, by simpa using hafter.symm⟩
    | cons y rest =>
      rw [List.cons_append] at hafter
      obtain ⟨rfl, hrest⟩ := List.cons.inj hafter
      exact .inl ⟨rest, hfront, hrest⟩

/-- What waits in front came before a moment, and of its control frames those wait that were not handed over; what waits
behind came since then, and the data of a stream among it is whole. -/
structure Lags (r : StreamRef) (pre since past : List Moment) (s : Session) (front back : List Parcel) : Prop where
  parcels : s.outbox.parcels = front ++ back
  controls : sentControls past ++ front.filter (·.isControl) = enqueuedControls pre
  units : back.filterMap (·.whole? r) = acceptedUnits r since

section Lags

variable {cap : Nat} {mo : Moment} {r : StreamRef} {pre since past : List Moment} {front back : List Parcel}

/-- The control frames in front are handed over before anything behind them is taken. -/
theorem Lags.passed (h : Lags r pre since past mo.before.session front back)
    (blocked : ∀ q ∈ front, mo.before.session.isReady q = false) :
    enqueuedControls pre <+: sentControls (past ++ [mo]) := by
  rw [← h.controls, filter_isControl_eq_nil blocked, List.append_nil, sentControls_append]
  exact List.prefix_append _ _

theorem Lags.step (h : Lags r pre since past mo.before.session front back) (passage : Passage cap mo)
    (started : mo.before.session.Started) (hfail : mo.isFailure = false) :
    enqueuedControls pre <+: sentControls (past ++ [mo]) ∨
      ∃ front' back', Lags r pre (since ++ [mo]) (past ++ [mo]) mo.after.session front' back' := by
  have sent_of_none : mo.handed? = none → sentControls (past ++ [mo]) = sentControls past := by
    intro handed
    rw [sentControls_append, Moment.sentControl?_of_none handed]
    exact List.append_nil _
  have of_same : mo.Silent → mo.after.session.outbox.parcels = mo.before.session.outbox.parcels →
      ∃ front' back', Lags r pre (since ++ [mo]) (past ++ [mo]) mo.after.session front' back' :=
    fun silent hparcels => ⟨front, back, hparcels.trans h.parcels, (sent_of_none silent.handed).symm ▸ h.controls,
      h.units.trans (acceptedUnits_append_of_none silent.said).symm⟩
  have blocked_of : ∀ {l rest : List Parcel}, (∀ q ∈ l, mo.before.session.isReady q = false) → l = front ++ rest →
      ∀ q ∈ front, mo.before.session.isReady q = false :=
    fun hblocked heq q hq => hblocked q (heq ▸ List.mem_append_left _ hq)
  cases passage with
  | @post new parcels outstanding said handed =>
    refine .inr ⟨front, back ++ new, ?_, (sent_of_none handed).symm ▸ h.controls, ?_⟩
    · rw [parcels, h.parcels, List.append_assoc]
    · rw [List.filterMap_append, h.units, said.wholeUnits r, acceptedUnits_append]
  | @drop before after q payload written parcels parcels' outstanding reset silent blocked =>
    rcases place_of_taken (h.parcels.symm.trans parcels) with ⟨rest, hfront, hafter⟩ | ⟨rest, hbefore, -⟩
    · refine .inr ⟨before ++ rest, back, ?_, ?_, h.units.trans (acceptedUnits_append_of_none silent.said).symm⟩
      · rw [parcels', hafter, ← List.append_assoc]
      · rw [sent_of_none silent.handed, ← h.controls, hfront, List.filter_append, List.filter_append]
        rfl
    · exact .inl (h.passed (blocked_of blocked hbefore))
  | @hand before after p bytes x parcels parcels' outstanding outstanding' blocked framed said handed =>
    rcases place_of_taken (h.parcels.symm.trans parcels) with ⟨rest, hfront, hafter⟩ | ⟨rest, hbefore, -⟩
    · refine .inr ⟨before ++ rest, back, ?_, ?_, h.units.trans (acceptedUnits_append_of_none said).symm⟩
      · rw [parcels', hafter, ← List.append_assoc]
      · rw [sentControls_append, sentControl?_of_framed framed handed, ← h.controls, hfront, List.filter_append,
          List.filter_append, filter_isControl_eq_nil blocked, List.nil_append, List.nil_append, List.append_assoc,
          ← List.filter_append]
        rfl
    · exact .inl (h.passed (blocked_of blocked hbefore))
  | written parcels outstanding outstanding' whole silent => exact .inr (of_same silent parcels)
  | stuck parcels outstanding outstanding' parcel credit silent => exact .inr (of_same silent parcels)
  | @more x q payload written before after outstanding outstanding' parcel left parcels parcels' clear silent =>
    have hwritten : written ≠ 0 := started x (outstanding ▸ List.mem_cons_self) q payload written parcel left
    have hsent := sent_of_none silent.handed
    have hsaid : acceptedUnits r (since ++ [mo]) = acceptedUnits r since := acceptedUnits_append_of_none silent.said
    right
    rcases List.append_eq_append_iff.1 (h.parcels.symm.trans parcels) with
      ⟨rest, hbefore, hback⟩ | ⟨rest, hfront, hafter⟩
    · refine ⟨front, rest ++ x.parcel :: after, ?_, hsent.symm ▸ h.controls, ?_⟩
      · rw [parcels', hbefore, List.append_assoc]
      · rw [hsaid, ← h.units, hback, parcel, List.filterMap_append, List.filterMap_append,
          List.filterMap_cons_none (Parcel.whole?_of_written hwritten)]
    · refine ⟨before ++ x.parcel :: rest, back, ?_, ?_, h.units.trans hsaid.symm⟩
      · rw [parcels', hafter, List.append_assoc, List.cons_append]
      · rw [hsent, ← h.controls, hfront, parcel, List.filter_append, List.filter_append]
        rfl
  | failed fails => cases hfail.symm.trans fails
  | dropped drops parcels outstanding silent => exact .inr (of_same silent parcels)

end Lags

/-! ## The frame that opens a stream -/

/-- The frame that opens a stream waits, and nothing was handed over for the stream; or it was the first that was. -/
inductive Introduced (r : StreamRef) (bytes : Bytes) (past : List Moment) (s : Session) : Prop
  | waits {front back : List Parcel} (frames : framesOf r past = [])
      (leaving : ∀ x ∈ s.outstanding, x.parcel.stream? ≠ some r)
      (parcels : s.outbox.parcels = front ++ .control .synStream bytes (some r) :: back)
      (ahead : ∀ q ∈ front, q.stream? ≠ some r)
  | sent {x : Handler} {rest : List (Bytes × Handler)} (frames : framesOf r past = (bytes, x) :: rest)
      (parcel : x.parcel = .control .synStream bytes (some r))

/-- What is taken from the outbox is in front of the control frame, or it is the control frame. -/
theorem place_of_control {s : Session} {front back before after : List Parcel} {x c : Parcel}
    (h : front ++ c :: back = before ++ x :: after) (hc : c.isControl)
    (blocked : ∀ q ∈ before, s.isReady q = false) :
    (∃ rest, front = before ++ x :: rest ∧ after = rest ++ c :: back) ∨ before = front ∧ x = c ∧ after = back := by
  rcases place_of_taken h with hfront | ⟨rest, hbefore, hback⟩
  · exact .inl hfront
  · cases rest with
    | nil =>
      obtain ⟨hx, hafter⟩ := List.cons.inj hback
      exact .inr ⟨hbefore.trans (List.append_nil _), hx.symm, hafter.symm⟩
    | cons y rest =>
      -- the control frame itself would be blocked
      obtain ⟨rfl, -⟩ := List.cons.inj hback
      have hblocked := blocked c (by rw [hbefore]; exact List.mem_append_right _ List.mem_cons_self)
      cases c with
      | control => cases hblocked
      | data => cases hc

section Introduced

variable {cap : Nat} {mo : Moment} {r : StreamRef} {bytes : Bytes} {past : List Moment}
  {front back before after : List Parcel}

theorem stream?_ne_of_append {x : Parcel} {rest : List Parcel} (ahead : ∀ q ∈ before ++ x :: rest, q.stream? ≠ some r) :
    ∀ q ∈ before ++ rest, q.stream? ≠ some r := by
  intro q hq
  refine ahead q ?_
  rw [List.mem_append] at hq ⊢
  exact hq.imp_right (List.mem_cons_of_mem _)

/-- A frame of a parcel is handed over: of one in front, or it is the control frame. -/
theorem Introduced.hand {p : Parcel} {bytes' : Bytes} {x : Handler} (frames : framesOf r past = [])
    (parcels : mo.before.session.outbox.parcels = front ++ .control .synStream bytes (some r) :: back)
    (ahead : ∀ q ∈ front, q.stream? ≠ some r) (hparcels : mo.before.session.outbox.parcels = before ++ p :: after)
    (parcels' : mo.after.session.outbox.parcels = before ++ after) (outstanding' : mo.after.session.outstanding = [x])
    (blocked : ∀ q ∈ before, mo.before.session.isReady q = false)
    (framed : Framed cap mo.before.session p bytes' x.parcel) (handed : mo.handed? = some (bytes', x)) :
    Introduced r bytes (past ++ [mo]) mo.after.session := by
  have hframes := @framesOf_append_of_some r past _ _ _ handed
  rw [frames, List.nil_append] at hframes
  rcases place_of_control (parcels.symm.trans hparcels) rfl blocked with ⟨rest, hfront, hafter⟩ | ⟨-, hx, -⟩
  · have hp : x.parcel.stream? ≠ some r := by
      rw [framed.stream?]
      exact ahead p (hfront ▸ List.mem_append_right _ List.mem_cons_self)
    rw [if_neg hp] at hframes
    refine @Introduced.waits r bytes _ _ (before ++ rest) back hframes ?_ ?_ (stream?_ne_of_append (hfront ▸ ahead))
    · intro y hy
      rw [outstanding', List.mem_singleton] at hy
      exact hy ▸ hp
    · rw [parcels', hafter, ← List.append_assoc]
  · subst hx
    generalize hparcel : x.parcel = q at framed
    cases framed
    rw [hparcel, Parcel.stream?, if_pos rfl] at hframes
    exact .sent hframes hparcel

/-- The rest of data of another stream is put back. -/
theorem Introduced.more {q : Parcel} (frames : framesOf r (past ++ [mo]) = [])
    (parcels : mo.before.session.outbox.parcels = front ++ .control .synStream bytes (some r) :: back)
    (ahead : ∀ q ∈ front, q.stream? ≠ some r) (hparcels : mo.before.session.outbox.parcels = before ++ after)
    (parcels' : mo.after.session.outbox.parcels = before ++ q :: after)
    (outstanding' : mo.after.session.outstanding = []) (hq : q.stream? ≠ some r) :
    Introduced r bytes (past ++ [mo]) mo.after.session := by
  have hleaving : ∀ y ∈ mo.after.session.outstanding, y.parcel.stream? ≠ some r := by simp [outstanding']
  rcases List.append_eq_append_iff.1 (parcels.symm.trans hparcels) with
    ⟨rest, hbefore, hback⟩ | ⟨rest, hfront, hafter⟩
  · cases rest with
    | nil =>
      refine @Introduced.waits r bytes _ _ (front ++ [q]) back frames hleaving ?_ fun y hy => ?_
      · rw [parcels', hbefore, ← List.nil_append after, ← hback]
        simp
      · rcases List.mem_append.1 hy with hy | hy
        · exact ahead y hy
        · exact List.mem_singleton.1 hy ▸ hq
    | cons y rest =>
      obtain ⟨rfl, -⟩ := List.cons.inj hback
      refine @Introduced.waits r bytes _ _ front (rest ++ q :: after) frames hleaving ?_ ahead
      rw [parcels', hbefore, List.append_assoc, List.cons_append]
  · refine @Introduced.waits r bytes _ _ (before ++ q :: rest) back frames hleaving ?_ fun y hy => ?_
    · rw [parcels', hafter, List.append_assoc, List.cons_append]
    · rcases List.mem_append.1 hy with hy | hy
      · exact ahead y (hfront ▸ List.mem_append_left _ hy)
      · rcases List.mem_cons.1 hy with rfl | hy
        · exact hq
        · exact ahead y (hfront ▸ List.mem_append_right _ hy)

theorem Introduced.step (h : Introduced r bytes past mo.before.session) (passage : Passage cap mo)
    (hfail : mo.isFailure = false) : Introduced r bytes (past ++ [mo]) mo.after.session := by
  cases h with
  | @sent x rest frames parcel =>
    cases hhanded : mo.handed? with
    | none => exact .sent ((framesOf_append_of_none hhanded).trans frames) parcel
    | some f => exact .sent ((framesOf_append_of_some hhanded).trans (by rw [frames, List.cons_append])) parcel
  | @waits front back frames leaving parcels ahead =>
    have frames_of_none : mo.handed? = none → framesOf r (past ++ [mo]) = [] :=
      fun handed => (framesOf_append_of_none handed).trans frames
    have of_nil : ∀ {l : List Handler}, l = [] → ∀ x ∈ l, x.parcel.stream? ≠ some r := by
      rintro l rfl x hx
      cases hx
    cases passage with
    | @post new parcels' outstanding said handed =>
      refine @Introduced.waits r bytes _ _ front (back ++ new) (frames_of_none handed) (outstanding ▸ leaving) ?_ ahead
      rw [parcels', parcels, List.append_assoc, List.cons_append]
    | @drop before after q payload written hparcels parcels' outstanding reset silent blocked =>
      rcases place_of_control (parcels.symm.trans hparcels) rfl blocked with ⟨rest, hfront, hafter⟩ | ⟨-, hx, -⟩
      · refine @Introduced.waits r bytes _ _ (before ++ rest) back (frames_of_none silent.handed)
          (outstanding ▸ leaving) ?_ (stream?_ne_of_append (hfront ▸ ahead))
        rw [parcels', hafter, ← List.append_assoc]
      · cases hx
    | hand hparcels parcels' outstanding outstanding' blocked framed said handed =>
      exact .hand frames parcels ahead hparcels parcels' outstanding' blocked framed handed
    | written hparcels outstanding outstanding' whole silent =>
      exact .waits (frames_of_none silent.handed) (of_nil outstanding') (hparcels.trans parcels) ahead
    | stuck hparcels outstanding outstanding' parcel credit silent =>
      exact .waits (frames_of_none silent.handed) (of_nil outstanding') (hparcels.trans parcels) ahead
    | @more x q payload written before after outstanding outstanding' parcel left hparcels parcels' clear silent =>
      exact .more (frames_of_none silent.handed) parcels ahead hparcels parcels' outstanding'
        (leaving x (outstanding ▸ List.mem_cons_self))
    | failed fails => cases hfail.symm.trans fails
    | dropped drops hparcels outstanding silent =>
      exact .waits (frames_of_none silent.handed) (fun x hx => leaving x (outstanding.subset hx))
        (hparcels.trans parcels) ahead

end Introduced

/-! ## A flush -/

/-- A flush hands over the first control frame if all data in front of it is blocked. -/
theorem handed?_of_flush {cap : Nat} {m m' : Machine} {e : Event} (h : m.next? (.standard cap) e = some m')
    (placed : m.Placed) (htask : Moment.task? ⟨m, e, m'⟩ = some .flush) (free : m.session.outbox.busy = false)
    {front back : List Parcel} {type : FrameType} {bytes : Bytes} {r : Option StreamRef}
    (parcels : m.session.outbox.parcels = front ++ .control type bytes r :: back)
    (blocked : ∀ q ∈ front, m.session.isReady q = false) :
    ∃ x, Moment.handed? ⟨m, e, m'⟩ = some (bytes, x) ∧ x.parcel = .control type bytes r := by
  have absurd_of_ready : ∀ {x : Parcel}, x ∈ front → m.session.isReady x → False := by
    intro x hx hready
    rw [blocked x hx] at hready
    cases hready
  cases Machine.happens_of_next? h with
  | @tick task rest outcome below stack notCall =>
    obtain rfl : task = .flush := by simpa [Moment.task?, stack] using htask
    have hrest : ∀ x ∈ rest, x.isWrite = false := placed ⟨.flush :: rest, outcome⟩ (by simp [stack])
    have hflush := flush_cases cap m.session
    rw [Moment.handed?_of_tick rfl hrest, Session.perform]
    generalize m.session.flush (.standard cap) = p at hflush
    cases hflush with
    | idle hidle =>
      rcases hidle with hbusy | hnone
      · cases free.symm.trans hbusy
      · cases hnone (.control type bytes r) (parcels ▸ List.mem_append_right _ List.mem_cons_self)
    | drop free' parcels' reset blocked' =>
      rcases place_of_control (parcels.symm.trans parcels') rfl blocked' with ⟨rest, hfront, -⟩ | ⟨-, hx, -⟩
      · refine (absurd_of_ready (hfront ▸ List.mem_append_right _ List.mem_cons_self) ?_).elim
        rw [Session.isReady, Parcel.isReady, Stream.isReady, reset, Bool.true_or]
      · cases hx
    | @hand before after p q bytes' free' parcels' blocked' framed =>
      rcases place_of_control (parcels.symm.trans parcels') rfl blocked' with ⟨rest, hfront, -⟩ | ⟨-, rfl, -⟩
      · refine (absurd_of_ready (hfront ▸ List.mem_append_right _ List.mem_cons_self) ?_).elim
        cases p with
        | control => rfl
        | data => exact framed.ready rfl
      · cases framed
        exact ⟨_, rfl, rfl⟩
  | _ => cases htask

/-! ## Runs -/

namespace Session

variable (enc : Encoder)

/-- A stream that is opened is new, and the frame that opens it is posted. -/
theorem beginSyn_opened {s : Session} {version : Version} {opening : Opening} {listener : Option Listener}
    {r : StreamRef} (h : (s.beginSyn enc version opening listener).outcome = .opened r) :
    r = s.nextRef ∧ ∃ bytes, (s.beginSyn enc version opening listener).session.outbox.parcels =
      s.outbox.parcels ++ [.control .synStream bytes (some r)] := by
  unfold beginSyn at h ⊢
  by_cases oneWay : opening.unidirectional
  · rw [if_pos oneWay] at h
    cases h
  · by_cases sent : s.goAwaySent
    · rw [if_neg oneWay, if_pos sent] at h
      cases h
    · rw [if_neg oneWay, if_neg sent] at h ⊢
      cases hbytes : enc.control ⟨version, .synStream opening.flags s.nextStreamId opening.associatedId
          opening.priority opening.headers⟩ with
      | error cause =>
        simp only [hbytes] at h
        cases h
      | ok bytes =>
        simp only [hbytes] at h ⊢
        cases h
        exact ⟨rfl, bytes, rfl⟩

/-- Nothing but the request for a stream opens one. -/
theorem begin_opened {s : Session} {alive : Bool} {op : Operation} {r : StreamRef}
    (h : (s.begin enc alive op).outcome = .opened r) :
    r = s.nextRef ∧ op.speech? (.opened r) ≠ none ∧ ∃ bytes, (s.begin enc alive op).session.outbox.parcels =
      s.outbox.parcels ++ [.control .synStream bytes (some r)] := by
  have hframe : ∀ (t : Session) (f : ControlFrame) (outcome : Outcome),
      (t.beginFrame enc f outcome).outcome = .opened r → outcome = .opened r := by
    intro t f outcome h
    unfold beginFrame at h
    split at h
    · cases h
    · exact h
  have honStream : ∀ (q : StreamRef) (body : Body), (s.beginOnStream enc alive q body).outcome = .opened r → False := by
    intro q body h
    unfold beginOnStream at h
    dsimp only at h
    split at h
    · cases h
    · split at h
      · cases h
      · split at h <;> cases h
  have hdata : ∀ (alive : Bool) (q : StreamRef) (payload : Payload),
      (s.beginData alive q payload).outcome = .opened r → False := by
    intro alive q payload h
    unfold beginData at h
    dsimp only at h
    split at h
    · cases h
    · split at h <;> cases h
  cases op with
  | syn version opening listener =>
    obtain ⟨hr, hposted⟩ := beginSyn_opened enc h
    exact ⟨hr, Option.some_ne_none _, hposted⟩
  | goAway version =>
    rw [begin, beginGoAway] at h
    cases hrefusal : (s.announceEnd enc version .ok).2 <;> simp [hrefusal] at h
  | settings version message => cases hframe _ _ _ h
  | ping version => cases hframe _ _ _ h
  | reply q head => cases honStream _ _ h
  | headers q head => cases honStream _ _ h
  | data q payload => cases hdata _ _ _ h
  | sessionData q payload => cases hdata _ _ _ h
  | reset | receive | complete | fail => cases h

end Session

section Run

variable {cap : Nat} {config : Config} {primary : Option Listener} {s : Session} {past : List Moment} {m : Machine}

theorem controls_of_run (hnew : Session.new config primary = .ok s)
    (run : Run (.standard cap) { session := s } past m) (hwritten : ∀ mo ∈ past, mo.isFailure = false) :
    enqueuedControls past = sentControls past ++ m.session.queuedControls := by
  induction run with
  | start =>
    obtain ⟨-, rfl⟩ := Session.new_eq_ok hnew
    rfl
  | @next past m m' e run h ih =>
    have hstep := controls_of_passage (passage_of_next? hnew run h)
      (hwritten _ (List.mem_append_right _ List.mem_cons_self))
    rw [enqueuedControls_append, sentControls_append, ih fun mo hmo => hwritten mo (List.mem_append_left _ hmo),
      List.append_assoc, List.append_assoc]
    exact congrArg _ hstep

theorem started_of_run (hnew : Session.new config primary = .ok s)
    (run : Run (.standard cap) { session := s } past m) : m.session.Started := by
  induction run with
  | start =>
    obtain ⟨-, rfl⟩ := Session.new_eq_ok hnew
    exact nofun
  | next run h ih => exact started_of_passage (passage_of_next? hnew run h) ih

theorem units_of_run (hnew : Session.new config primary = .ok s)
    (run : Run (.standard cap) { session := s } past m) (r : StreamRef) :
    m.session.wholeUnits r <:+ acceptedUnits r past := by
  induction run with
  | start =>
    obtain ⟨-, rfl⟩ := Session.new_eq_ok hnew
    exact List.suffix_refl _
  | next run h ih => exact units_of_passage (passage_of_next? hnew run h) (started_of_run hnew run) ih

/-- Data that is accepted stays whole until the control frames that came before it are handed over. -/
theorem lags_of_run (hnew : Session.new config primary = .ok s) {pre post : List Moment} {mo : Moment}
    (run : Run (.standard cap) { session := s } (pre ++ mo :: post) m)
    (hwritten : ∀ x ∈ pre ++ mo :: post, x.isFailure = false) (r : StreamRef) :
    enqueuedControls pre <+: sentControls (pre ++ mo :: post) ∨
      ∃ front back, Lags r pre (mo :: post) (pre ++ mo :: post) m.session front back := by
  revert hwritten
  refine run.since (P := fun post m => (∀ x ∈ pre ++ mo :: post, x.isFailure = false) →
    (enqueuedControls pre <+: sentControls (pre ++ mo :: post) ∨
      ∃ front back, Lags r pre (mo :: post) (pre ++ mo :: post) m.session front back)) ?_ ?_
  · intro hpre hnext hwritten
    have hcontrols := controls_of_run hnew hpre fun x hx => hwritten x (List.mem_append_left _ hx)
    have hlags : Lags r pre [] pre mo.before.session mo.before.session.outbox.parcels [] :=
      ⟨(List.append_nil _).symm, hcontrols.symm, rfl⟩
    exact hlags.step (passage_of_next? hnew hpre hnext) (started_of_run hnew hpre)
      (hwritten mo (List.mem_append_right _ List.mem_cons_self))
  · intro post m m' e run h ih hwritten
    rw [← List.cons_append, ← List.append_assoc] at hwritten ⊢
    rcases ih fun x hx => hwritten x (List.mem_append_left _ hx) with hsent | ⟨front, back, hlags⟩
    · rw [sentControls_append]
      exact .inl (hsent.trans (List.prefix_append _ _))
    · exact hlags.step (passage_of_next? hnew run h) (started_of_run hnew run)
        (hwritten _ (List.mem_append_right _ List.mem_cons_self))

/-- Nothing was handed over for a stream that is yet to come. -/
theorem framesOf_of_new (hnew : Session.new config primary = .ok s)
    (run : Run (.standard cap) { session := s } past m) {r : StreamRef} (hr : m.session.streams.size ≤ r.serial) :
    framesOf r past = [] := by
  induction run with
  | start => rfl
  | @next past m m' e run h ih =>
    have hsize : m.session.streams.size ≤ m'.session.streams.size := (onward_of_next? run h).size
    have hold := ih (Nat.le_trans hsize hr)
    rcases handed : Moment.handed? ⟨m, e, m'⟩ with _ | ⟨bytes, x⟩
    · rw [framesOf_append_of_none handed, hold]
    · rw [framesOf_append_of_some handed, hold, if_neg]
      · rfl
      · intro hstream
        obtain ⟨p, hp, framed⟩ := (handing_of_turn (turn_of_next? h (placed_of_run run)) handed).framed
        have hknown := (known_of_run hnew run).waiting p hp r (framed.stream? ▸ hstream)
        omega

/-- Where a stream is opened, the frame that opens it comes to wait, and nothing else is there for the stream. -/
theorem introduced_of_opened (hnew : Session.new config primary = .ok s) {m' : Machine} {e : Event}
    (run : Run (.standard cap) { session := s } past m) (h : m.next? (.standard cap) e = some m') {r : StreamRef}
    (opened : Moment.outcome? ⟨m, e, m'⟩ = some (.opened r)) :
    ∃ bytes, Moment.posted ⟨m, e, m'⟩ = [.control .synStream bytes (some r)] ∧
      Introduced r bytes (past ++ [⟨m, e, m'⟩]) m'.session := by
  have passage := passage_of_next? hnew run h
  cases Machine.happens_of_next? h with
  | invoke op yields possible =>
    have houtcome : (m.session.begin (.standard cap) m.isAlive op).outcome = .opened r := Option.some.inj opened
    obtain ⟨rfl, hspeech, bytes, hparcels⟩ := Session.begin_opened _ houtcome
    refine ⟨bytes, Moment.posted_of_append hparcels, ?_⟩
    have hsaid : Moment.said? ⟨m, .invoke op, (m.invoke (.standard cap) op).1⟩ ≠ none :=
      fun hnone => hspeech ((congrArg (·.bind op.speech?) opened).symm.trans hnone)
    have known := known_of_run hnew run
    have hnext : ∀ {x : Option StreamRef}, (∀ q, x = some q → q.serial < m.session.streams.size) →
        x ≠ some m.session.nextRef :=
      fun hx heq => Nat.lt_irrefl _ (hx _ heq)
    cases passage with
    | post parcels outstanding said handed =>
      refine @Introduced.waits _ bytes _ _ m.session.outbox.parcels [] ?_ ?_ hparcels
        fun q hq => hnext (known.waiting q hq)
      · rw [framesOf_append_of_none handed]
        exact framesOf_of_new hnew run (Nat.le_refl _)
      · intro x hx
        exact hnext (known.leaving x ((show _ = m.session.outstanding from outstanding) ▸ hx))
    | hand parcels parcels' outstanding outstanding' blocked framed said => exact absurd said hsaid
    | drop parcels parcels' outstanding reset silent => exact absurd silent.said hsaid
    | written parcels outstanding outstanding' whole silent => exact absurd silent.said hsaid
    | stuck parcels outstanding outstanding' parcel credit silent => exact absurd silent.said hsaid
    | more outstanding outstanding' parcel left parcels parcels' clear silent => exact absurd silent.said hsaid
    | failed fails parcels outstanding silent => exact absurd silent.said hsaid
    | dropped drops parcels outstanding silent => exact absurd silent.said hsaid
  | _ => cases opened

/-- The frame that opens a stream is the first one that is handed over for it. -/
theorem introduced_of_run (hnew : Session.new config primary = .ok s) {pre post : List Moment} {mo : Moment}
    (run : Run (.standard cap) { session := s } (pre ++ mo :: post) m)
    (hwritten : ∀ x ∈ pre ++ mo :: post, x.isFailure = false) {r : StreamRef}
    (opened : mo.outcome? = some (.opened r)) :
    ∃ bytes, mo.posted = [.control .synStream bytes (some r)] ∧
      Introduced r bytes (pre ++ mo :: post) m.session := by
  obtain ⟨hpre, hnext⟩ := run.of_append
  obtain ⟨bytes, hposted, hintroduced⟩ := introduced_of_opened hnew hpre hnext opened
  refine ⟨bytes, hposted, ?_⟩
  revert hwritten
  refine run.since (P := fun post m => (∀ x ∈ pre ++ mo :: post, x.isFailure = false) →
    Introduced r bytes (pre ++ mo :: post) m.session) (fun _ _ _ => hintroduced) ?_
  intro post m m' e run h ih hwritten
  rw [← List.cons_append, ← List.append_assoc] at hwritten ⊢
  exact (ih fun x hx => hwritten x (List.mem_append_left _ hx)).step (passage_of_next? hnew run h)
    (hwritten _ (List.mem_append_right _ List.mem_cons_self))

/-- Once nothing is in progress no control frame waits, whatever data does. -/
theorem queuedControls_of_settled (hnew : Session.new config primary = .ok s)
    (run : Run (.standard cap) { session := s } past m) (horderly : ∀ mo ∈ past, mo.isOrderly) (hstack : m.stack = [])
    (hout : m.session.outstanding = []) : m.session.queuedControls = [] := by
  have hwake := wakeful_of_run hnew run fun mo hmo => Moment.isBreak_of_isOrderly (horderly mo hmo)
  obtain ⟨-, rfl⟩ := Session.new_eq_ok hnew
  have hblocked := hwake.settled (owed_eq_of_run rfl rfl run horderly) hstack hout
  refine List.filter_eq_nil_iff.2 fun q hq hcontrol => ?_
  cases q with
  | control => cases hblocked _ hq
  | data => cases hcontrol

end Run

/-- Control frames are handed over once each and in order, whatever waits: those that were enqueued are those that were
handed over and then those that wait, in the same order. Data that is accepted stays whole, with all that is accepted on
its stream later, until all control frames that were enqueued before it are handed over; data that is whole is as it was
accepted, and a frame of data takes the first bytes of the first data of its stream that is whole or continues data of
which a frame was handed over already. So the frame that opens a stream is the first one that is handed over for it. A
flush hands over the first control frame where all data in front of it is blocked, and once no operation is in
progress and no write is outstanding no control frame waits. Operations may begin within calls, and writes be reported
there or later; no write fails. -/
theorem controls_keep_order {cap : Nat} {config : Config} {primary : Option Listener} {s : Session}
    {past : List Moment} {m : Machine} (hnew : Session.new config primary = .ok s)
    (run : Run (.standard cap) { session := s } past m) (hwritten : ∀ mo ∈ past, mo.isFailure = false) :
    enqueuedControls past = sentControls past ++ m.session.queuedControls ∧
      (∀ pre mo post r, past = pre ++ mo :: post →
        enqueuedControls pre <+: sentControls past ∨ acceptedUnits r (mo :: post) <:+ m.session.wholeUnits r) ∧
      (∀ r, m.session.wholeUnits r <:+ acceptedUnits r past) ∧
      (∀ mo ∈ past, ∀ bytes x r rest written, mo.handed? = some (bytes, x) → x.parcel = .data r rest written →
        mo.before.session.wholeUnits r = mo.after.session.wholeUnits r ∨
          ∃ payload, mo.before.session.wholeUnits r = payload :: mo.after.session.wholeUnits r ∧
            bytes.drop headerLength ++ rest.bytes = payload.bytes) ∧
      (∀ pre mo post r, past = pre ++ mo :: post → mo.outcome? = some (.opened r) →
        ∃ bytes, mo.posted = [.control .synStream bytes (some r)] ∧
          ∀ f ∈ (framesOf r past).head?, f.1 = bytes ∧ f.2.parcel = .control .synStream bytes (some r)) ∧
      (∀ mo ∈ past, ∀ front type bytes r back, mo.task? = some .flush → mo.before.session.outbox.busy = false →
        mo.before.session.outbox.parcels = front ++ .control type bytes r :: back →
        (∀ q ∈ front, mo.before.session.isReady q = false) →
        ∃ x, mo.handed? = some (bytes, x) ∧ x.parcel = .control type bytes r) ∧
      ((∀ mo ∈ past, mo.isOrderly) → m.stack = [] → m.session.outstanding = [] → m.session.queuedControls = []) := by
  refine ⟨controls_of_run hnew run hwritten, ?_, units_of_run hnew run, ?_, ?_, ?_,
    queuedControls_of_settled hnew run⟩
  · rintro pre mo post r rfl
    rcases lags_of_run hnew run hwritten r with hsent | ⟨front, back, hlags⟩
    · exact .inl hsent
    · right
      rw [← hlags.units, Session.wholeUnits, hlags.parcels, List.filterMap_append]
      exact List.suffix_append _ _
  · intro mo hmo bytes x r rest written handed parcel
    obtain ⟨pre, -, hrun, hnext⟩ := run.of_mem hmo
    exact wholeUnits_of_handed (passage_of_next? hnew hrun hnext) handed parcel
  · rintro pre mo post r rfl opened
    obtain ⟨bytes, hposted, hintroduced⟩ := introduced_of_run hnew run hwritten opened
    refine ⟨bytes, hposted, fun f hf => ?_⟩
    cases hintroduced with
    | waits frames =>
      rw [frames] at hf
      cases hf
    | sent frames parcel =>
      rw [frames] at hf
      obtain rfl := Option.some.inj hf
      exact ⟨rfl, parcel⟩
  · intro mo hmo front type bytes r back htask free parcels blocked
    obtain ⟨pre, -, hrun, hnext⟩ := run.of_mem hmo
    exact handed?_of_flush hnext (placed_of_run hrun) htask free parcels blocked

/-- The window ends within the data of a stream, and a ping goes past the rest of it. -/
theorem controls_keep_order_past_blocked_data : ∃ s past m,
    Session.new { Config.client with initialWindow := 2 } none = .ok s ∧
      Run (.standard 16384) { session := s } past m ∧ (∀ mo ∈ past, mo.isFailure = false) ∧
      m.session.outbox.parcels = [.data ⟨0⟩ ⟨[3], true⟩ 2] ∧ (sentControls past).length = 2 ∧
      (sentData ⟨0⟩ past).length = 2 ∧
      enqueuedControls past = sentControls past ++ m.session.queuedControls := by
  have hnew : Session.new { Config.client with initialWindow := 2 } none =
      .ok (.fresh { Config.client with initialWindow := 2 } none) := rfl
  have hrun := Machine.run_of_replay? (.standard 16384)
    { session := .fresh { Config.client with initialWindow := 2 } none }
    [.invoke (.syn .v3 (.plain default false) none), .tick, .tick, .answer none, .tick, .leave,
      .invoke (.data ⟨0⟩ ⟨[1, 2, 3], true⟩), .tick, .leave,
      .invoke (.complete 1), .tick, .tick, .tick, .answer none, .tick, .leave,
      .invoke (.complete 2), .tick, .tick, .leave,
      .invoke (.ping .v3), .tick, .answer none, .tick, .leave] rfl
  exact ⟨_, _, _, hnew, hrun, by decide, rfl, by decide, by decide, (controls_keep_order hnew hrun (by decide)).1⟩

end Spdy
