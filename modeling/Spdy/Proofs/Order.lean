import Spdy.Proofs.Letters

/-!
# In what order a session says things

What has been handed over and what is going to be are one list of letters. It grows at its end, data that is blocked is
overtaken, and the rest of data is put back; but the frame that opens a stream stays ahead of everything else that is
said on it.

* `Utters`, `utters_of_next?` : what a moment does to the letters;
* `Voices`, `voices_of_deed` : which letters are new;
* `Received.mention?` : the stream that a letter speaks for; resets may be left out of account;
* `Machine.Aims` : tasks that give up a stream are about streams of the session;
* `Heeds` : what is taken for granted of the letters that are received;
* `Grounded`, `grounded_of_run` : nothing is said on a stream before either side opened it;
* `opensFirst_of_run` : the frame that opens a stream comes first.
-/

namespace Spdy

/-! ## What a moment does to the letters -/

def Received.isData : Received → Bool
  | data _ => true
  | _ => false

theorem ControlFrame.isData_reading (f : ControlFrame) : f.reading.isData = false := by
  rw [ControlFrame.reading]
  split
  · rfl
  · rw [emptyNameException]
    split <;> rfl

/-- What a moment does to the letters that are to come. -/
inductive Utters (cap : Nat) (mo : Moment) : Prop
  | post {p : Progress} {new : List Parcel} (deed : Deed (.standard cap) mo.before.session mo.op? mo.task? p new)
      (session : mo.after.session = p.session) (silent : mo.spoken? = none)
      (letters : mo.after.session.letters =
        mo.before.session.letters ++ new.filterMap (·.letter? mo.after.session.idOf))
  | less (silent : mo.spoken? = none) (sublist : mo.after.session.letters.Sublist mo.before.session.letters)
      (kept : ∀ got ∈ mo.before.session.letters, got.isData = false → got ∈ mo.after.session.letters)
  | control {got : Received} {before after : List Received} (spoken : mo.spoken? = some got)
      (letters : mo.before.session.letters = before ++ got :: after)
      (letters' : mo.after.session.letters = before ++ after) (data : ∀ x ∈ before, x.isData)
  | cut {r : StreamRef} {frame : DataFrame} {payload rest : Payload} {before after : List Received}
      (spoken : mo.spoken? = some (.data frame))
      (letters : mo.before.session.letters = before ++ Parcel.dataLetter (mo.before.session.idOf r) payload :: after)
      (letters' : mo.after.session.letters =
        (if rest.bytes = [] then [] else [Parcel.dataLetter (mo.before.session.idOf r) rest]) ++ (before ++ after))
      (data : ∀ x ∈ before, x.isData) (about : frame.streamId = mo.before.session.idOf r)
      (closes : frame.closes = (rest.isEmpty && payload.close)) (close : rest.close = payload.close)
  | more {got : Received} {before after : List Received} (silent : mo.spoken? = none) (isData : got.isData)
      (letters : mo.before.session.letters = got :: (before ++ after))
      (letters' : mo.after.session.letters = before ++ got :: after)
  | lost (loses : mo.isFailure ∨ mo.isDrop) (silent : mo.spoken? = none)
      (sublist : mo.after.session.letters.Sublist mo.before.session.letters)

section Utters

variable {cap : Nat} {config : Config} {primary : Option Listener} {s : Session} {past : List Moment}
  {m m' : Machine} {e : Event}

theorem Parcel.isData_of_rest? {idOf : StreamRef → UInt32} {q : Parcel} {got : Received} (h : q.rest? idOf = some got) :
    got.isData := by
  cases q with
  | control => cases h
  | data r payload written =>
    rw [rest?] at h
    split at h
    · cases h
    · exact Option.some.inj h ▸ rfl

theorem isData_of_blocked {s : Session} {idOf : StreamRef → UInt32} {before : List Parcel}
    (blocked : ∀ x ∈ before, s.isReady x = false) :
    ∀ x ∈ before.filterMap (·.letter? idOf), x.isData := by
  intro x hx
  obtain ⟨q, hq, hletter⟩ := List.mem_filterMap.1 hx
  cases q with
  | control type bytes r =>
    have := blocked _ hq
    cases this
  | data r payload written => exact Option.some.inj hletter ▸ rfl

theorem filterMap_letter?_of_onward {s t : Session} (onward : s.Onward t) (known : s.Known) {l : List Parcel}
    (hl : ∀ q ∈ l, q ∈ s.outbox.parcels) :
    l.filterMap (·.letter? t.idOf) = l.filterMap (·.letter? s.idOf) :=
  List.filterMap_congr fun q hq => Parcel.letter?_congr (onward.idOf_of_known known (hl q hq))

theorem filterMap_rest?_of_onward {s t : Session} (onward : s.Onward t) (known : s.Known) {l : List Handler}
    (hl : ∀ x ∈ l, x ∈ s.outstanding) :
    l.filterMap (·.parcel.rest? t.idOf) = l.filterMap (·.parcel.rest? s.idOf) :=
  List.filterMap_congr fun x hx =>
    Parcel.rest?_congr fun r hr => (onward.later r (known.leaving x (hl x hx) r hr)).id

theorem letters_eq {s t : Session} (onward : s.Onward t) (known : s.Known)
    (houtstanding : ∀ x ∈ t.outstanding, x ∈ s.outstanding) (hparcels : ∀ q ∈ t.outbox.parcels, q ∈ s.outbox.parcels) :
    t.letters =
      t.outstanding.filterMap (·.parcel.rest? s.idOf) ++ t.outbox.parcels.filterMap (·.letter? s.idOf) := by
  rw [Session.letters, filterMap_rest?_of_onward onward known houtstanding,
    filterMap_letter?_of_onward onward known hparcels]

theorem utters_of_hand {mo : Moment} (onward : mo.before.session.Onward mo.after.session)
    (known : mo.before.session.Known) (spelled : mo.before.session.Spelled) (sound : mo.before.session.Sound)
    {before after : List Parcel} {p : Parcel} {bytes : Bytes} {h : Handler}
    (parcels : mo.before.session.outbox.parcels = before ++ p :: after)
    (parcels' : mo.after.session.outbox.parcels = before ++ after)
    (outstanding : mo.before.session.outstanding = []) (outstanding' : mo.after.session.outstanding = [h])
    (blocked : ∀ x ∈ before, mo.before.session.isReady x = false)
    (framed : Framed cap mo.before.session p bytes h.parcel) (handed : mo.handed? = some (bytes, h)) :
    Utters cap mo := by
  have hdata : ∀ x ∈ before.filterMap (·.letter? mo.before.session.idOf), x.isData := isData_of_blocked blocked
  have hp : p ∈ mo.before.session.outbox.parcels := parcels ▸ List.mem_append_right _ List.mem_cons_self
  have hspoken : mo.spoken? = Received.ofBytes? bytes := by
    rw [Moment.spoken?, handed]
    rfl
  have hletters : mo.before.session.letters =
      before.filterMap (·.letter? mo.before.session.idOf) ++
        (p :: after).filterMap (·.letter? mo.before.session.idOf) := by
    rw [Session.letters, outstanding, parcels, List.filterMap_append]
    rfl
  have hletters' : mo.after.session.letters = [h].filterMap (·.parcel.rest? mo.after.session.idOf) ++
      (before.filterMap (·.letter? mo.before.session.idOf) ++
        after.filterMap (·.letter? mo.before.session.idOf)) := by
    rw [Session.letters, outstanding', parcels', ← List.filterMap_append,
      filterMap_letter?_of_onward onward known]
    intro q hq
    rw [parcels]
    exact List.mem_append.2 ((List.mem_append.1 hq).imp_right (List.mem_cons_of_mem _))
  generalize hparcel : h.parcel = q at framed
  cases framed with
  | control type bytes r =>
    obtain ⟨f, haccepted, -⟩ := (spelled _ hp).accepted
    have hreads := haccepted.readsAs
    rw [hreads.ofBytes?] at hspoken
    refine @Utters.control cap mo f.reading _ (after.filterMap (·.letter? mo.before.session.idOf)) hspoken
      (hletters.trans ?_) (hletters'.trans ?_) hdata
    · rw [List.filterMap_cons, Parcel.letter?, hreads.ofBytes?]
    · rw [List.filterMap_cons, hparcel, Parcel.rest?, List.filterMap_nil, List.nil_append]
  | @data r payload written frame rest alive window chunk =>
    have hr : r.serial < mo.before.session.streams.size := known.waiting _ hp r rfl
    have hid : mo.after.session.idOf r = mo.before.session.idOf r := (onward.later r hr).id
    obtain ⟨hne, hlow⟩ := sound r hr
    obtain ⟨habout, hreads⟩ := readsAs_of_chunk chunk hne hlow
    refine @Utters.cut cap mo r frame payload rest _ _ (hspoken.trans hreads.ofBytes?) hletters
      (hletters'.trans ?_) hdata habout ?_ ?_
    · rw [List.filterMap_cons, hparcel, Parcel.rest?, hid]
      split
      · next hnone =>
        split at hnone
        · next hempty => rw [if_pos hempty, List.filterMap_nil]
        · cases hnone
      · next x hsome =>
        split at hsome
        · cases hsome
        · next hleft => rw [if_neg hleft, List.filterMap_nil, Option.some.inj hsome]
    · rw [← DataFrame.carriesFin_encode, (carriesFin_chunk chunk).1]
    · exact (carriesFin_chunk chunk).2

/-- Data that waits on a stream that was reset is taken out. -/
theorem utters_of_drop {mo : Moment} (onward : mo.before.session.Onward mo.after.session)
    (known : mo.before.session.Known) {before after : List Parcel} {r : StreamRef} {payload : Payload} {written : Nat}
    (parcels : mo.before.session.outbox.parcels = before ++ .data r payload written :: after)
    (parcels' : mo.after.session.outbox.parcels = before ++ after)
    (outstanding : mo.after.session.outstanding = mo.before.session.outstanding) (handed : mo.handed? = none) :
    Utters cap mo := by
  have hletters : mo.after.session.letters =
      mo.before.session.outstanding.filterMap (·.parcel.rest? mo.before.session.idOf) ++
        (before ++ after).filterMap (·.letter? mo.before.session.idOf) := by
    rw [letters_eq onward known (fun x hx => outstanding ▸ hx) fun q hq => ?_, outstanding, parcels']
    rw [parcels', List.mem_append] at hq
    rw [parcels, List.mem_append]
    exact hq.imp_right (List.mem_cons_of_mem _)
  refine .less (Moment.spoken?_of_none handed) ?_ fun got hgot hcontrol => ?_
  · rw [hletters, Session.letters, parcels]
    exact List.Sublist.append (.refl _)
      (((List.Sublist.refl before).append (List.sublist_cons_self _ after)).filterMap _)
  · rw [Session.letters, parcels, List.filterMap_append, List.filterMap_cons, Parcel.letter?, List.mem_append,
      List.mem_append, List.mem_cons] at hgot
    rw [hletters, List.filterMap_append, List.mem_append, List.mem_append]
    rcases hgot with hgot | hgot | rfl | hgot
    · exact .inl hgot
    · exact .inr (.inl hgot)
    · cases hcontrol
    · exact .inr (.inr hgot)

/-- Nothing is left of what was being written, or the rest of it is given up. -/
theorem utters_of_report {mo : Moment} (onward : mo.before.session.Onward mo.after.session)
    (known : mo.before.session.Known) (parcels : mo.after.session.outbox.parcels = mo.before.session.outbox.parcels)
    (outstanding : mo.after.session.outstanding = []) (handed : mo.handed? = none) : Utters cap mo := by
  have hletters : mo.after.session.letters =
      mo.before.session.outbox.parcels.filterMap (·.letter? mo.before.session.idOf) := by
    rw [letters_eq onward known (fun y hy => absurd (outstanding ▸ hy) List.not_mem_nil) fun q hq => parcels ▸ hq,
      outstanding, parcels]
    rfl
  refine .less (Moment.spoken?_of_none handed) ?_ fun got hgot hcontrol => ?_
  · rw [hletters]
    exact List.sublist_append_right _ _
  · rw [hletters]
    refine (List.mem_append.1 hgot).resolve_left fun hrest => ?_
    obtain ⟨y, -, hrest⟩ := List.mem_filterMap.1 hrest
    rw [Parcel.isData_of_rest? hrest] at hcontrol
    cases hcontrol

/-- The rest of data that was being written is put back. -/
theorem utters_of_more {mo : Moment} (onward : mo.before.session.Onward mo.after.session)
    (known : mo.before.session.Known) {x : Handler} {r : StreamRef} {payload : Payload} {written : Nat}
    {before after : List Parcel} (outstanding : mo.before.session.outstanding = [x])
    (outstanding' : mo.after.session.outstanding = []) (parcel : x.parcel = .data r payload written)
    (left : payload.bytes ≠ []) (parcels : mo.before.session.outbox.parcels = before ++ after)
    (parcels' : mo.after.session.outbox.parcels = before ++ x.parcel :: after) (handed : mo.handed? = none) :
    Utters cap mo := by
  have hid : mo.after.session.idOf r = mo.before.session.idOf r :=
    (onward.later r (known.leaving x (outstanding ▸ List.mem_cons_self) r (by rw [parcel]; rfl))).id
  have hsub : ∀ q ∈ before ++ after, q ∈ mo.before.session.outbox.parcels := fun q hq => parcels ▸ hq
  have hbefore := filterMap_letter?_of_onward onward known fun q hq => hsub q (List.mem_append_left _ hq)
  have hafter := filterMap_letter?_of_onward onward known fun q hq => hsub q (List.mem_append_right _ hq)
  refine @Utters.more cap mo (Parcel.dataLetter (mo.before.session.idOf r) payload)
    (before.filterMap (·.letter? mo.before.session.idOf)) (after.filterMap (·.letter? mo.before.session.idOf))
    (Moment.spoken?_of_none handed) rfl ?_ ?_
  · rw [Session.letters, outstanding, parcels, List.filterMap_append, List.filterMap_cons, parcel, Parcel.rest?,
      if_neg left]
    rfl
  · rw [Session.letters, outstanding', parcels', List.filterMap_append, List.filterMap_cons, parcel, hbefore, hafter,
      Parcel.letter?, hid]
    rfl

theorem utters_of_passage {mo : Moment} (onward : mo.before.session.Onward mo.after.session)
    (known : mo.before.session.Known) (spelled : mo.before.session.Spelled) (sound : mo.before.session.Sound)
    (befalls : Befalls cap mo) (passage : Passage cap mo) : Utters cap mo := by
  cases passage with
  | @post new parcels outstanding said handed =>
    have hletters : mo.after.session.letters =
        mo.before.session.letters ++ new.filterMap (·.letter? mo.after.session.idOf) := by
      rw [Session.letters, parcels, outstanding, List.filterMap_append, ← List.append_assoc,
        filterMap_rest?_of_onward onward known fun _ hx => hx, filterMap_letter?_of_onward onward known fun _ hq => hq,
        Session.letters]
    rcases befalls.posts parcels outstanding with rfl | ⟨p, deed, session⟩
    · rw [List.filterMap_nil, List.append_nil] at hletters
      exact .less (Moment.spoken?_of_none handed) (hletters ▸ .refl _) fun _ hgot _ => hletters ▸ hgot
    · exact .post deed session (Moment.spoken?_of_none handed) hletters
  | drop parcels parcels' outstanding reset silent =>
    exact utters_of_drop onward known parcels parcels' outstanding silent.handed
  | hand parcels parcels' outstanding outstanding' blocked framed said handed =>
    exact utters_of_hand onward known spelled sound parcels parcels' outstanding outstanding' blocked framed handed
  | written parcels outstanding outstanding' whole silent =>
    exact utters_of_report onward known parcels outstanding' silent.handed
  | stuck parcels outstanding outstanding' parcel credit silent =>
    exact utters_of_report onward known parcels outstanding' silent.handed
  | more outstanding outstanding' parcel left parcels parcels' clear silent =>
    exact utters_of_more onward known outstanding outstanding' parcel left parcels parcels' silent.handed
  | failed fails parcels outstanding silent =>
    refine .lost (.inl fails) (Moment.spoken?_of_none silent.handed) ?_
    rw [Session.letters, outstanding, parcels]
    exact List.nil_sublist _
  | dropped drops parcels outstanding silent =>
    refine .lost (.inr drops) (Moment.spoken?_of_none silent.handed) ?_
    rw [letters_eq onward known (fun x hx => outstanding.subset hx) fun q hq => parcels ▸ hq, parcels, Session.letters]
    exact (outstanding.filterMap _).append (.refl _)

theorem utters_of_next? (hnew : Session.new config primary = .ok s)
    (run : Run (.standard cap) { session := s } past m) (h : m.next? (.standard cap) e = some m')
    (sound : m.session.Sound) : Utters cap ⟨m, e, m'⟩ :=
  utters_of_passage (onward_of_next? run h) (known_of_run hnew run) (spelled_of_run hnew run) sound
    (befalls_of_next? h (tidy_of_run hnew run)) (passage_of_next? hnew run h)

end Utters

/-! ## New letters -/

def Received.isOneWay : Received → Bool
  | control ⟨_, .synStream flags ..⟩ => Flag.has flags Flag.unidirectional
  | _ => false

/-- A letter that a piece of work posts. -/
inductive Voices (enc : Encoder) (s : Session) (op : Option Operation) (task : Option Task) (p : Progress)
    (got : Received) : Prop
  | whole (whole : got.streamId? = none)
  | data {r : StreamRef} {payload : Payload} (known : r.serial < s.streams.size)
      (same : s.Same p.session) (letter : got = Parcel.dataLetter (s.idOf r) payload)
  | said {r : StreamRef} (known : r.serial < s.streams.size) (size : p.session.streams.size = s.streams.size)
      (about : got.streamId? = some (s.idOf r)) (opening : got.opening? = none) (reset : got.reset? = none)
      (isData : got.isData = false) (closes : got.closes → (p.session.stream r).localClosed)
  | opened {version : Version} {opening : Opening} {listener : Option Listener}
      (asks : op = some (.syn version opening listener))
      (size : p.session.streams.size = s.streams.size + 1) (hasId : p.session.idOf s.nextRef = s.nextStreamId)
      (next : p.session.nextStreamId = s.nextStreamId + 2) (about : got.streamId? = some s.nextStreamId)
      (reset : got.reset? = none) (isData : got.isData = false) (oneWay : got.isOneWay = false)
      (closes : got.closes → (p.session.stream s.nextRef).localClosed)
  | quit {version : Version} {id : UInt32} {status : StreamStatus} (cause : Quits op task version id status)
      (reset : got.reset? = some (low31 id)) (about : got.streamId? = some (low31 id))
      (abandons : s.Abandons p.session id)

section Voices

variable {cap : Nat} {s : Session} {op : Option Operation} {task : Option Task} {p : Progress} {new : List Parcel}
  {got : Received}

theorem letter?_of_encode {f : ControlFrame} {bytes : Bytes} (h : f.encode = .ok bytes) :
    Received.ofBytes? bytes = some f.reading :=
  (ControlFrame.accepted_of_encode h).readsAs.ofBytes?

theorem Opening.has_unidirectional_flags (o : Opening) : Flag.has o.flags Flag.unidirectional = o.unidirectional := by
  rw [flags]
  cases o.close <;> cases o.unidirectional <;> decide

theorem Session.Same.localClosed {t : Session} (h : s.Same t) (r : StreamRef) :
    (t.stream r).localClosed = (s.stream r).localClosed := h.map (·.localClosed) r

theorem voices_of_deed (deed : Deed (.standard cap) s op task p new) (sound : s.Sound)
    (hnext : s.nextStreamId ≠ 0 ∧ low31 s.nextStreamId = s.nextStreamId)
    (hgot : got ∈ new.filterMap (·.letter? p.session.idOf)) : Voices (.standard cap) s op task p got := by
  obtain ⟨q, hq, hletter⟩ := List.mem_filterMap.1 hgot
  cases deed with
  | same same announces =>
    obtain ⟨f, bytes, rfl, hencoded, hstream⟩ := announces q hq
    obtain ⟨hreading, hnone⟩ := ControlFrame.reading_of_streamId?_eq_none hstream
    obtain rfl := Option.some.inj ((letter?_of_encode hencoded).symm.trans hletter)
    refine .whole ?_
    rw [hreading]
    exact hnone
  | @data r payload known same =>
    rw [List.mem_singleton.1 hq, Parcel.letter?, same.idOf] at hletter
    exact .data known same (Option.some.inj hletter).symm
  | @said r f bytes known isHead notOpening about encoded localOpen same =>
    rw [List.mem_singleton.1 hq] at hletter
    obtain rfl := Option.some.inj ((letter?_of_encode encoded).symm.trans hletter)
    have hsize : p.session.streams.size = s.streams.size := same.size_of_mark
    have hclosed : f.body.closes → (p.session.stream r).localClosed := by
      intro hcloses
      rw [if_pos hcloses] at same
      rw [same.localClosed, Session.closeLocal, Session.stream_update_self _ known]
    obtain ⟨hne, hlow⟩ := sound r known
    rcases ControlFrame.reading_of_head about hne hlow with ⟨heq, habout⟩ | heq
    · rw [heq]
      refine .said known hsize habout (f.opening?_normal notOpening) (ControlFrame.reset?_normal_of_isHead isHead) rfl
        ?_
      exact fun hcloses => hclosed (by rwa [Received.closes, ControlFrame.closes_normal] at hcloses)
    · rw [heq]
      exact .said known hsize rfl rfl rfl rfl fun hcloses => absurd hcloses Bool.false_ne_true
  | @opened version opening listener bytes x asks bidirectional sent encoded hasId localClosed _ _ same =>
    rw [List.mem_singleton.1 hq] at hletter
    obtain rfl := Option.some.inj ((letter?_of_encode encoded).symm.trans hletter)
    have hsize : p.session.streams.size = s.streams.size + 1 := same.size.trans (Session.size_register _ _)
    have hid : p.session.idOf s.nextRef = s.nextStreamId := by
      rw [same.idOf, ← hasId]
      exact congrArg Stream.id (Session.stream_register_nextRef _ _)
    have hclosed : (p.session.stream s.nextRef).localClosed = opening.close := by
      rw [same.localClosed, ← localClosed]
      exact congrArg Stream.localClosed (Session.stream_register_nextRef _ _)
    obtain ⟨hne, hlow⟩ := hnext
    rcases ControlFrame.reading_of_head (f := ⟨version, .synStream opening.flags s.nextStreamId opening.associatedId
        opening.priority opening.headers⟩) rfl hne hlow with ⟨heq, habout⟩ | heq
    · rw [heq]
      refine .opened asks hsize hid same.nextStreamId habout rfl rfl ?_ ?_
      · show Flag.has opening.flags Flag.unidirectional = false
        rw [opening.has_unidirectional_flags, bidirectional]
      · intro hcloses
        rw [hclosed, ← opening.has_fin_flags]
        exact hcloses
    · rw [heq]
      exact .opened asks hsize hid same.nextStreamId rfl rfl rfl rfl fun hcloses => absurd hcloses Bool.false_ne_true
  | unopened => cases hq
  | born => cases hq
  | heard => cases hq
  | @quit version id status bytes cause encoded abandons =>
    rw [List.mem_singleton.1 hq] at hletter
    obtain ⟨n, hn⟩ := encodeReset_eq_ok encoded
    obtain rfl := Option.some.inj ((letter?_of_encode hn).symm.trans hletter)
    rw [ControlFrame.reading_of_reset]
    exact .quit cause rfl rfl abandons
  | muffled => cases hq
  | lost => cases hq
  | reclaimed => cases hq

end Voices

/-! ## What letters speak for -/

namespace Received

/-- The stream that a letter speaks for. Resets are left out of account unless they are asked for. -/
def mention? (resets : Bool) (got : Received) : Option UInt32 :=
  if resets || got.reset?.isNone then got.streamId? else none

variable {resets : Bool} {got other : Received} {id : UInt32}

theorem streamId?_of_mention? (h : got.mention? resets = some id) : got.streamId? = some id := by
  unfold mention? at h
  split at h
  · exact h
  · cases h

theorem mention?_of_reset?_eq_none (h : got.reset? = none) : got.mention? resets = got.streamId? := by
  rw [mention?, h, Option.isNone_none, Bool.or_true, if_pos rfl]

theorem mention?_of_opening? (h : got.opening? = some id) : got.mention? resets = some id := by
  obtain ⟨hreset, hstream⟩ := reset?_of_opening? h
  rw [mention?_of_reset?_eq_none hreset, hstream]

theorem reset?_of_isData (h : got.isData) : got.reset? = none := by
  cases got <;> first | rfl | cases h

theorem opening?_of_isData (h : got.isData) : got.opening? = none := by
  cases got <;> first | rfl | cases h

theorem mention?_of_isData (h : got.isData) : got.mention? resets = got.streamId? :=
  mention?_of_reset?_eq_none (reset?_of_isData h)

theorem resets_of_mention? (h : got.mention? resets = some id) (hreset : got.reset?.isSome) : resets := by
  unfold mention? at h
  split at h
  · next hor =>
    rw [Option.isNone_eq_false_iff.2 hreset, Bool.or_false] at hor
    exact hor
  · cases h

end Received

/-! ## All letters -/

def uttered (past : List Moment) (s : Session) : List Received := spoken past ++ s.letters

/-- A letter is an old one, or data for which there was a letter, or a new one. -/
theorem Utters.mem {cap : Nat} {mo : Moment} (h : Utters cap mo) {past : List Moment} {got : Received}
    (hgot : got ∈ uttered (past ++ [mo]) mo.after.session) :
    got ∈ uttered past mo.before.session ∨
      (∃ old ∈ uttered past mo.before.session, old.isData ∧ got.isData ∧ got.streamId? = old.streamId?) ∨
      ∃ p new, Deed (.standard cap) mo.before.session mo.op? mo.task? p new ∧ mo.after.session = p.session ∧
        got ∈ new.filterMap (·.letter? p.session.idOf) := by
  rw [uttered, spoken_append] at hgot
  cases h with
  | @post p new deed session silent letters =>
    rw [silent, Option.toList_none, List.append_nil, letters, ← List.append_assoc, List.mem_append] at hgot
    rcases hgot with hgot | hgot
    · exact .inl hgot
    · exact .inr (.inr ⟨p, new, deed, session, session ▸ hgot⟩)
  | less silent sublist kept =>
    rw [silent, Option.toList_none, List.append_nil, List.mem_append] at hgot
    exact .inl (List.mem_append.2 (hgot.imp_right fun h => sublist.subset h))
  | control spoken letters letters' data =>
    rw [spoken, letters', Option.toList_some] at hgot
    rw [uttered, letters]
    refine .inl ?_
    simp only [List.mem_append, List.mem_cons, List.not_mem_nil, or_false] at hgot ⊢
    tauto
  | @cut r frame payload rest before after spoken letters letters' data about closes close =>
    rw [spoken, letters', Option.toList_some] at hgot
    rw [uttered, letters]
    have hold : Parcel.dataLetter (mo.before.session.idOf r) payload ∈
        Spdy.spoken past ++ (before ++ Parcel.dataLetter (mo.before.session.idOf r) payload :: after) :=
      List.mem_append_right _ (List.mem_append_right _ List.mem_cons_self)
    simp only [List.mem_append, List.mem_singleton] at hgot
    rcases hgot with (hgot | rfl) | hgot | hgot | hgot
    · exact .inl (List.mem_append_left _ hgot)
    · exact .inr (.inl ⟨_, hold, rfl, rfl, congrArg some about⟩)
    · split at hgot
      · cases hgot
      · rw [List.mem_singleton.1 hgot]
        exact .inr (.inl ⟨_, hold, rfl, rfl, rfl⟩)
    · exact .inl (List.mem_append_right _ (List.mem_append_left _ hgot))
    · exact .inl (List.mem_append_right _ (List.mem_append_right _ (List.mem_cons_of_mem _ hgot)))
  | more silent isData letters letters' =>
    rw [silent, Option.toList_none, List.append_nil, letters'] at hgot
    rw [uttered, letters]
    refine .inl ?_
    simp only [List.mem_append, List.mem_cons] at hgot ⊢
    tauto
  | lost loses silent sublist =>
    rw [silent, Option.toList_none, List.append_nil, List.mem_append] at hgot
    exact .inl (List.mem_append.2 (hgot.imp_right fun h => sublist.subset h))

/-! ## Tasks that give up streams -/

/-- Tasks that give up a stream are about streams of the session. -/
structure Machine.Aims (m : Machine) : Prop where
  overflow : ∀ r e, .overflow r e ∈ m.tasks → r.serial < m.session.streams.size
  reset : ∀ version id status, .reset version id status ∈ m.tasks →
    status = .flowControlError ∧ ∃ r, r.serial < m.session.streams.size ∧ m.session.idOf r = id

section Aims

variable {cap : Nat} {config : Config} {primary : Option Listener} {s : Session} {past : List Moment}
  {m m' : Machine} {e : Event}

theorem known_of_refuses {mo : Moment} {r : StreamRef} {e : Error} (tidy : mo.before.session.Tidy)
    (h : mo.Refuses r e) : r.serial < mo.before.session.streams.size := by
  obtain ⟨delta, hoffer, -⟩ := h
  exact tidy.known r (Moment.mem_of_offer? hoffer).1

theorem Machine.Aims.step (h : m.Aims) (known : m.session.Known) (tidy : m.session.Tidy)
    (onward : m.session.Onward m'.session)
    (ends : ∀ x ∈ m'.tasks, x.endsStream → Moment.Ends ⟨m, e, m'⟩ x) : m'.Aims where
  overflow := by
    intro r err hmem
    refine Nat.lt_of_lt_of_le ?_ onward.size
    generalize hx : Task.overflow r err = x at hmem
    cases ends x hmem (hx ▸ rfl) with
    | old mem => exact h.overflow r err (hx ▸ mem)
    | refused refuses sent =>
      cases hx
      exact known_of_refuses tidy refuses
    | stuck mem parcel credit =>
      cases hx
      exact known.leaving _ mem _ (by rw [parcel]; rfl)
    | given => cases hx
    | reclaim => cases hx
  reset := by
    intro version id status hmem
    have hlater : ∀ r, r.serial < m.session.streams.size →
        ∃ q, q.serial < m'.session.streams.size ∧ m'.session.idOf q = m.session.idOf r :=
      fun r hr => ⟨r, Nat.lt_of_lt_of_le hr onward.size, (onward.later r hr).id⟩
    generalize hx : Task.reset version id status = x at hmem
    cases ends x hmem (hx ▸ rfl) with
    | old mem =>
      obtain ⟨hstatus, r, hr, rfl⟩ := h.reset version id status (hx ▸ mem)
      exact ⟨hstatus, hlater r hr⟩
    | refused => cases hx
    | stuck => cases hx
    | given mem =>
      cases hx
      exact ⟨rfl, hlater _ (h.overflow _ _ mem)⟩
    | reclaim => cases hx

theorem aims_of_run (hnew : Session.new config primary = .ok s)
    (run : Run (.standard cap) { session := s } past m) : m.Aims := by
  induction run with
  | start => exact ⟨nofun, nofun⟩
  | next run h ih =>
    exact ih.step (known_of_run hnew run) (tidy_of_run hnew run) (onward_of_next? run h)
      fun x hx hends => ends_of_next? h (tidy_of_run hnew run) hx hends

end Aims

/-! ## Nothing is said on a stream before it is opened -/

/-- What is taken for granted of what a session receives, and of the streams that its application gives up if that
counts: frames are read off the wire, the one that opens a stream comes first, nothing is said on a stream of this side
before it was opened, and only streams that are open are given up. -/
structure Heeds (resets : Bool) (c : Config) (past : List Moment) : Prop where
  read : ∀ got ∈ taken past, got.IsRead
  first : OpensFirst (Received.mention? resets) (taken past)
  awaits : ∀ mo ∈ past, ∀ got, mo.taken? = some got → ∀ id, got.mention? resets = some id → c.isLocal id →
    id.toNat < mo.before.session.nextStreamId.toNat
  asks : resets → ∀ mo ∈ past, ∀ version id status, mo.op? = some (.reset version id status) →
    ∃ r ∈ mo.before.session.table, mo.before.session.idOf r = id

theorem Heeds.of_append {resets : Bool} {c : Config} {past : List Moment} {mo : Moment}
    (h : Heeds resets c (past ++ [mo])) : Heeds resets c past where
  read := fun got hgot => h.read got (by rw [taken_append]; exact List.mem_append_left _ hgot)
  first := by
    have := h.first
    rw [taken_append, OpensFirst, List.pairwise_append] at this
    exact this.1
  awaits := fun x hx => h.awaits x (List.mem_append_left _ hx)
  asks := fun hresets x hx => h.asks hresets x (List.mem_append_left _ hx)

theorem Heeds.of_none {resets : Bool} {c : Config} {past : List Moment} {mo : Moment} (h : Heeds resets c past)
    (htaken : mo.taken? = none)
    (hasks : resets → ∀ version id status, mo.op? = some (.reset version id status) →
      ∃ r ∈ mo.before.session.table, mo.before.session.idOf r = id) : Heeds resets c (past ++ [mo]) where
  read := by
    rw [taken_append, htaken, Option.toList_none, List.append_nil]
    exact h.read
  first := by
    rw [taken_append, htaken, Option.toList_none, List.append_nil]
    exact h.first
  awaits := by
    intro x hx got hgot
    rcases List.mem_append.1 hx with hx | hx
    · exact h.awaits x hx got hgot
    · rw [List.mem_singleton.1 hx, htaken] at hgot
      cases hgot
  asks := by
    intro hresets x hx
    rcases List.mem_append.1 hx with hx | hx
    · exact h.asks hresets x hx
    · rw [List.mem_singleton.1 hx]
      exact hasks hresets

/-- What is said on a stream is said after the stream was opened, by this side or the other. -/
def Grounded (resets : Bool) (c : Config) (past : List Moment) (s : Session) : Prop :=
  ∀ got ∈ uttered past s, ∀ id, got.mention? resets = some id →
    (c.isLocal id → id.toNat < s.nextStreamId.toNat) ∧
      (c.isLocal id = false → ∃ other ∈ taken past, other.mention? resets = some id)

section Grounded

variable {cap : Nat} {resets : Bool} {config : Config} {primary : Option Listener} {s : Session} {past : List Moment}
  {m m' : Machine} {e : Event}

theorem Numbered.next_sound (h : Numbered config past m) (hconfig : config.fault? = none) (hfew : Few past) :
    m.session.nextStreamId ≠ 0 ∧ low31 m.session.nextStreamId = m.session.nextStreamId := by
  refine ⟨fun h0 => ?_, low31_of_lt (h.next_lt hconfig hfew)⟩
  have := h.next_pos hconfig
  rw [h0] at this
  exact Nat.lt_irrefl _ this

theorem Numbered.grounded (h : Numbered config past m) {r : StreamRef} (hr : r.serial < m.session.streams.size) :
    (config.isLocal (m.session.idOf r) → (m.session.idOf r).toNat < m.session.nextStreamId.toNat) ∧
      (config.isLocal (m.session.idOf r) = false →
        ∃ other ∈ taken past, other.mention? resets = some (m.session.idOf r)) := by
  refine ⟨fun hlocal => (h.own r hr hlocal).2, fun hremote => ?_⟩
  obtain ⟨-, got, hgot, hopening⟩ := h.others r hr hremote
  exact ⟨got, hgot, Received.mention?_of_opening? hopening⟩

theorem Moment.taken?_mem {mo : Moment} {got : Received} (h : mo.taken? = some got) : got ∈ taken (past ++ [mo]) := by
  rw [taken_append, h]
  exact List.mem_append_right _ List.mem_cons_self

theorem Moment.task?_mem {mo : Moment} {task : Task} (h : mo.task? = some task) : task ∈ mo.before.tasks := by
  unfold task? at h
  split at h
  · obtain ⟨a, ha, htask⟩ := Option.bind_eq_some_iff.1 h
    rw [Machine.tasks, List.mem_flatMap]
    exact ⟨a, List.mem_of_mem_head? ha, List.mem_of_mem_head? htask⟩
  · cases h

theorem Voices.grounded {p : Progress} {got : Received} {id : UInt32}
    (voices : Voices (.standard cap) m.session (Moment.op? ⟨m, e, m'⟩) (Moment.task? ⟨m, e, m'⟩) p got)
    (session : m'.session = p.session) (hnew : Session.new config primary = .ok s)
    (run : Run (.standard cap) { session := s } past m) (h : m.next? (.standard cap) e = some m')
    (hfew : Few past) (heeds : Heeds resets config (past ++ [⟨m, e, m'⟩])) (hmention : got.mention? resets = some id) :
    (config.isLocal id → id.toNat < m'.session.nextStreamId.toNat) ∧
      (config.isLocal id = false → ∃ other ∈ taken (past ++ [⟨m, e, m'⟩]), other.mention? resets = some id) := by
  obtain ⟨hconfig, -⟩ := Session.new_eq_ok hnew
  have numbered := numbered_of_run hnew run hfew
  have tidy := tidy_of_run hnew run
  have sound := numbered.sound hconfig hfew heeds.of_append.read
  have hlt := numbered.next_lt hconfig hfew
  have hnext : m.session.nextStreamId.toNat ≤ m'.session.nextStreamId.toNat :=
    nextStreamId_le_of_befalls (befalls_of_next? h tidy) hlt
  have hstream := Received.streamId?_of_mention? hmention
  have hknown : ∀ r, r.serial < m.session.streams.size → got.streamId? = some (m.session.idOf r) →
      (config.isLocal id → id.toNat < m'.session.nextStreamId.toNat) ∧
        (config.isLocal id = false → ∃ other ∈ taken (past ++ [⟨m, e, m'⟩]), other.mention? resets = some id) := by
    intro r hr habout
    obtain rfl := Option.some.inj (hstream.symm.trans habout)
    have grounded := @Numbered.grounded resets _ _ _ numbered _ hr
    refine ⟨fun h => Nat.lt_of_lt_of_le (grounded.1 h) hnext, fun h => ?_⟩
    obtain ⟨other, hother, hmen⟩ := grounded.2 h
    exact ⟨other, by rw [taken_append]; exact List.mem_append_left _ hother, hmen⟩
  cases voices with
  | whole whole =>
    rw [whole] at hstream
    cases hstream
  | data known same letter => exact hknown _ known (by rw [letter]; rfl)
  | said known size about => exact hknown _ known about
  | opened asks size hasId next about =>
    obtain rfl := Option.some.inj (hstream.symm.trans about)
    refine ⟨fun _ => ?_, fun hremote => ?_⟩
    · rw [session, next, toNat_add_two hlt]
      exact Nat.lt_add_of_pos_right Nat.two_pos
    · rw [numbered.isLocal_next] at hremote
      cases hremote
  | @quit version id' status cause reset about abandons =>
    have hresets := Received.resets_of_mention? hmention (by rw [reset]; rfl)
    have hid := Option.some.inj (hstream.symm.trans about)
    have hof : ∀ r, r.serial < m.session.streams.size → m.session.idOf r = id' →
        got.streamId? = some (m.session.idOf r) := by
      rintro r hr rfl
      rw [about, (sound r hr).2]
    cases cause with
    | asked hop =>
      obtain ⟨r, hr, hrid⟩ := heeds.asks hresets _ (List.mem_append_right _ List.mem_cons_self) _ _ _ hop
      exact hknown r (tidy.known r hr) (hof r (tidy.known r hr) hrid)
    | due htask =>
      obtain ⟨-, r, hr, hrid⟩ := (aims_of_run hnew run).reset _ _ _ (Moment.task?_mem htask)
      exact hknown r hr (hof r hr hrid)
    | @heard other hop habout hstatus =>
      -- what is answered by a reset was itself grounded, by the other side
      have htaken := Moment.taken?_of_receive hop
      have hmem : other ∈ taken (past ++ [⟨m, e, m'⟩]) := Moment.taken?_mem htaken
      rw [low31_of_isRead (heeds.read other hmem) habout] at hid
      subst hid
      have hmen : other.mention? resets = some id := by
        rw [Received.mention?, hresets, Bool.true_or, if_pos rfl, habout]
      refine ⟨fun hlocal => Nat.lt_of_lt_of_le ?_ hnext, fun _ => ⟨other, hmem, hmen⟩⟩
      exact heeds.awaits _ (List.mem_append_right _ List.mem_cons_self) other htaken id hmen hlocal

/-- What is received about a stream of this side is received after the stream was opened. -/
theorem lt_next_of_taken (hnew : Session.new config primary = .ok s)
    (run : Run (.standard cap) { session := s } past m) (hfew : Few past) (heeds : Heeds resets config past)
    {got : Received} (hgot : got ∈ taken past) {id : UInt32} (hmention : got.mention? resets = some id)
    (hlocal : config.isLocal id) : id.toNat < m.session.nextStreamId.toNat := by
  induction run with
  | start => exact absurd hgot List.not_mem_nil
  | @next past m m' e run h ih =>
    obtain ⟨hconfig, -⟩ := Session.new_eq_ok hnew
    have hle := nextStreamId_le_of_befalls (befalls_of_next? h (tidy_of_run hnew run))
      ((numbered_of_run hnew run hfew.of_append).next_lt hconfig hfew.of_append)
    refine Nat.lt_of_lt_of_le ?_ hle
    rw [taken_append, List.mem_append] at hgot
    rcases hgot with hgot | hgot
    · exact ih hfew.of_append heeds.of_append hgot
    · have htaken := Option.mem_toList.1 hgot
      exact heeds.awaits _ (List.mem_append_right _ List.mem_cons_self) got htaken id hmention hlocal

theorem grounded_of_run (hnew : Session.new config primary = .ok s)
    (run : Run (.standard cap) { session := s } past m) (hfew : Few past) (heeds : Heeds resets config past) :
    Grounded resets config past m.session := by
  induction run with
  | start =>
    obtain ⟨-, rfl⟩ := Session.new_eq_ok hnew
    exact fun got hgot => absurd hgot List.not_mem_nil
  | @next past m m' e run h ih =>
    obtain ⟨hconfig, -⟩ := Session.new_eq_ok hnew
    have ih := ih hfew.of_append heeds.of_append
    have numbered := numbered_of_run hnew run hfew.of_append
    have tidy := tidy_of_run hnew run
    have sound := numbered.sound hconfig hfew.of_append heeds.of_append.read
    have hold : ∀ id, (config.isLocal id → id.toNat < m.session.nextStreamId.toNat) ∧
        (config.isLocal id = false → ∃ other ∈ taken past, other.mention? resets = some id) →
        (config.isLocal id → id.toNat < m'.session.nextStreamId.toNat) ∧
          (config.isLocal id = false →
            ∃ other ∈ taken (past ++ [⟨m, e, m'⟩]), other.mention? resets = some id) := by
      rintro id ⟨hlocal, hremote⟩
      refine ⟨fun hl => Nat.lt_of_lt_of_le (hlocal hl) ?_, fun hr => ?_⟩
      · exact nextStreamId_le_of_befalls (befalls_of_next? h tidy) (numbered.next_lt hconfig hfew.of_append)
      · obtain ⟨other, hother, hmen⟩ := hremote hr
        exact ⟨other, by rw [taken_append]; exact List.mem_append_left _ hother, hmen⟩
    intro got hgot id hmention
    rcases (utters_of_next? hnew run h sound).mem hgot with
      hgot | ⟨old, hmem, hdata, hdata', heq⟩ | ⟨p, new, deed, session, hletter⟩
    · exact hold id (ih got hgot id hmention)
    · refine hold id (ih old hmem id ?_)
      rw [Received.mention?_of_isData hdata, ← heq, Received.streamId?_of_mention? hmention]
    · have voices : Voices (.standard cap) m.session (Moment.op? ⟨m, e, m'⟩) (Moment.task? ⟨m, e, m'⟩) p got :=
        voices_of_deed deed sound (numbered.next_sound hconfig hfew.of_append) hletter
      exact voices.grounded session hnew run h hfew.of_append heeds hmention

end Grounded

/-! ## What opens a stream comes first -/

namespace OpensFirst

variable {mention? : Received → Option UInt32} {front before after : List Received} {got : Received}

theorem of_closed {l : List Received} (h : ∀ got ∈ l, got.opening? = none) : OpensFirst mention? l :=
  List.pairwise_of_forall_mem_list fun _ _ b hb id hid => by rw [h b hb] at hid; cases hid

theorem advance (h : OpensFirst mention? (front ++ (before ++ got :: after)))
    (hbefore : ∀ x ∈ before, x.opening? = none) : OpensFirst mention? (front ++ got :: (before ++ after)) := by
  have hperm : ∀ x ∈ before, ∀ id, x.opening? = some id → mention? got ≠ some id := by
    intro x hx id hid
    rw [hbefore x hx] at hid
    cases hid
  simp only [OpensFirst, List.pairwise_append, List.pairwise_cons, List.mem_append, List.mem_cons] at h ⊢
  obtain ⟨hfront, ⟨hb, ⟨hga, ha⟩, hba⟩, hf⟩ := h
  refine ⟨hfront, ⟨?_, hb, ha, fun x hx y hy => hba x hx y (.inr hy)⟩, ?_⟩
  · rintro x (hx | hx)
    · exact hperm x hx
    · exact hga x hx
  · rintro x hx y (rfl | hy | hy)
    · exact hf x hx y (.inr (.inl rfl))
    · exact hf x hx y (.inl hy)
    · exact hf x hx y (.inr (.inr hy))

theorem retreat (h : OpensFirst mention? (front ++ got :: (before ++ after))) (hgot : got.opening? = none) :
    OpensFirst mention? (front ++ (before ++ got :: after)) := by
  have hperm : ∀ x ∈ before, ∀ id, got.opening? = some id → mention? x ≠ some id := by
    intro x _ id hid
    rw [hgot] at hid
    cases hid
  simp only [OpensFirst, List.pairwise_append, List.pairwise_cons, List.mem_append, List.mem_cons] at h ⊢
  obtain ⟨hfront, ⟨hg, hb, ha, hba⟩, hf⟩ := h
  refine ⟨hfront, ⟨hb, ⟨fun y hy => hg y (.inr hy), ha⟩, ?_⟩, ?_⟩
  · rintro x hx y (rfl | hy)
    · exact hperm x hx
    · exact hba x hx y hy
  · rintro x hx y (hy | rfl | hy)
    · exact hf x hx y (.inr (.inl hy))
    · exact hf x hx _ (.inl rfl)
    · exact hf x hx y (.inr (.inr hy))

/-- A letter gives way to others that open no stream and are said on the same one. -/
theorem replace (h : OpensFirst mention? (front ++ got :: after)) {parts : List Received}
    (hparts : ∀ x ∈ parts, x.opening? = none ∧ mention? x = mention? got) :
    OpensFirst mention? (front ++ (parts ++ after)) := by
  simp only [OpensFirst, List.pairwise_append, List.pairwise_cons, List.mem_append, List.mem_cons] at h ⊢
  obtain ⟨hfront, ⟨hga, ha⟩, hf⟩ := h
  refine ⟨hfront, ⟨of_closed fun x hx => (hparts x hx).1, ha, ?_⟩, ?_⟩
  · intro x hx y hy id hid
    rw [(hparts x hx).2]
    exact hga y hy id hid
  · rintro x hx y (hy | hy) id hid
    · rw [(hparts y hy).1] at hid
      cases hid
    · exact hf x hx y (.inr hy) id hid

end OpensFirst

section OpensFirst

variable {cap : Nat} {resets : Bool} {config : Config} {primary : Option Listener} {s : Session} {past : List Moment}
  {m : Machine}

/-- Only a request of the application opens a stream, with the next id. -/
theorem Voices.opening {enc : Encoder} {s : Session} {op : Option Operation} {task : Option Task} {p : Progress}
    {got : Received} {id : UInt32} (h : Voices enc s op task p got) (hopening : got.opening? = some id) :
    id = s.nextStreamId ∧ p.session.streams.size = s.streams.size + 1 ∧ p.session.idOf s.nextRef = id := by
  obtain ⟨hreset, hstream⟩ := Received.reset?_of_opening? hopening
  cases h with
  | whole whole =>
    rw [whole] at hstream
    cases hstream
  | data known same letter =>
    rw [letter] at hopening
    cases hopening
  | said known size about opening =>
    rw [opening] at hopening
    cases hopening
  | opened asks size hasId next about =>
    obtain rfl := Option.some.inj (hstream.symm.trans about)
    exact ⟨rfl, size, hasId⟩
  | quit cause reset =>
    rw [reset] at hreset
    cases hreset

/-- Of the letters that work posts, one that opens a stream is alone. -/
theorem opensFirst_of_deed {s : Session} {op : Option Operation} {task : Option Task} {p : Progress}
    {new : List Parcel} (deed : Deed (.standard cap) s op task p new) {mention? : Received → Option UInt32}
    (idOf : StreamRef → UInt32) : OpensFirst mention? (new.filterMap (·.letter? idOf)) := by
  have hone : ∀ q : Parcel, OpensFirst mention? ([q].filterMap (·.letter? idOf)) := by
    intro q
    rw [List.filterMap_cons, List.filterMap_nil]
    cases q.letter? idOf
    · exact .nil
    · exact List.pairwise_singleton _ _
  cases deed with
  | same same announces =>
    refine .of_closed fun got hgot => ?_
    obtain ⟨q, hq, hletter⟩ := List.mem_filterMap.1 hgot
    obtain ⟨f, bytes, rfl, hencoded, hstream⟩ := announces q hq
    obtain ⟨hreading, hnone⟩ := ControlFrame.reading_of_streamId?_eq_none hstream
    obtain rfl := Option.some.inj ((letter?_of_encode hencoded).symm.trans hletter)
    rw [hreading]
    cases hopening : (Received.control f.normal).opening? with
    | none => rfl
    | some id => cases hnone.symm.trans (Received.reset?_of_opening? hopening).2
  | unopened => exact .nil
  | born => exact .nil
  | heard => exact .nil
  | muffled => exact .nil
  | lost => exact .nil
  | reclaimed => exact .nil
  | _ => exact hone _

theorem opensFirst_of_run (hnew : Session.new config primary = .ok s)
    (run : Run (.standard cap) { session := s } past m) (hfew : Few past) (heeds : Heeds resets config past) :
    OpensFirst (Received.mention? resets) (uttered past m.session) := by
  induction run with
  | start =>
    obtain ⟨-, rfl⟩ := Session.new_eq_ok hnew
    exact .nil
  | @next past m m' e run h ih =>
    obtain ⟨hconfig, -⟩ := Session.new_eq_ok hnew
    have ih := ih hfew.of_append heeds.of_append
    have numbered := numbered_of_run hnew run hfew.of_append
    have sound := numbered.sound hconfig hfew.of_append heeds.of_append.read
    have grounded := grounded_of_run hnew run hfew.of_append heeds.of_append
    have hdata : ∀ {l : List Received}, (∀ x ∈ l, x.isData) → ∀ x ∈ l, x.opening? = none :=
      fun h x hx => Received.opening?_of_isData (h x hx)
    rw [uttered] at ih
    rw [uttered, spoken_append]
    cases utters_of_next? hnew run h sound with
    | @post p new deed session silent letters =>
      rw [silent, Option.toList_none, List.append_nil, show m'.session.letters = _ from letters, ← List.append_assoc]
      refine List.pairwise_append.2 ⟨ih, opensFirst_of_deed deed _, fun x hx y hy id hid hmention => ?_⟩
      -- what is new opens a stream that nobody has spoken of
      have voices : Voices (.standard cap) m.session (Moment.op? ⟨m, e, m'⟩) (Moment.task? ⟨m, e, m'⟩) p y :=
        voices_of_deed deed sound (numbered.next_sound hconfig hfew.of_append) (session ▸ hy)
      obtain ⟨rfl, -⟩ := voices.opening hid
      exact Nat.lt_irrefl _ ((grounded x hx _ hmention).1 numbered.isLocal_next)
    | less silent sublist kept =>
      rw [silent, Option.toList_none, List.append_nil]
      exact ih.sublist ((List.Sublist.refl _).append sublist)
    | control spoken letters letters' data =>
      rw [spoken, Option.toList_some, List.append_assoc, show m'.session.letters = _ from letters']
      rw [show m.session.letters = _ from letters] at ih
      exact ih.advance (hdata data)
    | @cut r frame payload rest before after spoken letters letters' data about closes close =>
      rw [spoken, Option.toList_some, List.append_assoc, show m'.session.letters = _ from letters',
        ← List.append_assoc [Received.data frame]]
      rw [show m.session.letters = _ from letters] at ih
      refine (ih.advance (hdata data)).replace fun x hx => ?_
      rcases List.mem_append.1 hx with hx | hx
      · rw [List.mem_singleton.1 hx]
        refine ⟨rfl, ?_⟩
        rw [Received.mention?_of_isData rfl, Received.mention?_of_isData rfl]
        exact congrArg some about
      · split at hx
        · cases hx
        · rw [List.mem_singleton.1 hx]
          exact ⟨rfl, rfl⟩
    | more silent isData letters letters' =>
      rw [silent, Option.toList_none, List.append_nil, show m'.session.letters = _ from letters']
      rw [show m.session.letters = _ from letters] at ih
      exact ih.retreat (Received.opening?_of_isData isData)
    | lost loses silent sublist =>
      rw [silent, Option.toList_none, List.append_nil]
      exact ih.sublist ((List.Sublist.refl _).append sublist)

end OpensFirst

end Spdy
