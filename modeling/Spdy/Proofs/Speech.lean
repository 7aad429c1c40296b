import Spdy.Proofs.Post

/-!
# What is said on streams

* `Speech`, `Operation.speech?` : what an accepted call says, and on which stream;
* `Speaks` : the stream is open on this side when the call is accepted;
* `Posted` : what is posted for it;
* `begin_work` : what an operation does at once, unless it reports a write.
-/

namespace Spdy

/-! ## What calls say -/

/-- What an accepted call says on a stream: a control frame, which may be the last frame, or data. -/
inductive Speech
  | head (close : Bool)
  | data (payload : Payload)
deriving DecidableEq, Inhabited

def Speech.closes : Speech → Bool
  | head close => close
  | data payload => payload.close

/-- The stream on which an operation is accepted, with what it says there. -/
def Operation.speech? (op : Operation) (outcome : Outcome) : Option (StreamRef × Speech) :=
  match op, outcome with
  | .syn _ opening _, .opened r => some (r, .head opening.close)
  | .reply r head, .done | .headers r head, .done => some (r, .head head.close)
  | .data r payload, .done | .sessionData r payload, .done => some (r, .data payload)
  | _, _ => none

def Body.isHead : Body → Bool
  | .synStream .. | .synReply .. | .headers .. => true
  | _ => false

/-- A stream of the session is open on this side when something is said on it, and closed by a control
frame that is to be the last. -/
structure Speaks (s t : Session) (r : StreamRef) (x : Speech) : Prop where
  known : r.serial < t.streams.size
  localOpen : (s.stream r).localClosed = false
  closed : x = .head true → (t.stream r).localClosed

inductive Posted (enc : Encoder) (s t : Session) :
    Option (StreamRef × Speech) → List Parcel → Prop
  | own {new : List Parcel} (h : Own new) : Posted enc s t none new
  | head {f : ControlFrame} {bytes : Bytes} {r : StreamRef} {close : Bool} (isHead : f.body.isHead)
      (closes : f.body.closes = close) (encoded : enc.control f = .ok bytes)
      (speaks : Speaks s t r (.head close)) :
      Posted enc s t (some (r, .head close)) [.control f.type bytes (some r)]
  | data {r : StreamRef} {payload : Payload} (speaks : Speaks s t r (.data payload)) :
      Posted enc s t (some (r, .data payload)) [.data r payload 0]

theorem Opening.has_fin_flags (o : Opening) : Flag.has o.flags Flag.fin = o.close := by
  unfold Opening.flags
  cases o.close <;> cases o.unidirectional <;> rfl

theorem Head.has_fin_flags (h : Head) : Flag.has h.flags Flag.fin = h.close := by
  unfold Head.flags
  cases h.close <;> rfl

namespace Session

variable (enc : Encoder)

theorem beginFrame_posts (s : Session) (f : ControlFrame) (outcome : Outcome) :
    ∃ new, Own new ∧ Posts s (s.beginFrame enc f outcome).toProgress new := by
  unfold beginFrame
  split
  · exact ⟨[], own_nil, .idle s []⟩
  · exact ⟨_, own_control _ _, ⟨s, .refl s, rfl⟩, by simp [Task.isPlain], by simp⟩

theorem beginPing_posts (s : Session) (version : Version) :
    ∃ new, Own new ∧ Posts s (s.beginPing enc version).toProgress new := by
  have hcount : Calm s { s with nextPingId := s.nextPingId + 2 } :=
    .of_same rfl rfl rfl rfl rfl id rfl
  obtain ⟨new, hown, hp⟩ := beginFrame_posts enc { s with nextPingId := s.nextPingId + 2 }
    ⟨version, .ping s.nextPingId⟩ (.pinged s.nextPingId)
  exact ⟨new, hown, hp.after hcount⟩

theorem beginSyn_effect (s : Session) (version : Version) (opening : Opening)
    (listener : Option Listener) :
    ∃ new, Posts s (s.beginSyn enc version opening listener).toProgress new ∧
      Posted enc s (s.beginSyn enc version opening listener).session
        ((Operation.syn version opening listener).speech?
          (s.beginSyn enc version opening listener).outcome) new := by
  unfold beginSyn
  split
  · exact ⟨[], .idle s [], .own own_nil⟩
  · split
    · exact ⟨[], .idle s [], .own own_nil⟩
    · dsimp only
      have hcount : Calm s { s with nextStreamId := s.nextStreamId + 2 } :=
        .of_same rfl rfl rfl rfl rfl id rfl
      split
      · exact ⟨[], .of_calm (hcount.trans (.forget _ _)) (by simp), .own own_nil⟩
      · rename_i bytes hbytes
        refine ⟨_, ⟨⟨_, hcount.trans (.register _ _ rfl), post_singleton _ _⟩,
          by simp [Task.isPlain], by simp⟩, ?_⟩
        refine .head rfl ?_ hbytes ⟨?_, ?_, ?_⟩
        · exact opening.has_fin_flags
        · rw [size_enqueue, size_register]
          exact Nat.lt_succ_self _
        · show (s.stream s.nextRef).localClosed = false
          rw [stream_nextRef]
          rfl
        · intro hx
          obtain hx : opening.close = true := by simpa using hx
          exact (congrArg Stream.localClosed (stream_register_nextRef _ _)).trans hx

theorem beginOnStream_effect (s : Session) (alive : Bool) (r : StreamRef) (body : Body)
    (hbody : body.isHead) (hr : r.serial < s.streams.size) :
    ∃ new, Posts s (s.beginOnStream enc alive r body).toProgress new ∧
      (((s.beginOnStream enc alive r body).outcome = .done ∧
          Posted enc s (s.beginOnStream enc alive r body).session (some (r, .head body.closes)) new) ∨
        ((∃ e, (s.beginOnStream enc alive r body).outcome = .failed e) ∧ Own new)) := by
  unfold beginOnStream
  dsimp only
  split
  · exact ⟨[], .idle s [], .inr ⟨⟨_, rfl⟩, own_nil⟩⟩
  · rename_i hopen
    split
    · exact ⟨[], .idle s [], .inr ⟨⟨_, rfl⟩, own_nil⟩⟩
    · split
      · exact ⟨[], .idle s [], .inr ⟨⟨_, rfl⟩, own_nil⟩⟩
      · rename_i bytes hbytes
        have hcalm : Calm s (if body.closes then s.closeLocal r else s) := by
          split
          · exact .closeLocal s r
          · exact .refl s
        refine ⟨_, ⟨⟨_, hcalm, post_singleton _ _⟩, by simp [Task.isPlain], by simp⟩,
          .inl ⟨rfl, .head hbody rfl hbytes ⟨?_, by simpa using hopen, ?_⟩⟩⟩
        · exact Nat.lt_of_lt_of_le hr hcalm.size
        · intro hx
          obtain hx : body.closes = true := by simpa using hx
          rw [stream_enqueue, if_pos hx, closeLocal, stream_update_self _ hr]

theorem beginData_effect (s : Session) (alive : Bool) (r : StreamRef) (payload : Payload)
    (hr : r.serial < s.streams.size) :
    ∃ new, Posts s (s.beginData alive r payload).toProgress new ∧
      (((s.beginData alive r payload).outcome = .done ∧
          Posted enc s (s.beginData alive r payload).session (some (r, .data payload)) new) ∨
        ((∃ e, (s.beginData alive r payload).outcome = .failed e) ∧ Own new)) := by
  unfold beginData
  dsimp only
  split
  · exact ⟨[], .idle s [], .inr ⟨⟨_, rfl⟩, own_nil⟩⟩
  · rename_i hopen
    split
    · exact ⟨[], .idle s [], .inr ⟨⟨_, rfl⟩, own_nil⟩⟩
    · exact ⟨_, ⟨⟨s, .refl s, post_singleton _ _⟩, by simp [Task.isPlain], by simp⟩,
        .inl ⟨rfl, .data ⟨hr, by simpa using hopen, by simp⟩⟩⟩

/-- What is posted by a call that is accepted or fails, by what each outcome says. -/
theorem posted_of_outcome {t : Session} {new : List Parcel} {outcome : Outcome} {said : Option (StreamRef × Speech)}
    {speech? : Outcome → Option (StreamRef × Speech)}
    (h : (outcome = .done ∧ Posted enc s t said new) ∨ ((∃ e, outcome = .failed e) ∧ Own new))
    (hdone : speech? .done = said) (hfailed : ∀ e, speech? (.failed e) = none) :
    Posted enc s t (speech? outcome) new := by
  rcases h with ⟨rfl, hposted⟩ | ⟨⟨e, rfl⟩, hown⟩
  · rwa [hdone]
  · rw [hfailed]
    exact .own hown

/-- What an operation does at once, unless it reports a write. -/
theorem begin_work (s : Session) (alive : Bool) {op : Operation} (hop : op.isReport = false)
    (possible : op.isPossible s) :
    ∃ new, Posted enc s (s.begin enc alive op).session
        (op.speech? (s.begin enc alive op).outcome) new ∧
      Work s (some op) (s.begin enc alive op).toProgress new := by
  cases op with
  | syn version opening listener =>
    obtain ⟨new, hp, hposted⟩ := s.beginSyn_effect enc version opening listener
    exact ⟨new, hposted, .posts hp⟩
  | reset version id status =>
    obtain ⟨new, hown, hp⟩ := s.reset_posts enc version id status
    exact ⟨new, .own hown, .posts hp⟩
  | settings version m =>
    obtain ⟨new, hown, hp⟩ :=
      s.beginFrame_posts enc ⟨version, .settings m.flags m.entries⟩ .done
    exact ⟨new, .own hown, .posts hp⟩
  | ping version =>
    obtain ⟨new, hown, hp⟩ := s.beginPing_posts enc version
    exact ⟨new, .own hown, .posts hp⟩
  | goAway version =>
    obtain ⟨new, hown, hp, -⟩ := s.announceEnd_posts enc version .ok
    exact ⟨new, .own hown, .posts hp⟩
  | reply r head =>
    obtain ⟨new, hp, hposted⟩ := s.beginOnStream_effect enc alive r
      (.synReply head.flags (s.idOf r) head.headers) rfl (of_decide_eq_true possible)
    exact ⟨new, posted_of_outcome enc hposted (by simp [Operation.speech?, Body.closes, head.has_fin_flags])
      fun _ => rfl, .posts hp⟩
  | headers r head =>
    obtain ⟨new, hp, hposted⟩ := s.beginOnStream_effect enc alive r
      (.headers head.flags (s.idOf r) head.headers) rfl (of_decide_eq_true possible)
    exact ⟨new, posted_of_outcome enc hposted (by simp [Operation.speech?, Body.closes, head.has_fin_flags])
      fun _ => rfl, .posts hp⟩
  | data r payload =>
    obtain ⟨new, hp, hposted⟩ := s.beginData_effect enc alive r payload (of_decide_eq_true possible)
    exact ⟨new, posted_of_outcome enc hposted rfl fun _ => rfl, .posts hp⟩
  | sessionData r payload =>
    obtain ⟨new, hp, hposted⟩ := s.beginData_effect enc true r payload (of_decide_eq_true possible)
    exact ⟨new, posted_of_outcome enc hposted rfl fun _ => rfl, .posts hp⟩
  | receive received =>
    obtain ⟨new, hown, hp⟩ := s.receive_work enc received
    exact ⟨new, .own hown, hp⟩
  | complete seq => cases hop
  | fail seq fault => cases hop

end Session

end Spdy
