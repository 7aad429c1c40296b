import Spdy.Proofs.Calm

/-!
# Posting

Apart from the reports of writes, the work of a session posts parcels and leaves tasks that do not
concern the writes in progress. Where it posts something or moves a window, it leaves a flush.

* `Task.isPlain` : tasks that do not concern the writes in progress; `Without` : tasks of other kinds;
* `Parcel.stream?` : the stream that a parcel speaks for; the session's own parcels speak for none;
* `Posts s p new`, `Moves s p` : the work `p` on `s` posts `new`, moves windows; `Adds s p new` if it
  does one of the two;
* `Work` : one of these, or windows that get another size;
* `perform_posts`, `receive_work` : what tasks and received frames do.
-/

namespace Spdy

def Task.isPlain : Task → Bool
  | .release | .endWrite _ | .call (.write ..) => false
  | _ => true

def Without (kind : Task → Bool) (todo : List Task) : Prop := ∀ x ∈ todo, kind x = false

theorem Without.not_mem {kind : Task → Bool} {todo : List Task} (h : Without kind todo) {x : Task} (hx : kind x) :
    x ∉ todo := by
  intro hmem
  rw [h x hmem] at hx
  cases hx

@[simp] theorem without_nil {kind : Task → Bool} : Without kind [] := by simp [Without]

@[simp] theorem without_cons {kind : Task → Bool} {x : Task} {todo : List Task} :
    Without kind (x :: todo) ↔ kind x = false ∧ Without kind todo := by simp [Without]

@[simp] theorem without_append {kind : Task → Bool} {todo todo' : List Task} :
    Without kind (todo ++ todo') ↔ Without kind todo ∧ Without kind todo' := by
  simp only [Without, List.mem_append]
  exact ⟨fun h => ⟨fun x hx => h x (.inl hx), fun x hx => h x (.inr hx)⟩,
    fun h x hx => hx.elim (h.1 x) (h.2 x)⟩

@[simp] theorem without_map {α : Type} {kind : Task → Bool} {f : α → Task} {l : List α} :
    Without kind (l.map f) ↔ ∀ a ∈ l, kind (f a) = false := by simp [Without]

def Parcel.stream? : Parcel → Option StreamRef
  | .control _ _ r => r
  | .data r _ _ => some r

def Own (new : List Parcel) : Prop := ∀ q ∈ new, q.stream? = none ∧ q.dataOf? = none

theorem own_nil : Own [] := by simp [Own]

theorem own_control (type : FrameType) (bytes : Bytes) : Own [.control type bytes none] := by
  simp [Own, Parcel.stream?, Parcel.dataOf?]

/-- Work that posts parcels, may move windows and is steady otherwise. -/
structure Adds (s : Session) (p : Progress) (new : List Parcel) : Prop where
  session : ∃ t, Steady s t ∧ p.session = t.post new
  plain : ∀ x ∈ p.todo, x.isPlain

theorem Adds.outbox {s : Session} {p : Progress} {new : List Parcel} (h : Adds s p new) :
    p.session.outbox = { s.outbox with parcels := s.outbox.parcels ++ new } := by
  obtain ⟨t, ht, heq⟩ := h.session
  rw [heq, Session.post, ht.outbox]

theorem Adds.outstanding {s : Session} {p : Progress} {new : List Parcel} (h : Adds s p new) :
    p.session.outstanding = s.outstanding := by
  obtain ⟨t, ht, heq⟩ := h.session
  rw [heq, Session.post, ht.outstanding]

/-- Work that posts parcels and is calm otherwise. -/
structure Posts (s : Session) (p : Progress) (new : List Parcel) : Prop where
  session : ∃ t, Calm s t ∧ p.session = t.post new
  plain : ∀ x ∈ p.todo, x.isPlain
  flush : new ≠ [] → .flush ∈ p.todo

/-- Work that moves windows and is steady otherwise. -/
structure Moves (s : Session) (p : Progress) : Prop where
  session : Steady s p.session
  plain : ∀ x ∈ p.todo, x.isPlain
  flush : .flush ∈ p.todo

/-- Work that lets windows grow and is steady otherwise. -/
structure Lifts (s : Session) (p : Progress) : Prop extends Moves s p where
  initialWindow : p.session.initialWindow = s.initialWindow
  grows : ∀ r, (s.stream r).window ≤ (p.session.stream r).window
  bounded : (∀ r, (s.stream r).window ≤ Stream.maxWindow) →
    ∀ r, (p.session.stream r).window ≤ Stream.maxWindow

/-- Work that is done at once, if not for a write: it posts `new`, lets windows grow, or gives all windows
the size that the peer tells. -/
inductive Work (s : Session) (op : Option Operation) (p : Progress) (new : List Parcel) : Prop
  | posts (h : Posts s p new)
  | lifts {version : Version} {id delta : UInt32} (nil : new = [])
      (op : op = some (.receive (.control ⟨version, .windowUpdate id delta⟩))) (h : Lifts s p)
  | resizes {version : Version} {flags : UInt8} {entries : List Setting} (nil : new = [])
      (op : op = some (.receive (.control ⟨version, .settings flags entries⟩)))
      (sent : s.goAwaySent = false)
      (eq : p = s.receiveSettings ⟨entries, Flag.has flags Flag.clearSettings⟩)

theorem Posts.adds {s : Session} {p : Progress} {new : List Parcel} (h : Posts s p new) :
    Adds s p new := by
  obtain ⟨t, ht, heq⟩ := h.session
  exact ⟨⟨t, ht.toSteady, heq⟩, h.plain⟩

theorem Moves.adds {s : Session} {p : Progress} (h : Moves s p) : Adds s p [] :=
  ⟨⟨p.session, h.session, (Session.post_nil _).symm⟩, h.plain⟩

theorem Posts.of_calm {s : Session} {p : Progress} (h : Calm s p.session)
    (plain : ∀ x ∈ p.todo, x.isPlain) : Posts s p [] :=
  ⟨⟨p.session, h, (Session.post_nil _).symm⟩, plain, fun hn => absurd rfl hn⟩

theorem Posts.idle (s : Session) (notes : List Note) : Posts s { session := s, notes } [] :=
  .of_calm (.refl s) (by simp)

theorem Posts.after {s t : Session} {p : Progress} {new : List Parcel} (h : Calm s t)
    (hp : Posts t p new) : Posts s p new := by
  obtain ⟨u, hu, heq⟩ := hp.session
  exact ⟨⟨u, h.trans hu, heq⟩, hp.plain, hp.flush⟩

theorem Posts.of_eq {s : Session} {p q : Progress} {new : List Parcel} (hp : Posts s p new)
    (hs : q.session = p.session) (ht : q.todo = p.todo) : Posts s q new :=
  ⟨by rw [hs]; exact hp.session, by rw [ht]; exact hp.plain, by rw [ht]; exact hp.flush⟩

/-! ## Moving a window -/

theorem Stream.credit_eq_ok {x y : Stream} {delta : Int} (h : x.credit delta = .ok y) :
    y = { x with window := x.window + delta } ∧
      minWindow ≤ x.window + delta ∧ x.window + delta ≤ maxWindow := by
  unfold Stream.credit at h
  split at h
  · rename_i hin
    exact ⟨(Except.ok.inj h).symm, hin⟩
  · cases h

theorem Stream.Later.of_credit {x y : Stream} {delta : Int} (h : x.credit delta = .ok y) :
    x.Later y := by
  rw [(Stream.credit_eq_ok h).1]
  exact ⟨rfl, rfl, fun h => h, fun h => h, fun h => h⟩

theorem Steady.credit {s : Session} {r : StreamRef} {y : Stream} {delta : Int}
    (h : (s.stream r).credit delta = .ok y) : Steady s (s.update r fun _ => y) :=
  .update s r _ (.of_credit h) fun _ hy => by rwa [(Stream.credit_eq_ok h).1] at hy

theorem Stream.credit_eq_error {x : Stream} {delta : Int} {e : Error}
    (h : x.credit delta = .error e) :
    x.window + delta < minWindow ∨ maxWindow < x.window + delta := by
  unfold Stream.credit at h
  split at h
  · cases h
  · omega

namespace Session

variable (enc : Encoder)

/-! ## Tasks -/

theorem remove_todo (s : Session) (r : StreamRef) : ∀ x ∈ (s.remove r).todo, x.isPlain := by
  unfold remove
  split <;> simp [Task.isPlain]

theorem remove_posts (s : Session) (r : StreamRef) : Posts s (s.remove r) [] :=
  .of_calm (.remove s r) (s.remove_todo r)

theorem countDone_post (s : Session) (new : List Parcel) (r : StreamRef) :
    (s.post new).countDone r = (s.countDone r).post new := by
  have hremote : (s.post new).isRemote = s.isRemote := rfl
  simp only [countDone, stream_post, hremote]
  by_cases h : (s.stream r).isClosed && s.isRemote (s.stream r).id
  · rw [if_pos h, if_pos h]
    rfl
  · rw [if_neg h, if_neg h]

theorem remove_post (s : Session) (new : List Parcel) (r : StreamRef) :
    (s.post new).remove r = { s.remove r with session := (s.remove r).session.post new } := by
  unfold remove
  have hfind : (s.post new).find? ((s.post new).idOf r) = s.find? (s.idOf r) := rfl
  have hforget : (s.post new).forget ((s.post new).idOf r) = (s.forget (s.idOf r)).post new := rfl
  rw [hfind, hforget]
  by_cases h : (s.find? (s.idOf r)).isSome
  · rw [if_pos h, if_pos h]
    simp only [countDone_post]
    rfl
  · rw [if_neg h, if_neg h]

/-- Frames are dealt with until the end of the session is announced. -/
theorem receive_control {s : Session} (sent : s.goAwaySent = false) (f : ControlFrame) :
    s.receive enc (.control f) = s.receiveControl enc f := by
  rw [receive, sent, if_neg Bool.false_ne_true]

theorem receive_data {s : Session} (sent : s.goAwaySent = false) (f : DataFrame) :
    s.receive enc (.data f) = s.receiveData enc f := by
  rw [receive, sent, if_neg Bool.false_ne_true]

/-- Gives a stream up that is in the table; the peer is told already, if it can be. -/
def giveUp (s : Session) (id : UInt32) (notes : List Note) : Progress :=
  match s.find? id with
  | none => { session := s, todo := [.flush], notes }
  | some r =>
    let gone := (s.markReset r).remove r
    { gone with todo := gone.todo ++ [.flush], notes }

theorem reset_eq (s : Session) (version : Version) (id : UInt32) (status : StreamStatus) :
    s.reset enc version id status =
      if s.goAwaySent then { session := s }
      else
        match encodeReset enc version id status with
        | .ok bytes => (s.post [.control .rstStream bytes none]).giveUp id []
        | .error cause => s.giveUp id [.resetRefused id cause] := by
  unfold reset
  split
  · rfl
  · cases encodeReset enc version id status <;> rfl

theorem giveUp_posts (s : Session) (new : List Parcel) (id : UInt32) (notes : List Note) :
    Posts s ((s.post new).giveUp id notes) new := by
  unfold giveUp
  split
  · exact ⟨⟨s, .refl s, rfl⟩, by simp [Task.isPlain], by simp⟩
  · rename_i r _
    have hmark : (s.post new).markReset r = (s.markReset r).post new := rfl
    rw [hmark, remove_post]
    refine ⟨⟨_, (Calm.markReset s r).trans (.remove _ r), rfl⟩, ?_, by simp⟩
    intro x hx
    rw [List.mem_append, List.mem_singleton] at hx
    rcases hx with hx | rfl
    · exact remove_todo _ r x hx
    · rfl

theorem reset_posts (s : Session) (version : Version) (id : UInt32) (status : StreamStatus) :
    ∃ new, Own new ∧ Posts s (s.reset enc version id status) new := by
  rw [reset_eq]
  split
  · exact ⟨[], own_nil, .idle s []⟩
  · split
    · exact ⟨_, own_control .rstStream _, giveUp_posts s _ id []⟩
    · rename_i cause _
      have h := giveUp_posts s [] id [.resetRefused id cause]
      rw [post_nil] at h
      exact ⟨[], own_nil, h⟩

/-- What a task does, unless it concerns the writes in progress. -/
theorem perform_posts (s : Session) {task : Task} (hplain : task.isPlain) (hflush : task ≠ .flush)
    (hcall : task.isCall = false) :
    ∃ new, Own new ∧ Posts s (s.perform enc task) new := by
  cases task with
  | call c => cases hcall
  | flush => exact absurd rfl hflush
  | endWrite seq => cases hplain
  | release => cases hplain
  | tell listeners notice =>
    cases listeners with
    | nil => exact ⟨[], own_nil, .idle s []⟩
    | cons l rest => exact ⟨[], own_nil, .of_calm (.refl s) (by simp [perform, Task.isPlain])⟩
  | announce notice =>
    refine ⟨[], own_nil, .of_calm (.refl s) ?_⟩
    simp only [perform, List.mem_append, List.mem_map, List.mem_singleton]
    rintro x (⟨l, -, rfl⟩ | rfl) <;> rfl
  | tellRegistered notice => exact ⟨[], own_nil, .of_calm (.refl s) (by simp [perform, Task.isPlain])⟩
  | reset version id status => exact s.reset_posts enc version id status
  | lose id =>
    simp only [perform]
    split
    · exact ⟨[], own_nil, .idle s []⟩
    · rename_i r _
      exact ⟨[], own_nil, .after (.markReset s r) (remove_posts _ r)⟩
  | overflow r error => exact ⟨[], own_nil, .of_calm (.refl s) (by simp [perform, Task.isPlain])⟩
  | reclaim r =>
    simp only [perform]
    split
    · exact ⟨[], own_nil, remove_posts s r⟩
    · exact ⟨[], own_nil, .idle s []⟩
  | accept r opening =>
    refine ⟨[], own_nil, .of_calm (.refl s) ?_⟩
    simp only [perform, List.mem_map]
    rintro x ⟨l, -, rfl⟩
    rfl

/-! ## What the reader read -/

theorem tellListener_plain (s : Session) (r : StreamRef) (notice : Notice) :
    ∀ x ∈ s.tellListener r notice, x.isPlain := by
  simp only [tellListener, List.mem_map]
  rintro x ⟨l, -, rfl⟩
  rfl

theorem receiveOn_posts {s : Session} {r : StreamRef} (hr : r ∈ s.table) (close : Bool)
    (notice : Notice) : Posts s (s.receiveOn r close notice) [] := by
  have hcalm : Calm s (if close then s.closeRemote r else s) := by
    split
    · exact .closeRemote hr
    · exact .refl s
  refine .of_calm hcalm ?_
  intro x hx
  simp only [receiveOn, List.mem_append, List.mem_cons, List.not_mem_nil, or_false] at hx
  rcases hx with hx | rfl | rfl
  · exact tellListener_plain _ r notice x hx
  · rfl
  · rfl

theorem receiveSyn_posts (s : Session) (version : Version) (id : UInt32) (opening : Opening) :
    ∃ new, Own new ∧ Posts s (s.receiveSyn enc version id opening) new := by
  unfold receiveSyn
  split
  · exact s.reset_posts enc version id .protocolError
  · split
    · exact s.reset_posts enc _ id .protocolError
    · exact ⟨[], own_nil, .of_calm (.register s _ rfl) (by simp [Task.isPlain])⟩

theorem receiveHead_posts (s : Session) (version : Version) (id : UInt32) (head : Head)
    (notice : StreamRef → Head → Notice) :
    ∃ new, Own new ∧ Posts s (s.receiveHead enc version id head notice) new := by
  unfold receiveHead
  split
  · exact s.reset_posts enc version id .protocolError
  · rename_i hfind
    exact ⟨[], own_nil, receiveOn_posts (List.mem_of_find?_eq_some hfind) _ _⟩

theorem receivePing_posts (s : Session) (version : Version) (id : UInt32) :
    ∃ new, Own new ∧ Posts s (s.receivePing enc version id) new := by
  unfold receivePing
  split
  · exact ⟨[], own_nil, .of_calm (.refl s) (by simp [Task.isPlain])⟩
  · split
    · exact ⟨_, own_control _ _, ⟨s, .refl s, rfl⟩, by simp [Task.isPlain], by simp⟩
    · exact ⟨[], own_nil, .of_calm (.refl s) (by simp [Task.isPlain])⟩

theorem receiveReset_posts (s : Session) (version : Version) (id code : UInt32) :
    Posts s (s.receiveReset version id code) [] :=
  .of_calm (.refl s) (by simp [receiveReset, Task.isPlain])

theorem receiveGoAway_posts (s : Session) (last code : UInt32) :
    Posts s (s.receiveGoAway last code) [] := by
  unfold receiveGoAway
  split
  · exact .idle s []
  · exact .of_calm (.of_same rfl rfl rfl rfl rfl id rfl) (by simp [Task.isPlain])

/-- A window grows, or its stream is to be given up because it cannot. -/
theorem receiveWindow_effect (s : Session) (id delta : UInt32) :
    Posts s (s.receiveWindow id delta) [] ∨ Lifts s (s.receiveWindow id delta) := by
  unfold receiveWindow
  split
  · exact .inl (.of_calm (.refl s) (by simp [Task.isPlain]))
  · split
    · rename_i r _ _ t ht
      have hsteady := Steady.credit ht
      obtain ⟨rfl, -, hmax⟩ := Stream.credit_eq_ok ht
      have hpos : 0 ≤ min (delta.toNat : Int) Stream.maxWindow := by
        have : (0 : Int) ≤ Stream.maxWindow := by decide
        omega
      refine .inr ⟨⟨hsteady, by simp [Task.isPlain], by simp⟩, rfl, ?_, ?_⟩
      · exact s.rel_stream_update (R := fun x y => x.window ≤ y.window) r (fun _ => Int.le_refl _)
          (Int.le_add_of_nonneg_right hpos)
      · exact fun h => forall_stream_update (P := (·.window ≤ Stream.maxWindow)) h hmax
    · exact .inl (.of_calm (.refl s) (by simp [Task.isPlain]))

/-- Moves one window, or notes that it would leave its range. -/
def shiftWindow (delta : Int) (p : Session × List (StreamRef × Error)) (r : StreamRef) :
    Session × List (StreamRef × Error) :=
  match (p.1.stream r).credit delta with
  | .ok t => (p.1.update r fun _ => t, p.2)
  | .error e => (p.1, p.2 ++ [(r, e)])

theorem shiftWindows_eq (s : Session) (delta : Int) :
    s.shiftWindows delta = s.table.foldl (shiftWindow delta) (s, []) := rfl

theorem shiftWindow_steady (delta : Int) (p : Session × List (StreamRef × Error)) (r : StreamRef) :
    Steady p.1 (shiftWindow delta p r).1 := by
  unfold shiftWindow
  split
  · rename_i t ht
    exact .credit ht
  · exact .refl p.1

theorem shiftWindows_steady (s : Session) (delta : Int) : Steady s (s.shiftWindows delta).1 := by
  have hfold : ∀ (l : List StreamRef) (p : Session × List (StreamRef × Error)), Steady s p.1 →
      Steady s (l.foldl (shiftWindow delta) p).1 := by
    intro l
    induction l with
    | nil => exact fun _ h => h
    | cons r l ih => exact fun p hp => ih _ (hp.trans (shiftWindow_steady delta p r))
  rw [shiftWindows_eq]
  exact hfold s.table (s, []) (.refl s)

/-- What changes of streams do not touch stays as it is when windows are moved. -/
theorem shiftWindows_unchanged {α : Type} (f : Session → α)
    (hf : ∀ (s : Session) (r : StreamRef) (g : Stream → Stream), f (s.update r g) = f s) (s : Session)
    (delta : Int) : f (s.shiftWindows delta).1 = f s := by
  have hstep : ∀ (p : Session × List (StreamRef × Error)) (r : StreamRef),
      f (shiftWindow delta p r).1 = f p.1 := by
    intro p r
    unfold shiftWindow
    split
    · exact hf p.1 r _
    · rfl
  have hfold : ∀ (l : List StreamRef) (p : Session × List (StreamRef × Error)),
      f (l.foldl (shiftWindow delta) p).1 = f p.1 := by
    intro l
    induction l with
    | nil => exact fun _ => rfl
    | cons r l ih => exact fun p => (ih _).trans (hstep p r)
  exact hfold s.table (s, [])

theorem receiveSettings_moves (s : Session) (message : SettingsMessage) :
    Moves s (s.receiveSettings message) := by
  unfold receiveSettings
  dsimp only
  split
  · exact ⟨.refl s, by simp [Task.isPlain], by simp⟩
  · have hresize : ∀ size, Steady s { s with initialWindow := size } := fun size =>
      .of_same rfl rfl rfl rfl rfl id
    split
    · exact ⟨hresize _, by simp [Task.isPlain], by simp⟩
    · refine ⟨(hresize _).trans (shiftWindows_steady _ _), ?_, by simp⟩
      simp only [List.mem_append, List.mem_map]
      rintro x (⟨p, -, rfl⟩ | hx)
      · rfl
      · simp only [List.mem_cons, List.not_mem_nil, or_false] at hx
        rcases hx with rfl | rfl <;> rfl

theorem receiveControl_work (s : Session) (f : ControlFrame) (sent : s.goAwaySent = false) :
    ∃ new, Own new ∧ Work s (some (.receive (.control f))) (s.receiveControl enc f) new := by
  have hposts : ∀ {p}, (∃ new, Own new ∧ Posts s p new) →
      ∃ new, Own new ∧ Work s (some (.receive (.control f))) p new := by
    rintro p ⟨new, hown, hp⟩
    exact ⟨new, hown, .posts hp⟩
  obtain ⟨version, body⟩ := f
  cases body with
  | synStream => exact hposts (s.receiveSyn_posts enc _ _ _)
  | synReply => exact hposts (s.receiveHead_posts enc _ _ _ _)
  | rstStream => exact ⟨[], own_nil, .posts (s.receiveReset_posts _ _ _)⟩
  | settings => exact ⟨[], own_nil, .resizes rfl rfl sent rfl⟩
  | noop => exact ⟨[], own_nil, .posts (.idle s [])⟩
  | ping => exact hposts (s.receivePing_posts enc _ _)
  | goAway => exact ⟨[], own_nil, .posts (s.receiveGoAway_posts _ _)⟩
  | headers => exact hposts (s.receiveHead_posts enc _ _ _ _)
  | windowUpdate id delta =>
    rcases s.receiveWindow_effect id delta with h | h
    · exact ⟨[], own_nil, .posts h⟩
    · exact ⟨[], own_nil, .lifts rfl rfl h⟩

theorem announceEnd_posts (s : Session) (version : Version) (status : SessionStatus) :
    ∃ new, Own new ∧ Posts s (s.announceEnd enc version status).1 new ∧
      ((s.announceEnd enc version status).2.isSome → new = []) := by
  have hsent : Calm s { s with goAwaySent := true } :=
    .of_same rfl rfl rfl rfl rfl (fun _ => rfl) rfl
  unfold announceEnd
  dsimp only
  split
  · exact ⟨[], own_nil, .idle s [], fun _ => rfl⟩
  · split
    · exact ⟨[], own_nil, .of_calm hsent (by simp), fun _ => rfl⟩
    · split
      · exact ⟨[], own_nil, .of_calm hsent (by simp), fun _ => rfl⟩
      · exact ⟨_, own_control _ _, ⟨⟨_, hsent, rfl⟩, by simp [Task.isPlain], by simp⟩, by simp⟩

theorem receiveSessionException_posts (s : Session) (e : SessionException) :
    ∃ new, Own new ∧ Posts s (s.receiveSessionException enc e) new := by
  unfold receiveSessionException
  split
  · exact ⟨[], own_nil, .of_calm (.refl s) (by simp [Task.isPlain])⟩
  · obtain ⟨new, hown, hp, hnil⟩ := s.announceEnd_posts enc s.config.version e.status
    split
    · rename_i p heq
      rw [heq] at hp
      exact ⟨new, hown, hp.of_eq rfl rfl⟩
    · rename_i p cause heq
      rw [heq] at hp hnil
      exact ⟨new, hown, hp.session, by simp [Task.isPlain], fun h => absurd (hnil rfl) h⟩

/-- What the session does when it is told what the reader read. -/
theorem receive_work (s : Session) (received : Received) :
    ∃ new, Own new ∧ Work s (some (.receive received)) (s.receive enc received) new := by
  cases received with
  | control f =>
    simp only [receive]
    split
    · exact ⟨[], own_nil, .posts (.idle s [])⟩
    · rename_i hsent
      exact s.receiveControl_work enc f (by simpa using hsent)
  | data f =>
    simp only [receive]
    split
    · exact ⟨[], own_nil, .posts (.idle s [])⟩
    · unfold receiveData
      split
      · obtain ⟨new, hown, hp⟩ := s.reset_posts enc .lowest f.streamId .invalidStream
        exact ⟨new, hown, .posts hp⟩
      · rename_i hfind
        exact ⟨[], own_nil, .posts (receiveOn_posts (List.mem_of_find?_eq_some hfind) _ _)⟩
  | streamException e =>
    obtain ⟨new, hown, hp⟩ := s.reset_posts enc
      (((s.find? e.streamId).map fun r => (s.stream r).version).getD s.config.version) e.streamId
      e.status
    exact ⟨new, hown, .posts (hp.of_eq rfl rfl)⟩
  | sessionException e =>
    obtain ⟨new, hown, hp⟩ := s.receiveSessionException_posts enc e
    exact ⟨new, hown, .posts hp⟩

end Session

namespace Work

variable {s : Session} {op : Option Operation} {p : Progress} {new : List Parcel}

theorem posts_or_moves (h : Work s op p new) : Posts s p new ∨ new = [] ∧ Moves s p := by
  cases h with
  | posts h => exact .inl h
  | lifts nil op h => exact .inr ⟨nil, h.toMoves⟩
  | resizes nil op sent eq =>
    rw [eq]
    exact .inr ⟨nil, s.receiveSettings_moves _⟩

theorem adds (h : Work s op p new) : Adds s p new := by
  rcases h.posts_or_moves with hp | ⟨rfl, hm⟩
  · exact hp.adds
  · exact hm.adds

end Work

end Spdy
