import Spdy.Proofs.BareReads
import Spdy.Proofs.Fields
import Spdy.Proofs.MachineWords

/-!
# No input makes a session panic

* `SettingsMessage.TooWide` : settings that have no frame (`tooWide_of_refusal`);
* `panicked_iff` : the operations that return a panic, `outcomes_of_next?` : what an operation returns is known
  from its beginning;
* `no_input_panics` : whatever is read, asked and reported, nothing traps and nothing panics, but for settings that
  have no frame.
-/

namespace Spdy

/-! ## What the encoder refuses -/

/-- A setting's number is too large, or there are too many settings for a frame. -/
def SettingsMessage.TooWide (message : SettingsMessage) : Prop :=
  (∃ e ∈ message.entries, 0xffffff < e.id.code) ∨ maxFrameLength < 4 + message.entries.length * 8

instance (message : SettingsMessage) : Decidable message.TooWide :=
  inferInstanceAs (Decidable ((∃ e ∈ message.entries, 0xffffff < e.id.code) ∨
    maxFrameLength < 4 + message.entries.length * 8))

theorem tooWide_of_refusal {version : Version} {message : SettingsMessage} {cause : Refusal}
    (h : ControlFrame.encode ⟨version, .settings message.flags message.entries⟩ = .error cause) :
    message.TooWide := by
  simp only [ControlFrame.encode] at h
  split at h
  · next r hrefusal =>
    obtain ⟨e, hfind, -⟩ := Option.map_eq_some_iff.1 hrefusal
    have hwide := List.find?_some hfind
    exact .inl ⟨e, List.mem_of_find?_eq_some hfind, of_decide_eq_true hwide⟩
  · split at h
    · next hlen =>
      have hlayout : (Body.layout version (.settings message.flags message.entries)).length =
          4 + message.entries.length * 8 := by
        show (Bytes.ofNat 4 message.entries.length ++ message.entries.flatMap Setting.layout).length = _
        rw [List.length_append, Bytes.length_ofNat, Setting.length_flatMap_layout]
      exact .inr (hlayout ▸ hlen)
    · cases h

/-- An operation asks for settings that have no frame. -/
def Operation.Refused (op : Operation) (cause : Refusal) : Prop :=
  ∃ version message, op = .settings version message ∧ message.TooWide ∧
    ControlFrame.encode ⟨version, .settings message.flags message.entries⟩ = .error cause

/-- The frames that a session makes on its own account have a fixed length. -/
theorem encode_ping (version : Version) (id : UInt32) :
    ∃ bytes, ControlFrame.encode ⟨version, .ping id⟩ = .ok bytes := ⟨_, rfl⟩

theorem encode_goAway (version : Version) (last status : UInt32) :
    ∃ bytes, ControlFrame.encode ⟨version, .goAway last status⟩ = .ok bytes := by
  cases version <;> exact ⟨_, rfl⟩

/-! ## What an operation returns -/

section Outcomes

variable (enc : Encoder) (s : Session) (alive : Bool) (p : Panic)

theorem beginSyn_not_panicked (version : Version) (opening : Opening) (listener : Option Listener) :
    (s.beginSyn enc version opening listener).outcome ≠ .panicked p := by
  simp only [Session.beginSyn]
  split
  · rintro ⟨⟩
  · split
    · rintro ⟨⟩
    · split <;> rintro ⟨⟩

theorem beginOnStream_not_panicked (r : StreamRef) (body : Body) :
    (s.beginOnStream enc alive r body).outcome ≠ .panicked p := by
  simp only [Session.beginOnStream]
  split
  · rintro ⟨⟩
  · split
    · rintro ⟨⟩
    · split <;> rintro ⟨⟩

theorem beginData_not_panicked (r : StreamRef) (payload : Payload) :
    (s.beginData alive r payload).outcome ≠ .panicked p := by
  simp only [Session.beginData]
  split
  · rintro ⟨⟩
  · split <;> rintro ⟨⟩

theorem beginFrame_outcome (f : ControlFrame) (outcome : Outcome) :
    (s.beginFrame enc f outcome).outcome =
      match enc.control f with
      | .error cause => .panicked (.cannotGenerate f.type cause)
      | .ok _ => outcome := by
  rw [Session.beginFrame]
  cases enc.control f <;> rfl

theorem beginPing_not_panicked (cap : Nat) (version : Version) :
    (s.beginPing (.standard cap) version).outcome ≠ .panicked p := by
  obtain ⟨bytes, hbytes⟩ := encode_ping version s.nextPingId
  have hcontrol : (Encoder.standard cap).control ⟨version, .ping s.nextPingId⟩ = .ok bytes := hbytes
  rw [Session.beginPing, beginFrame_outcome, hcontrol]
  rintro ⟨⟩

theorem beginGoAway_not_panicked (cap : Nat) (version : Version) :
    (s.beginGoAway (.standard cap) version).outcome ≠ .panicked p := by
  obtain ⟨bytes, hbytes⟩ := encode_goAway version s.lastStreamId (UInt32.ofNat SessionStatus.ok.code)
  have haccepted : (s.announceEnd (.standard cap) version .ok).2 = none := by
    rw [Session.announceEnd]
    split
    · rfl
    · dsimp only
      split
      · rfl
      · simp only [Encoder.standard, hbytes]
  simp only [Session.beginGoAway, haccepted]
  rintro ⟨⟩

end Outcomes

/-- An operation returns a panic if it asks for settings that have no frame, and else never. -/
theorem panicked_iff {cap : Nat} {s : Session} {alive : Bool} {op : Operation} {p : Panic} :
    (s.begin (.standard cap) alive op).outcome = .panicked p ↔
      ∃ cause, op.Refused cause ∧ p = .cannotGenerate .settings cause := by
  have hframe : ∀ version (message : SettingsMessage),
      (s.begin (.standard cap) alive (.settings version message)).outcome =
        match ControlFrame.encode ⟨version, .settings message.flags message.entries⟩ with
        | .error cause => .panicked (.cannotGenerate .settings cause)
        | .ok _ => .done := fun version message =>
    beginFrame_outcome (.standard cap) s ⟨version, .settings message.flags message.entries⟩ .done
  constructor
  · intro h
    cases op with
    | settings version message =>
      rw [hframe] at h
      cases hrefusal : ControlFrame.encode ⟨version, .settings message.flags message.entries⟩ with
      | ok bytes => rw [hrefusal] at h; cases h
      | error cause =>
        rw [hrefusal] at h
        exact ⟨cause, ⟨version, message, rfl, tooWide_of_refusal hrefusal, hrefusal⟩,
          (Outcome.panicked.inj h).symm⟩
    | ping version => exact absurd h (beginPing_not_panicked s p cap version)
    | goAway version => exact absurd h (beginGoAway_not_panicked s p cap version)
    | syn version opening listener => exact absurd h (beginSyn_not_panicked _ s p version opening listener)
    | reply r head => exact absurd h (beginOnStream_not_panicked _ s alive p r _)
    | headers r head => exact absurd h (beginOnStream_not_panicked _ s alive p r _)
    | data r payload => exact absurd h (beginData_not_panicked s alive p r payload)
    | sessionData r payload => exact absurd h (beginData_not_panicked s true p r payload)
    | reset | receive | complete | fail => cases h
  · rintro ⟨cause, ⟨version, message, rfl, -, hrefusal⟩, rfl⟩
    rw [hframe, hrefusal]

/-- A moment brings a panic if an operation is asked for that returns it. -/
theorem outcome?_panicked_iff {cap : Nat} {mo : Moment} {p : Panic}
    (h : mo.before.next? (.standard cap) mo.event = some mo.after) :
    mo.outcome? = some (.panicked p) ↔
      ∃ op cause, mo.event = .invoke op ∧ op.Refused cause ∧ p = .cannotGenerate .settings cause := by
  obtain ⟨m, e, m'⟩ := mo
  dsimp only at h
  cases Machine.happens_of_next? h with
  | invoke op yields possible =>
    show some (m.session.begin (.standard cap) m.isAlive op).outcome = some (.panicked p) ↔ _
    rw [Option.some_inj, panicked_iff]
    constructor
    · rintro ⟨cause, hrefused, hp⟩
      exact ⟨op, cause, rfl, hrefused, hp⟩
    · rintro ⟨op', cause, hop, hrefused, hp⟩
      exact ⟨cause, Event.invoke.inj hop ▸ hrefused, hp⟩
  | _ => simp [Moment.outcome?]

/-- What an operation returns is known when it is asked for, and does not change. -/
theorem outcomes_of_next? {cap : Nat} {mo : Moment} (h : mo.before.next? (.standard cap) mo.event = some mo.after)
    (horderly : mo.isBreak = false) (hop : mo.outcome? = none) :
    mo.after.stack.map (·.outcome) <:+ mo.before.stack.map (·.outcome) := by
  obtain ⟨m, e, m'⟩ := mo
  have hsame : ∀ {todo rest : List Task} {outcome : Outcome} {below : List Activation},
      m.stack = ⟨todo, outcome⟩ :: below →
      ((⟨rest, outcome⟩ : Activation) :: below).map (·.outcome) <:+ m.stack.map (·.outcome) := by
    intro todo rest outcome below hstack
    rw [hstack]
    exact List.suffix_refl _
  dsimp only at h
  cases Machine.happens_of_next? h with
  | invoke op yields possible => cases hop
  | tick stack notCall => exact hsame stack
  | answer reply stack => exact hsame stack
  | caught p stack tell => exact hsame stack
  | @broken p c rest outcome below stack notTell =>
    simp only [Moment.isBreak, Machine.awaited?_of_stack stack] at horderly
    cases c with
    | tell listener notice => cases notTell
    | write bytes handler => cases horderly
    | close graceful => cases horderly
  | leave stack =>
    show List.map _ _ <:+ List.map _ m.stack
    rw [stack]
    exact List.suffix_cons _ _
  | edit e yields => exact List.suffix_refl _
  | drop seq yields => exact List.suffix_refl _

/-! ## Runs -/

/-- Nothing that is read, asked or reported makes a session panic. The session may have any valid configuration,
anything may be taken for received, operations may begin anywhere, writes may fail; only the controller may not
break off, and there are fewer than `2 ^ 64` writes. Then in every moment all that is computed in machine words and
every string that is cut exists. An operation returns a panic if it asks for settings that have no frame, because
an id is too large or they are too many, and else never: what it returns is known when it is asked for. And
whatever bytes arrive, in whatever pieces, are read without reading beyond their end. -/
theorem no_input_panics {cap : Nat} {config : Config} {primary : Option Listener} {s : Session}
    {past : List Moment} {m : Machine} (hnew : Session.new config primary = .ok s)
    (hconfig : config.initialWindow ≤ Stream.maxWindow) (run : Run (.standard cap) { session := s } past m)
    (horderly : ∀ mo ∈ past, mo.isBreak = false) (hwrites : past.countP (·.handed?.isSome) < 2 ^ 64)
    (pieces : List Bytes) :
    (∀ mo ∈ past, Trapping.next? cap mo.before mo.event = some mo.after) ∧
      (∀ mo ∈ past, ∀ p, mo.outcome? = some (.panicked p) ↔
        ∃ op cause, mo.event = .invoke op ∧ op.Refused cause ∧ p = .cannotGenerate .settings cause) ∧
      (∀ mo ∈ past, mo.outcome? = none →
        mo.after.stack.map (·.outcome) <:+ mo.before.stack.map (·.outcome)) ∧
      ∃ b, BareReader.new.feedAll pieces = .ok ((Reader.new.feedAll pieces).1, b) := by
  refine ⟨fun mo hmo => ?_, fun mo hmo p => ?_, fun mo hmo hop => ?_, ?_⟩
  · obtain ⟨pre, post, rfl⟩ := List.append_of_mem hmo
    obtain ⟨hpre, hnext⟩ := run.of_append
    have hcount : mo.after.session.outbox.writes = (pre ++ [mo]).countP (·.handed?.isSome) :=
      writes_of_run hnew (hpre.next hnext)
    have hle : (pre ++ [mo]).countP (·.handed?.isSome) ≤ (pre ++ mo :: post).countP (·.handed?.isSome) := by
      rw [List.append_cons pre mo post]
      exact (List.sublist_append_left (pre ++ [mo]) post).countP_le
    exact Trapping.next?_eq hnext (inWords_of_run hnew hconfig hpre) (inRange_of_run hnew hconfig hpre).initial
      (by omega)
  · obtain ⟨-, -, -, hnext⟩ := run.of_mem hmo
    exact outcome?_panicked_iff hnext
  · obtain ⟨-, -, -, hnext⟩ := run.of_mem hmo
    exact outcomes_of_next? hnext (horderly mo hmo) hop
  · obtain ⟨b, hb, -⟩ := BareReader.feedAll_eq (b := .new) (r := .new) ⟨rfl, fun _ => rfl⟩ pieces
    exact ⟨b, hb⟩

/-- Settings with an id that is too large are asked for, then SETTINGS arrive that shrink the window of a stream
whose data is being written. -/
theorem no_input_panics_with_settings_refused : ∃ s past m,
    Session.new { Config.client with initialWindow := 3 } none = .ok s ∧
      Run (.standard 16384) { session := s } past m ∧ (∀ mo ∈ past, mo.isBreak = false) ∧
      past.countP (·.handed?.isSome) < 2 ^ 64 ∧ (m.session.stream ⟨0⟩).window = -2 ∧
      (∃ mo ∈ past, mo.outcome? = some (.panicked (.cannotGenerate .settings (.settingTooWide 0x1000000)))) ∧
      (∀ mo ∈ past, Trapping.next? 16384 mo.before mo.event = some mo.after) ∧
      ∃ b, BareReader.new.feedAll [[0x80, 3, 0], [6, 0, 0, 0, 1, 7]] =
        .ok ((Reader.new.feedAll [[0x80, 3, 0], [6, 0, 0, 0, 1, 7]]).1, b) := by
  have hnew : Session.new { Config.client with initialWindow := 3 } none =
      .ok (.fresh { Config.client with initialWindow := 3 } none) := rfl
  have hrun := Machine.run_of_replay? (.standard 16384)
    { session := .fresh { Config.client with initialWindow := 3 } none }
    [.invoke (.settings .v3 ⟨[⟨.unknown 0x1000000, 0, 1⟩], false⟩), .leave,
      .invoke (.syn .v3 (.plain default false) none), .tick, .tick, .answer none, .tick, .leave,
      .invoke (.complete 1), .tick, .tick, .tick, .leave,
      .invoke (.data ⟨0⟩ ⟨[1, 2, 3, 4], false⟩), .tick, .answer none, .tick, .leave,
      .invoke (.receive (.control ⟨.v3, .settings 0 [⟨.initialWindowSize, 0, 1⟩]⟩)), .tick, .tick,
      .tick, .tick, .leave, .invoke (.complete 2)] rfl
  have hwhole := no_input_panics hnew (by decide) hrun (by decide) (by decide)
    [[0x80, 3, 0], [6, 0, 0, 0, 1, 7]]
  exact ⟨_, _, _, hnew, hrun, by decide, by decide, by decide, by decide, hwhole.1, hwhole.2.2.2⟩

end Spdy
