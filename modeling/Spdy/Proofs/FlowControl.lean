import Spdy.Proofs.Account

/-!
# Flow control

Data is only sent as far as the window of its stream allows, and the window is made smaller only when the
write was reported. In the meantime the window may move: SETTINGS may take it below zero.

* `Solvent` : the account of a stream says how large its window is;
* `Barred` : or nothing more is sent on it, as its window could not make up for a write;
* `data_within_window` : what that means for each frame that is handed to the controller.
-/

namespace Spdy

/-! ## What stays -/

/-- Streams do not come back into the table, where they have different ids, the other side says its last on
open streams only, and the announcement of the end of a session is not taken back. -/
structure Session.Forward (s t : Session) : Prop where
  table : ∀ r ∈ t.table, r ∈ s.table ∨ s.streams.size ≤ r.serial
  remote : ∀ r, r.serial < s.streams.size → r ∉ s.table → (t.stream r).remoteClosed →
    (s.stream r).remoteClosed
  tidy : s.Tidy → t.Tidy
  goAwaySent : s.goAwaySent → t.goAwaySent

theorem Session.Forward.of_steady {s t : Session} (h : Steady s t) : s.Forward t :=
  ⟨h.table, h.remote, h.tidy, h.goAwaySent⟩

theorem Session.Forward.of_same {s t : Session} (hstreams : t.streams = s.streams)
    (htable : t.table = s.table) (hsent : t.goAwaySent = s.goAwaySent) : s.Forward t where
  table := fun r hr => .inl (htable ▸ hr)
  remote := fun r _ _ h => by rwa [stream, hstreams] at h
  tidy := fun h => ⟨by rw [hstreams, htable]; exact h.known, by
    have hid : t.idOf = s.idOf := funext fun r => by rw [idOf, idOf, stream, stream, hstreams]
    rw [hid, htable]
    exact h.nodup⟩
  goAwaySent := fun h => by rw [hsent]; exact h

theorem Wrote.forward {s : Session} {q : Parcel} {p : Progress} (h : Wrote s q p) :
    s.Forward p.session := by
  cases h with
  | control => exact .of_same rfl rfl rfl
  | stuck => exact .of_same rfl rfl rfl
  | @done r payload written x credit =>
    dsimp only
    split
    · exact .of_steady ((Steady.credit credit).trans (Calm.closeLocal _ r).toSteady)
    · exact .of_steady (.credit credit)
  | more credit =>
    have h := Steady.credit credit
    exact ⟨h.table, h.remote, fun hs => ⟨(h.tidy hs).known, (h.tidy hs).nodup⟩, h.goAwaySent⟩

theorem forward_of_turn {cap : Nat} {mo : Moment} (turn : Turn cap mo) :
    mo.before.session.Forward mo.after.session := by
  cases turn with
  | plain work session =>
    obtain ⟨t, ht, heq⟩ := work.adds.session
    rw [session, heq]
    exact ⟨ht.table, ht.remote, fun hs => ⟨(ht.tidy hs).known, (ht.tidy hs).nodup⟩, ht.goAwaySent⟩
  | flush work session =>
    rw [session]
    cases work <;> exact .of_same rfl rfl rfl
  | endWrite session => rw [session]; exact .of_same rfl rfl rfl
  | release session => rw [session]; exact .of_same rfl rfl rfl
  | wrote mem work session =>
    rw [session]
    have h := work.forward
    exact ⟨h.table, h.remote, fun hs => h.tidy ⟨hs.known, hs.nodup⟩, h.goAwaySent⟩
  | failed fails mem session => rw [session]; exact .of_same rfl rfl rfl
  | broken breaks session => rw [session]; exact .of_same rfl rfl rfl
  | dropped drops session => rw [session]; exact .of_same rfl rfl rfl

/-- While the innermost operation has a task to do that is not a call, nothing else can happen. -/
theorem Machine.tick_of_stack {enc : Encoder} {m m' : Machine} {e : Event} {x : Task}
    {rest : List Task} {outcome : Outcome} {below : List Activation}
    (hstack : m.stack = ⟨x :: rest, outcome⟩ :: below) (hcall : x.isCall = false)
    (h : m.next? enc e = some m') :
    e = .tick ∧ m' = ⟨(m.session.perform enc x).session,
      ⟨(m.session.perform enc x).todo ++ rest, outcome⟩ :: below⟩ := by
  have hbusy : m.yields = false := by
    cases x with
    | call c => cases hcall
    | _ => simp [yields, awaited?, hstack]
  cases happens_of_next? h with
  | invoke op yields => rw [hbusy] at yields; cases yields
  | tick stack notCall =>
    rw [hstack] at stack
    cases stack
    exact ⟨rfl, rfl⟩
  | answer reply stack => rw [hstack] at stack; cases stack; cases hcall
  | caught p stack => rw [hstack] at stack; cases stack; cases hcall
  | broken p stack => rw [hstack] at stack; cases stack; cases hcall
  | leave stack => rw [hstack] at stack; cases stack
  | edit e yields => rw [hbusy] at yields; cases yields
  | drop seq yields => rw [hbusy] at yields; cases yields

/-! ## Streams on which nothing more is sent -/

/-- A stream whose window is used up for good: it is not open any more, or is given up next. -/
structure Barred (m : Machine) (r : StreamRef) : Prop where
  known : r.serial < m.session.streams.size
  window : (m.session.stream r).window ≤ 0
  closed : m.session.goAwaySent ∨ r ∉ m.session.table ∨
    ∃ x rest outcome below, m.stack = ⟨x :: rest, outcome⟩ :: below ∧ x.GivesUp m.session r

section Moment

variable {cap : Nat} {m m' : Machine} {e : Event} {r : StreamRef}

theorem Moment.grant?_eq_some {mo : Moment} {q : StreamRef} {delta : Int}
    (h : mo.grant? = some (q, delta)) :
    mo.op?.isSome ∧ mo.before.session.goAwaySent = false ∧ q ∈ mo.before.session.table := by
  unfold grant? at h
  split at h
  · rename_i hop
    split at h
    · cases h
    · rename_i hsent
      obtain ⟨q', hfind, heq⟩ := Option.map_eq_some_iff.1 h
      obtain ⟨rfl, -⟩ := Prod.mk.inj heq
      exact ⟨by rw [hop]; rfl, by simpa using hsent, List.mem_of_find?_eq_some hfind⟩
  · cases h

theorem Moment.size?_eq_some {mo : Moment} {size : Int} (h : mo.size? = some size) :
    mo.op?.any Operation.isSettings ∧ mo.before.session.goAwaySent = false ∧
      0 ≤ size ∧ size ≤ Stream.maxWindow := by
  have hpos := Stream.maxWindow_pos
  unfold size? at h
  split at h
  · rename_i hop
    split at h
    · cases h
    · rename_i hsent
      obtain ⟨n, -, rfl⟩ := Option.map_eq_some_iff.1 h
      refine ⟨by rw [hop]; rfl, by simpa using hsent, ?_, ?_⟩ <;> omega
  · cases h

theorem Moment.lift_of_closed {mo : Moment}
    (h : mo.before.session.goAwaySent ∨ r ∉ mo.before.session.table ∨ mo.op? = none) :
    mo.lift r = 0 := by
  unfold lift
  split
  · rename_i q delta hgrant
    obtain ⟨hop, hsent, hq⟩ := grant?_eq_some hgrant
    refine if_neg fun hr => ?_
    rcases h with h | h | h
    · rw [hsent] at h
      cases h
    · exact h (hr ▸ hq)
    · rw [h] at hop
      cases hop
  · rfl

theorem Moment.shift_of_closed {mo : Moment}
    (h : mo.before.session.goAwaySent ∨ r ∉ mo.before.session.table ∨ mo.op? = none) :
    mo.shift r = 0 := by
  unfold shift
  split
  · rename_i size hsize
    obtain ⟨hop, hsent, -⟩ := size?_eq_some hsize
    refine if_neg fun hr => ?_
    rcases h with h | h | h
    · rw [hsent] at h
      cases h
    · exact h hr
    · rw [h] at hop
      cases hop
  · rfl

theorem Moment.opening_of_known {mo : Moment} (h : r.serial < mo.before.session.streams.size) :
    mo.opening r = 0 := by
  rw [opening, bears, if_neg]
  simp only [Bool.and_eq_true, decide_eq_true_eq]
  omega

theorem Moment.paid_nonneg (mo : Moment) (r : StreamRef) : 0 ≤ mo.paid r := by
  unfold paid
  split
  · exact Int.natCast_nonneg _
  · exact Int.le_refl 0

/-- A stream that is given up next is not open afterwards, or is given up next still. -/
theorem closed_of_givesUp {x : Task} {rest : List Task} {outcome : Outcome} {below : List Activation}
    (hx : x.GivesUp m.session r)
    (hm' : m' = ⟨(m.session.perform (.standard cap) x).session,
      ⟨(m.session.perform (.standard cap) x).todo ++ rest, outcome⟩ :: below⟩) :
    m'.session.goAwaySent ∨ r ∉ m'.session.table ∨
      ∃ x rest outcome below, m'.stack = ⟨x :: rest, outcome⟩ :: below ∧ x.GivesUp m'.session r := by
  subst hm'
  rcases hx with ⟨e, rfl⟩ | ⟨version, status, rfl⟩
  · exact .inr (.inr ⟨_, rest, outcome, below, rfl, .inr ⟨_, _, rfl⟩⟩)
  · cases hsent : m.session.goAwaySent with
    | true =>
      refine .inl ?_
      show (m.session.reset _ version (m.session.idOf r) status).session.goAwaySent = true
      rw [Session.reset_eq, if_pos hsent]
      exact hsent
    | false => exact .inr (.inl (m.session.reset_table _ version r status hsent))

theorem barred_of_next? (h : m.next? (.standard cap) e = some m') (placed : m.Placed)
    (booked : Booked ⟨m, e, m'⟩ r) (hb : Barred m r) : Barred m' r := by
  have turn := turn_of_next? h placed
  have forward : m.session.Forward m'.session := forward_of_turn turn
  have hsize : m.session.streams.size ≤ m'.session.streams.size := (later_of_turn turn).size
  have hsettled : m.session.goAwaySent ∨ r ∉ m.session.table ∨ Moment.op? ⟨m, e, m'⟩ = none := by
    rcases hb.closed with hc | hc | ⟨x, rest, outcome, below, hstack, hx⟩
    · exact .inl hc
    · exact .inr (.inl hc)
    · have hcall : x.isCall = false := by
        rcases hx with ⟨e, rfl⟩ | ⟨version, status, rfl⟩ <;> rfl
      obtain ⟨rfl, -⟩ := Machine.tick_of_stack hstack hcall h
      exact .inr (.inr rfl)
  refine ⟨Nat.lt_of_lt_of_le hb.known hsize, ?_, ?_⟩
  · have hwindow := hb.window
    cases booked with
    | moved hmoved =>
      have hpaid := Moment.paid_nonneg ⟨m, e, m'⟩ r
      rw [Moment.opening_of_known hb.known, Moment.lift_of_closed hsettled,
        Moment.shift_of_closed hsettled] at hmoved
      dsimp only at hmoved
      omega
    | stuck parcel credit hsame => rw [hsame]; exact hwindow
  · rcases hb.closed with hc | hc | ⟨x, rest, outcome, below, hstack, hx⟩
    · exact .inl (forward.goAwaySent hc)
    · refine .inr (.inl fun hr => ?_)
      have hknown := hb.known
      rcases forward.table r hr with ht | ht
      · exact hc ht
      · omega
    · have hcall : x.isCall = false := by
        rcases hx with ⟨e, rfl⟩ | ⟨version, status, rfl⟩ <;> rfl
      exact closed_of_givesUp hx (Machine.tick_of_stack hstack hcall h).2

theorem barred_of_stuck (hm : m.session.InRange) (known : m.session.Known)
    {payload : Payload} {written : Nat} {err : Error} {rest : List Task} {outcome : Outcome}
    {below : List Activation} (parcel : Moment.written? ⟨m, e, m'⟩ = some (.data r payload written))
    (credit : (m.session.stream r).credit (debit written) = .error err)
    (window : (m'.session.stream r).window = (m.session.stream r).window)
    (onward : m.session.Onward m'.session)
    (stack : m'.stack = ⟨.overflow r err :: rest, outcome⟩ :: below) : Barred m' r := by
  have hmax := hm.window r
  have hpos := Stream.maxWindow_pos
  have hmin : Stream.minWindow = -Stream.maxWindow - 1 := by decide
  have hdebit : -Stream.maxWindow ≤ debit written ∧ debit written ≤ 0 := by
    unfold debit
    omega
  have hrange := Stream.credit_eq_error credit
  refine ⟨?_, by omega, .inr (.inr ⟨_, rest, outcome, below, stack, .inl ⟨err, rfl⟩⟩)⟩
  unfold Moment.written? at parcel
  split at parcel
  · obtain ⟨x, hfind, hx⟩ := Option.map_eq_some_iff.1 parcel
    have hmem := List.mem_of_find?_eq_some hfind
    exact Nat.lt_of_lt_of_le (known.leaving x hmem r (by rw [hx]; rfl)) onward.size
  · cases parcel

end Moment

/-! ## Accounts -/

def Solvent (r : StreamRef) (past : List Moment) (s : Session) : Prop :=
  (s.stream r).window =
    total (·.opening r) past + total (·.lift r) past + total (·.shift r) past - total (·.paid r) past

section Run

variable {cap : Nat} {config : Config} {primary : Option Listener} {s : Session} {past : List Moment}
  {m : Machine}

theorem solvent_or_barred (hnew : Session.new config primary = .ok s)
    (hconfig : config.initialWindow ≤ Stream.maxWindow)
    (run : Run (.standard cap) { session := s } past m) (r : StreamRef) :
    Solvent r past m.session ∨ Barred m r := by
  induction run with
  | start =>
    obtain ⟨-, rfl⟩ := Session.new_eq_ok hnew
    exact .inl rfl
  | @next past m e m' run h ih =>
    have hm := inRange_of_run hnew hconfig run
    have known := known_of_run hnew run
    have booked := booked_of_next? h hm known (slim_of_run hnew run) r
    rcases ih with ih | ih
    · cases booked with
      | moved hmoved =>
        refine .inl ?_
        rw [Solvent] at ih ⊢
        simp only [total_append, total_singleton]
        rw [hmoved, ih]
        omega
      | stuck parcel credit window stack =>
        exact .inr (barred_of_stuck hm known parcel credit window
          (later_of_turn (turn_of_next? h (placed_of_run run))) stack)
    · exact .inr (barred_of_next? h (placed_of_run run) booked ih)

end Run

/-- Data is handed to the controller only while the window of its stream is positive, in frames that are
no longer than the window and the cap; and with such a frame no more data of the stream was handed over
and written than its first window, WINDOW_UPDATE and SETTINGS allow together. -/
theorem data_within_window {cap : Nat} {config : Config} {primary : Option Listener} {s : Session}
    {pre : List Moment} (post : List Moment) {mo : Moment} {m : Machine}
    (hnew : Session.new config primary = .ok s) (hconfig : config.initialWindow ≤ Stream.maxWindow)
    (run : Run (.standard cap) { session := s } (pre ++ mo :: post) m) {bytes : Bytes} {h : Handler}
    {r : StreamRef} {rest : Payload} {written : Nat} (handed : mo.handed? = some (bytes, h))
    (parcel : h.parcel = .data r rest written) :
    ∃ frame : DataFrame, bytes = frame.encode ∧ frame.streamId = mo.before.session.idOf r ∧
      frame.payload.length = written ∧ 0 < (mo.before.session.stream r).window ∧
      (written : Int) ≤ min (mo.before.session.stream r).window (Encoder.clampCap cap) ∧
      total (·.paid r) pre + written ≤
        total (·.opening r) pre + total (·.lift r) pre + total (·.shift r) pre := by
  obtain ⟨hpre, hnext⟩ := run.of_append
  obtain ⟨q, -, framed⟩ : ∃ q ∈ mo.before.session.outbox.parcels, Framed cap mo.before.session q bytes h.parcel :=
    (handing_of_turn (turn_of_next? hnext (placed_of_run hpre)) handed).framed
  rw [parcel] at framed
  have hle := framed.written_le
  have hcap := framed.written_le_cap
  cases framed with
  | @data r payload _ frame rest alive window chunk =>
    have hid : frame.streamId = mo.before.session.idOf r := by
      obtain ⟨rfl, -⟩ := Prod.mk.inj chunk
      rfl
    refine ⟨frame, rfl, hid, rfl, window, by omega, ?_⟩
    rcases solvent_or_barred hnew hconfig hpre r with hsolvent | hbarred
    · rw [Solvent] at hsolvent
      omega
    · have := hbarred.window
      omega

/-- SETTINGS arrive while three of four bytes are being written, and the window falls below zero. Then
WINDOW_UPDATE lets the last byte go. -/
theorem data_within_window_below_zero : ∃ (s : Session) (pre : List Moment) (mo : Moment)
    (m : Machine) (bytes : Bytes) (h : Handler) (written : Nat),
    Session.new { Config.client with initialWindow := 3 } none = .ok s ∧
      Run (.standard 16384) { session := s } (pre ++ [mo]) m ∧ mo.handed? = some (bytes, h) ∧
      h.parcel = .data ⟨0⟩ ⟨[], false⟩ written ∧ written = 1 ∧ total (·.opening ⟨0⟩) pre = 3 ∧
      total (·.lift ⟨0⟩) pre = 4 ∧ total (·.shift ⟨0⟩) pre = -2 ∧ total (·.paid ⟨0⟩) pre = 3 ∧
      (∃ mo' ∈ pre, (mo'.after.session.stream ⟨0⟩).window = -2) ∧
      ∃ frame : DataFrame, bytes = frame.encode ∧ frame.streamId = mo.before.session.idOf ⟨0⟩ ∧
        frame.payload.length = written ∧ 0 < (mo.before.session.stream ⟨0⟩).window ∧
        (written : Int) ≤ min (mo.before.session.stream ⟨0⟩).window (Encoder.clampCap 16384) ∧
        total (·.paid ⟨0⟩) pre + written ≤
          total (·.opening ⟨0⟩) pre + total (·.lift ⟨0⟩) pre + total (·.shift ⟨0⟩) pre := by
  have hnew : Session.new { Config.client with initialWindow := 3 } none =
      .ok (.fresh { Config.client with initialWindow := 3 } none) := rfl
  have hpre := Machine.run_of_replay? (.standard 16384)
    { session := .fresh { Config.client with initialWindow := 3 } none }
    [.invoke (.syn .v3 (.plain default false) none), .tick, .tick, .answer none, .tick, .leave,
      .invoke (.complete 1), .tick, .tick, .tick, .leave,
      .invoke (.data ⟨0⟩ ⟨[1, 2, 3, 4], false⟩), .tick, .answer none, .tick, .leave,
      .invoke (.receive (.control ⟨.v3, .settings 0 [⟨.initialWindowSize, 0, 1⟩]⟩)), .tick, .tick,
      .tick, .tick, .leave,
      .invoke (.complete 2), .tick, .tick, .leave,
      .invoke (.receive (.control ⟨.v3, .windowUpdate 1 4⟩))] rfl
  have hrun := hpre.next (e := .tick) rfl
  have hwithin := data_within_window [] hnew (by decide) hrun rfl rfl
  exact ⟨_, _, _, _, _, _, _, hnew, hrun, rfl, rfl, rfl, by decide, by decide, by decide, by decide,
    by decide, hwithin⟩

end Spdy
