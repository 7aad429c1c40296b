import Mathlib.Algebra.Group.Nat.Defs
import Spdy.Proofs.Account

/-!
# A session in machine words

A program keeps windows in signed words of 32 bits, counts writes in 64 bits, takes differences of lengths and
splits strings, and each of these traps where its result does not exist. Here are the parts of a session that do so,
with their traps; everything else is done as the session does it.

* `int32?`, `uint64?`, `difference?`, `splitAt?` : results that may not exist;
* `Trapping.encodeChunk`, `credit`, `shiftWindows`, `receiveSettings`, `receiveWindow`, `wrote`, `write`, `flush` : the
  parts that may trap;
* `Trapping.next?` : what becomes of a machine, unless it traps (`Trapping.next?_eq`);
* `writes_of_run` : the writes are counted.
-/

namespace Spdy

def int32? (n : Int) : Option Int := if Stream.minWindow ≤ n ∧ n ≤ Stream.maxWindow then some n else none

def uint64? (n : Nat) : Option Nat := if n < 2 ^ 64 then some n else none

def difference? (a b : Nat) : Option Nat := if b ≤ a then some (a - b) else none

def splitAt? (bs : Bytes) (n : Nat) : Option (Bytes × Bytes) :=
  if n ≤ bs.length then some (bs.take n, bs.drop n) else none

theorem int32?_eq_some {n : Int} (h : Stream.minWindow ≤ n ∧ n ≤ Stream.maxWindow) : int32? n = some n := if_pos h

theorem int32?_of_nonneg {n : Int} (h : 0 ≤ n ∧ n ≤ Stream.maxWindow) : int32? n = some n := by
  refine int32?_eq_some ⟨?_, h.2⟩
  have hmin : Stream.minWindow = -2147483648 := rfl
  omega

theorem uint64?_eq_some {n : Nat} (h : n < 2 ^ 64) : uint64? n = some n := if_pos h

theorem difference?_eq_some {a b : Nat} (h : b ≤ a) : difference? a b = some (a - b) := if_pos h

theorem splitAt?_eq_some {bs : Bytes} {n : Nat} (h : n ≤ bs.length) :
    splitAt? bs n = some (bs.take n, bs.drop n) := if_pos h

/-- The bytes of a number that fits: a size told by the peer is cut to the largest window. -/
theorem clip_range (n : Nat) :
    0 ≤ min (n : Int) Stream.maxWindow ∧ min (n : Int) Stream.maxWindow ≤ Stream.maxWindow := by
  have hmax : Stream.maxWindow = 2147483647 := rfl
  omega

/-- Two sizes of windows are not negative, so their difference fits. -/
theorem resize_range {previous : Int} (h : 0 ≤ previous ∧ previous ≤ Stream.maxWindow) (n : Nat) :
    Stream.minWindow ≤ min (n : Int) Stream.maxWindow - previous ∧
      min (n : Int) Stream.maxWindow - previous ≤ Stream.maxWindow := by
  have hmin : Stream.minWindow = -2147483648 := rfl
  have hmax : Stream.maxWindow = 2147483647 := rfl
  omega

namespace Trapping

/-! ## Windows -/

/-- Moves a window: it is known that the sum fits before it is computed. -/
def credit (x : Stream) (delta : Int) : Option (Except Error Stream) := do
  let previous ← int32? x.window
  let delta ← int32? delta
  match x.credit delta with
  | .error e => return .error e
  | .ok _ => return .ok { x with window := ← int32? (previous + delta) }

/-- Moves one window, or notes that it would leave its range. -/
def shiftWindow (delta : Int) (p : Session × List (StreamRef × Error)) (r : StreamRef) :
    Option (Session × List (StreamRef × Error)) := do
  match ← credit (p.1.stream r) delta with
  | .ok t => return (p.1.update r fun _ => t, p.2)
  | .error e => return (p.1, p.2 ++ [(r, e)])

def shiftWindows (s : Session) (delta : Int) : Option (Session × List (StreamRef × Error)) :=
  s.table.foldlM (shiftWindow delta) (s, [])

/-- The peer sends settings: the difference of two sizes of windows is computed. -/
def receiveSettings (s : Session) (message : SettingsMessage) : Option Progress :=
  let after : List Task := [.announce (.settings message), .flush]
  match message.get? .initialWindowSize with
  | none => some { session := s, todo := after }
  | some n => do
    let size ← int32? (min (n.toNat : Int) Stream.maxWindow)
    let previous ← int32? s.initialWindow
    let delta ← int32? (size - previous)
    let s := { s with initialWindow := size }
    let (s, failed) ← if delta = 0 then some (s, []) else shiftWindows s delta
    return { session := s, todo := failed.map (fun (r, e) => .overflow r e) ++ after }

def receiveWindow (s : Session) (id delta : UInt32) : Option Progress :=
  match s.find? id with
  | none => some { session := s, todo := [.flush] }
  | some r => do
    match ← credit (s.stream r) (← int32? (min (delta.toNat : Int) Stream.maxWindow)) with
    | .ok t => return { session := s.update r fun _ => t, todo := [.flush] }
    | .error e => return { session := s, todo := [.overflow r e] }

def receive (enc : Encoder) (s : Session) : Received → Option Progress
  | .control ⟨v, .settings flags entries⟩ =>
    if s.goAwaySent then some (s.receive enc (.control ⟨v, .settings flags entries⟩))
    else receiveSettings s ⟨entries, Flag.has flags Flag.clearSettings⟩
  | .control ⟨v, .windowUpdate id delta⟩ =>
    if s.goAwaySent then some (s.receive enc (.control ⟨v, .windowUpdate id delta⟩))
    else receiveWindow s id delta
  | got => some (s.receive enc got)

/-- A frame was written: the number of its bytes is taken off the window. -/
def wrote (s : Session) : Parcel → Option Progress
  | .control t bytes r => some (s.wrote (.control t bytes r))
  | .data r payload written => do
    let length ← int32? (min (written : Int) Stream.maxWindow)
    match ← credit (s.stream r) (← int32? (-length)) with
    | .error e => return { session := s, todo := [.overflow r e, .release] }
    | .ok t =>
      let s := s.update r fun _ => t
      if payload.isEmpty then
        return { session := if payload.close then s.closeLocal r else s, todo := [.reclaim r, .release] }
      else return { session := s.putBack r (.data r payload written), todo := [.release] }

def complete (s : Session) (seq : Nat) : Option Progress :=
  match s.outstanding.find? (·.seq == seq) with
  | none => some { session := s }
  | some h => wrote (s.dropHandler seq) h.parcel

/-! ## Writing -/

/-- Cuts the next data frame off a payload: no more than the window, the cap and the payload allow. -/
def encodeChunk (cap : Nat) (id : UInt32) (window : Int) (p : Payload) :
    Option (Except Refusal (Bytes × Payload)) :=
  if window < 0 then some (.error (.negativeWindow window id))
  else do
    let n := min (min window.toNat cap) p.available
    let (chunk, rest) ← splitAt? p.bytes n
    let rest : Payload := { p with bytes := rest }
    let flags := Flag.when (rest.isEmpty && p.close) Flag.fin
    return .ok (DataFrame.encode { streamId := id, flags, length := .ofNat chunk.length, payload := chunk }, rest)

/-- Hands a frame to the controller: the write gets the next number. -/
def write (s : Session) (bytes : Bytes) (p : Parcel) : Option Progress := do
  let _ ← uint64? (s.outbox.writes + 1)
  return s.write bytes p

/-- Starts the next write: the header is taken off the length of a data frame. -/
def flush (cap : Nat) (s : Session) : Option Progress :=
  match s.take? with
  | none => some { session := s }
  | some (.control t bytes r, s) => write s bytes (.control t bytes r)
  | some (.data r payload _, s) =>
    let t := s.stream r
    if t.reset then some { session := s.finish, todo := [.flush] }
    else do
      match ← encodeChunk (Encoder.clampCap cap) t.id t.window payload with
      | .ok (bytes, rest) => write s bytes (.data r rest (← difference? bytes.length headerLength))
      | .error cause =>
        return { session := s.finish
                 todo := [.reset t.version t.id .internalError]
                 notes := [.dataRefused t cause] }

/-! ## The machine -/

variable (cap : Nat)

def begin (s : Session) (alive : Bool) : Operation → Option Begun
  | .receive got => (receive (.standard cap) s got).map fun p => { p with }
  | .complete seq => (complete s seq).map fun p => { p with }
  | op => some (s.begin (.standard cap) alive op)

def perform (s : Session) : Task → Option Progress
  | .flush => flush cap s
  | task => some (s.perform (.standard cap) task)

/-- What becomes of a machine, unless the event cannot happen to it or it traps. -/
def next? (m : Machine) : Event → Option Machine
  | .invoke op =>
    if m.yields && op.isPossible m.session then
      (begin cap m.session m.isAlive op).map fun b => ⟨b.session, ⟨b.todo, b.outcome⟩ :: m.stack⟩
    else none
  | .tick =>
    match m.stack with
    | [] => none
    | { todo := [], .. } :: _ => none
    | { todo := .call _ :: _, .. } :: _ => none
    | { todo := task :: rest, outcome } :: below =>
      (perform cap m.session task).map fun p => ⟨p.session, ⟨p.todo ++ rest, outcome⟩ :: below⟩
  | e => m.next? (.standard cap) e

/-! ## Nothing traps -/

end Trapping

def Session.InWords (s : Session) : Prop :=
  ∀ r, Stream.minWindow ≤ (s.stream r).window ∧ (s.stream r).window ≤ Stream.maxWindow

theorem Session.InWords.credit {s : Session} {r : StreamRef} {x : Stream} {delta : Int} (h : s.InWords)
    (hcredit : (s.stream r).credit delta = .ok x) : (s.update r fun _ => x).InWords := by
  refine forall_stream_update (P := fun x => Stream.minWindow ≤ x.window ∧ x.window ≤ Stream.maxWindow) h ?_
  obtain ⟨rfl, hrange⟩ := Stream.credit_eq_ok hcredit
  exact hrange

theorem Session.InWords.of_streams {s t : Session} (h : s.InWords) (hstreams : t.streams = s.streams) :
    t.InWords := by
  intro r
  have hr := h r
  rw [Session.stream, ← hstreams] at hr
  exact hr

theorem Session.InWords.of_calm {s t : Session} (h : s.InWords) (hcalm : Calm s t)
    (hinitial : 0 ≤ s.initialWindow ∧ s.initialWindow ≤ Stream.maxWindow) : t.InWords := by
  have hzero : Stream.minWindow ≤ 0 := by decide
  intro r
  by_cases hold : r.serial < s.streams.size
  · rw [hcalm.window r hold]
    exact h r
  · by_cases hnew : r.serial < t.streams.size
    · rw [hcalm.fresh r (Nat.le_of_not_lt hold) hnew]
      exact ⟨Int.le_trans hzero hinitial.1, hinitial.2⟩
    · rw [stream_of_size_le (Nat.le_of_not_lt hnew)]
      decide

namespace Trapping

variable {cap : Nat} {s : Session}

theorem credit_eq {x : Stream} {delta : Int}
    (hx : Stream.minWindow ≤ x.window ∧ x.window ≤ Stream.maxWindow)
    (hdelta : Stream.minWindow ≤ delta ∧ delta ≤ Stream.maxWindow) :
    credit x delta = some (x.credit delta) := by
  simp only [credit, int32?_eq_some hx, int32?_eq_some hdelta, Option.bind_eq_bind, Option.bind_some]
  cases hcredit : x.credit delta with
  | error e => rfl
  | ok y =>
    obtain ⟨rfl, hrange⟩ := Stream.credit_eq_ok hcredit
    simp only [int32?_eq_some hrange]
    rfl

/-- While the windows move one after another, each fits in its word. -/
theorem shiftWindows_eq (h : s.InWords) {delta : Int}
    (hdelta : Stream.minWindow ≤ delta ∧ delta ≤ Stream.maxWindow) :
    shiftWindows s delta = some (s.shiftWindows delta) ∧ (s.shiftWindows delta).1.InWords := by
  rw [shiftWindows, Session.shiftWindows_eq]
  generalize s.table = l
  generalize hp : (s, ([] : List (StreamRef × Error))) = p
  have hwords : p.1.InWords := hp ▸ h
  clear hp
  induction l generalizing p with
  | nil => exact ⟨rfl, hwords⟩
  | cons r l ih =>
    have hstep : (Session.shiftWindow delta p r).1.InWords := by
      rw [Session.shiftWindow]
      split
      · next hcredit => exact hwords.credit hcredit
      · exact hwords
    have hsame : shiftWindow delta p r = some (Session.shiftWindow delta p r) := by
      rw [shiftWindow, Session.shiftWindow, credit_eq (hwords r) hdelta]
      cases (p.1.stream r).credit delta <;> rfl
    rw [List.foldlM_cons, List.foldl_cons, hsame]
    exact ih _ hstep

theorem receiveSettings_eq (h : s.InWords) (hinitial : 0 ≤ s.initialWindow ∧ s.initialWindow ≤ Stream.maxWindow)
    (message : SettingsMessage) : receiveSettings s message = some (s.receiveSettings message) := by
  rw [receiveSettings, Session.receiveSettings]
  cases message.get? .initialWindowSize with
  | none => rfl
  | some n =>
    have hsize := clip_range n.toNat
    have hdelta := resize_range hinitial n.toNat
    dsimp only
    generalize min (n.toNat : Int) Stream.maxWindow = size at hsize hdelta
    have hresized : ({ s with initialWindow := size } : Session).InWords := h.of_streams rfl
    simp only [int32?_of_nonneg hsize, int32?_of_nonneg hinitial, int32?_eq_some hdelta, Option.bind_eq_bind,
      Option.bind_some, (shiftWindows_eq hresized hdelta).1]
    split <;> rfl

theorem receiveWindow_eq (h : s.InWords) (id delta : UInt32) :
    receiveWindow s id delta = some (s.receiveWindow id delta) := by
  rw [receiveWindow, Session.receiveWindow]
  cases s.find? id with
  | none => rfl
  | some r =>
    have hdelta := clip_range delta.toNat
    have hmin : Stream.minWindow ≤ min (delta.toNat : Int) Stream.maxWindow :=
      Int.le_trans (by decide) hdelta.1
    simp only [int32?_of_nonneg hdelta, credit_eq (h r) ⟨hmin, hdelta.2⟩, Option.bind_eq_bind,
      Option.bind_some]
    cases (s.stream r).credit (min (delta.toNat : Int) Stream.maxWindow) <;> rfl

theorem receive_eq (h : s.InWords) (hinitial : 0 ≤ s.initialWindow ∧ s.initialWindow ≤ Stream.maxWindow)
    (got : Received) : receive (.standard cap) s got = some (s.receive (.standard cap) got) := by
  unfold receive
  split
  · next v flags entries =>
    split
    · rfl
    · next hsent =>
      rw [receiveSettings_eq h hinitial, Session.receive, if_neg hsent]
      rfl
  · next v id delta =>
    split
    · rfl
    · next hsent =>
      rw [receiveWindow_eq h, Session.receive, if_neg hsent]
      rfl
  · rfl

theorem wrote_eq (h : s.InWords) (p : Parcel) : wrote s p = some (s.wrote p) := by
  cases p with
  | control type bytes r => rfl
  | data r payload written =>
    have hlength := clip_range written
    have hdebit : Stream.minWindow ≤ -min (written : Int) Stream.maxWindow ∧
        -min (written : Int) Stream.maxWindow ≤ Stream.maxWindow := by
      have hmin : Stream.minWindow = -2147483648 := rfl
      have hmax : Stream.maxWindow = 2147483647 := rfl
      omega
    simp only [wrote, Session.wrote, int32?_of_nonneg hlength, int32?_eq_some hdebit, credit_eq (h r) hdebit,
      Option.bind_eq_bind, Option.bind_some]
    cases (s.stream r).credit (-min (written : Int) Stream.maxWindow) with
    | error e => rfl
    | ok x =>
      dsimp only
      split <;> rfl

theorem complete_eq (h : s.InWords) (seq : Nat) : complete s seq = some (s.report seq Session.wrote) := by
  rw [complete, Session.report]
  cases s.outstanding.find? (·.seq == seq) with
  | none => rfl
  | some x =>
    have hdrop : (s.dropHandler seq).InWords := h.of_streams rfl
    exact wrote_eq hdrop x.parcel

theorem begin_eq (h : s.InWords) (hinitial : 0 ≤ s.initialWindow ∧ s.initialWindow ≤ Stream.maxWindow)
    (alive : Bool) (op : Operation) : begin cap s alive op = some (s.begin (.standard cap) alive op) := by
  cases op with
  | receive got => rw [begin, receive_eq h hinitial]; rfl
  | complete seq => rw [begin, complete_eq h]; rfl
  | _ => rfl

theorem encodeChunk_eq (cap : Nat) (id : UInt32) (window : Int) (p : Payload) :
    encodeChunk cap id window p = some (p.encodeChunk cap id window) := by
  rw [encodeChunk, Payload.encodeChunk]
  split
  · rfl
  · have hlen : min (min window.toNat cap) p.available ≤ p.bytes.length := Nat.min_le_right ..
    have htake : p.bytes.take (min (min window.toNat cap) p.available) = p.bytes.take (min window.toNat cap) := by
      rw [List.take_eq_take_iff]
      show min (min _ p.bytes.length) _ = _
      omega
    have hdrop : p.bytes.drop (min (min window.toNat cap) p.available) = p.bytes.drop (min window.toNat cap) := by
      rw [List.drop_eq_drop_iff]
      show min (min _ p.bytes.length) _ = _
      omega
    simp only [splitAt?_eq_some hlen, Option.bind_eq_bind, Option.bind_some, htake, hdrop]
    rfl

theorem write_eq {bytes : Bytes} {p : Parcel} (hwrites : (s.write bytes p).session.outbox.writes < 2 ^ 64) :
    write s bytes p = some (s.write bytes p) := by
  have hnext : s.outbox.writes + 1 < 2 ^ 64 := hwrites
  rw [write, uint64?_eq_some hnext]
  rfl

theorem flush_eq (hwrites : (s.flush (.standard cap)).session.outbox.writes < 2 ^ 64) :
    flush cap s = some (s.flush (.standard cap)) := by
  revert hwrites
  rw [flush, Session.flush]
  rcases s.take? with _ | ⟨p, t⟩
  · exact fun _ => rfl
  cases p with
  | control type bytes r => exact fun hwrites => write_eq hwrites
  | data r payload written =>
    dsimp only
    split
    · exact fun _ => rfl
    have hdata : (Encoder.standard cap).data (t.stream r).id (t.stream r).window payload =
        payload.encodeChunk (Encoder.clampCap cap) (t.stream r).id (t.stream r).window := rfl
    rw [encodeChunk_eq, hdata]
    cases hchunk : payload.encodeChunk (Encoder.clampCap cap) (t.stream r).id (t.stream r).window with
    | error cause => exact fun _ => rfl
    | ok chunk =>
      obtain ⟨bytes, rest⟩ := chunk
      have hheader : headerLength ≤ bytes.length := by
        rw [Payload.encodeChunk] at hchunk
        split at hchunk
        · cases hchunk
        · obtain ⟨rfl, -⟩ := Prod.mk.inj (Except.ok.inj hchunk)
          rw [DataFrame.length_encode]
          omega
      intro hwrites
      simp only [difference?_eq_some hheader, Option.bind_eq_bind, Option.bind_some]
      exact write_eq hwrites

/-- A machine does not trap as long as its numbers fit in their words. -/
theorem next?_eq {m m' : Machine} {e : Event} (h : m.next? (.standard cap) e = some m')
    (hwords : m.session.InWords) (hinitial : 0 ≤ m.session.initialWindow ∧ m.session.initialWindow ≤ Stream.maxWindow)
    (hwrites : m'.session.outbox.writes < 2 ^ 64) : next? cap m e = some m' := by
  cases e with
  | invoke op =>
    rw [Machine.next?] at h
    rw [next?, begin_eq hwords hinitial]
    exact h
  | tick =>
    cases Machine.happens_of_next? h with
    | @tick task rest outcome below stack notCall =>
      have hperform : perform cap m.session task = some (m.session.perform (.standard cap) task) := by
        cases task with
        | flush => exact flush_eq hwrites
        | _ => rfl
      rw [next?, stack]
      cases task with
      | call c => cases notCall
      | _ =>
        dsimp only
        rw [hperform]
        rfl
  | _ => exact h

end Trapping

/-! ## Runs -/

section Run

variable {cap : Nat} {config : Config} {primary : Option Listener} {s : Session} {past : List Moment}
  {m : Machine}

theorem Session.InWords.receiveSettings {s : Session} (h : s.InWords)
    (hinitial : 0 ≤ s.initialWindow ∧ s.initialWindow ≤ Stream.maxWindow) (message : SettingsMessage) :
    (s.receiveSettings message).session.InWords := by
  rw [Session.receiveSettings]
  cases message.get? .initialWindowSize with
  | none => exact h
  | some n =>
    have hdelta := resize_range hinitial n.toNat
    dsimp only
    generalize min (n.toNat : Int) Stream.maxWindow = size at hdelta
    have hresized : ({ s with initialWindow := size } : Session).InWords := h.of_streams rfl
    split
    · exact hresized
    · exact (Trapping.shiftWindows_eq hresized hdelta).2

theorem inWords_of_turn {mo : Moment} (turn : Turn cap mo) (hm : mo.before.session.InWords)
    (hinitial : 0 ≤ mo.before.session.initialWindow ∧ mo.before.session.initialWindow ≤ Stream.maxWindow) :
    mo.after.session.InWords := by
  cases turn with
  | plain work session =>
    rw [session]
    cases work with
    | posts hp =>
      obtain ⟨t, hcalm, heq⟩ := hp.session
      have ht : t.InWords := hm.of_calm hcalm hinitial
      rw [heq]
      exact ht.of_streams rfl
    | lifts nil hop hp =>
      have hle := hp.bounded fun r => (hm r).2
      exact fun r => ⟨Int.le_trans (hm r).1 (hp.grows r), hle r⟩
    | resizes nil hop sent eq =>
      rw [eq]
      exact hm.receiveSettings hinitial _
  | flush work session =>
    rw [session]
    cases work <;> exact hm.of_streams rfl
  | endWrite session => rw [session]; exact hm.of_streams rfl
  | release session => rw [session]; exact hm.of_streams rfl
  | @wrote h p mem work session =>
    have hdrop : (mo.before.session.dropHandler h.seq).InWords := hm.of_streams rfl
    rw [session]
    generalize h.parcel = q at work
    cases work with
    | control => exact hdrop
    | stuck => exact hdrop
    | @done r payload written x credit =>
      have hpaid := hdrop.credit credit
      dsimp only
      split
      · exact hpaid.of_calm (Calm.closeLocal _ r) hinitial
      · exact hpaid
    | more credit => exact (hdrop.credit credit).of_streams rfl
  | failed fails mem session => rw [session]; exact hm.of_streams rfl
  | broken breaks session => rw [session]; exact hm
  | dropped drops session => rw [session]; exact hm.of_streams rfl

theorem writes_of_turn {mo : Moment} (turn : Turn cap mo) :
    mo.after.session.outbox.writes = mo.before.session.outbox.writes + if mo.handed?.isSome then 1 else 0 := by
  have hsilent : mo.Silent → mo.after.session.outbox.writes = mo.before.session.outbox.writes →
      mo.after.session.outbox.writes = mo.before.session.outbox.writes + if mo.handed?.isSome then 1 else 0 := by
    intro silent hsame
    rw [silent.handed, hsame]
    rfl
  cases turn with
  | plain work session before after gone said handed =>
    rw [session, handed, work.adds.outbox]
    rfl
  | flush work session before after said handed =>
    rw [session, handed]
    cases work <;> rfl
  | endWrite session before after silent =>
    refine hsilent silent ?_
    rw [session, Outbox.endWrite]
    dsimp only
    split <;> rfl
  | release session before after silent =>
    refine hsilent silent ?_
    rw [session, Outbox.complete]
    dsimp only
    split <;> rfl
  | @wrote h p mem work session after silent =>
    refine hsilent silent ?_
    rw [session]
    generalize h.parcel = q at work
    cases work with
    | done =>
      dsimp only
      split <;> rfl
    | _ => rfl
  | failed fails mem session after silent => exact hsilent silent (by rw [session]; rfl)
  | broken breaks session before after silent => exact hsilent silent (by rw [session])
  | dropped drops session after silent => exact hsilent silent (by rw [session]; rfl)

theorem writes_of_run (hnew : Session.new config primary = .ok s)
    (run : Run (.standard cap) { session := s } past m) :
    m.session.outbox.writes = past.countP (·.handed?.isSome) := by
  induction run with
  | start =>
    obtain ⟨-, rfl⟩ := Session.new_eq_ok hnew
    rfl
  | next run h ih =>
    rw [writes_of_turn (turn_of_next? h (placed_of_run run)), ih, List.countP_append, List.countP_singleton]

theorem inWords_of_run (hnew : Session.new config primary = .ok s)
    (hconfig : config.initialWindow ≤ Stream.maxWindow)
    (run : Run (.standard cap) { session := s } past m) : m.session.InWords := by
  induction run with
  | start =>
    obtain ⟨-, rfl⟩ := Session.new_eq_ok hnew
    intro r
    rw [Session.stream_of_size_le (Nat.zero_le _)]
    decide
  | next run h ih =>
    exact inWords_of_turn (turn_of_next? h (placed_of_run run)) ih (inRange_of_run hnew hconfig run).initial

end Run

end Spdy
