import Spdy.Proofs.Lockstep
import Spdy.Proofs.Meanwhile

/-!
# A flush drains the outbox

A controller may report each write before the call that makes it returns. Then a flush goes on until nothing is left that
could be sent. It takes one write for each control frame, and for data no more writes than there are bytes.

* `Parcel.load`, `Session.load` : how many writes parcels take at most, with those whose frames are being written;
* `Moment.isPrompt` : nothing else begins, and each write is reported before the controller returns;
* `Draining`, `Machine.IsDrained` : the stages of a flush and its end;
* `ebbs_of_next?` : a step goes from one stage to another, and each write takes away from what is left;
* `draining_goes_on` : there is always a next step;
* `flush_drains` : so a flush comes to its end, and what it leaves in the outbox.
-/

namespace Spdy

/-! ## What is left to write -/

def Parcel.load : Parcel → Nat
  | .control .. => 1
  | .data _ payload _ => max 1 payload.bytes.length

/-- How many more writes a parcel takes at most once its frame was written. -/
def Parcel.residue : Parcel → Nat
  | .control .. => 0
  | .data _ payload _ => payload.bytes.length

/-- How many writes all that waits takes at most, and what is going to be put back. -/
def Session.load (s : Session) : Nat :=
  (s.outbox.parcels.map Parcel.load).sum + (s.outstanding.map (·.parcel.residue)).sum

theorem Encoder.clampCap_pos (cap : Nat) : 0 < clampCap cap := by
  rw [clampCap]
  omega

/-- A frame takes a control frame, or at least one byte of the data if there is one. -/
theorem Framed.residue_lt {cap : Nat} {s : Session} {p q : Parcel} {bytes : Bytes} (h : Framed cap s p bytes q) :
    q.residue < p.load := by
  cases h with
  | control => exact Nat.one_pos
  | @data r payload written frame rest alive window chunk =>
    have hcap := Encoder.clampCap_pos cap
    obtain ⟨-, rfl⟩ := Prod.mk.inj chunk
    rw [Parcel.residue, Parcel.load, Payload.drop, List.length_drop]
    omega

theorem Session.load_of_calm {s t : Session} (h : Calm s t) : t.load = s.load := by
  rw [load, load, h.outbox, h.outstanding]

/-- A flush makes less what is left by each frame that it hands over. -/
theorem Flushed.load_le {cap : Nat} {s : Session} {p : Progress} (h : Flushed cap s p) :
    p.session.load + p.handed?.isSome.toNat ≤ s.load := by
  cases h with
  | idle => exact Nat.le_refl _
  | drop free parcels reset blocked =>
    simp only [Session.load, Session.holding, parcels, List.map_append, List.map_cons, List.sum_append, List.sum_cons,
      Progress.handed?, Option.isSome_none, Bool.toNat_false]
    omega
  | hand free parcels blocked framed =>
    have hless := framed.residue_lt
    simp only [Session.load, Session.handing, parcels, List.map_append, List.map_cons, List.map_nil, List.sum_append,
      List.sum_cons, List.sum_nil, Progress.handed?, Option.isSome_some, Bool.toNat_true]
    omega

/-- What remains of data that was written is put back, and nothing is added to it. -/
theorem Wrote.load_le {s : Session} {x : Handler} {p : Progress} (outstanding : s.outstanding = [x])
    (h : Wrote (s.dropHandler x.seq) x.parcel p) : p.session.load ≤ s.load := by
  have hparcels : p.session.outbox.parcels.map Parcel.load = s.outbox.parcels.map Parcel.load ∨
      (p.session.outbox.parcels.map Parcel.load).sum =
        (s.outbox.parcels.map Parcel.load).sum + x.parcel.residue := by
    generalize hq : x.parcel = q at h
    cases h with
    | control => exact .inl rfl
    | stuck => exact .inl rfl
    | @done r payload written y credit empty =>
      refine .inl ?_
      cases payload.close <;> rfl
    | @more r payload written y before after credit left parcels =>
      refine .inr ?_
      have hpos := List.length_pos_iff.2 left
      rw [show s.outbox.parcels = before ++ after from parcels]
      simp only [Session.holding, List.map_append, List.map_cons, List.sum_append, List.sum_cons, Parcel.load,
        Parcel.residue]
      omega
  rw [Session.load, Session.load, h.outstanding, outstanding]
  simp only [Session.dropHandler, outstanding, List.filter_cons, bne_self_eq_false, Bool.false_eq_true, if_false,
    List.filter_nil, List.map_nil, List.sum_nil, List.map_cons, List.sum_cons]
  rcases hparcels with h | h
  · rw [h]
    omega
  · omega

/-! ## The stages of a flush -/

/-- Nothing else begins, and the controller behaves and does not return from a write before it has reported it. -/
def Moment.isPrompt (mo : Moment) : Bool :=
  mo.isWithin && mo.isOrderly &&
    match mo.event, mo.before.awaited? with
    | .answer _, some (.write _ x) => !mo.before.session.outstanding.any (·.seq == x.seq)
    | _, _ => true

theorem Moment.within_of_isPrompt {mo : Moment} (h : mo.isPrompt) : mo.isWithin ∧ mo.isOrderly :=
  Bool.and_eq_true_iff.1 (Bool.and_eq_true_iff.1 h).1

/-- What comes of a report until the next write may start: the connection is closed, a stream goes, and listeners are
told of it. -/
def Task.isSequel : Task → Bool
  | .call (.close _) | .reclaim _ => true
  | .call (.tell _ notice) | .tell _ notice => !notice.asks
  | _ => false

/-- The window of a stream makes up for its data that was written. -/
def Session.Pays (s : Session) (q : Parcel) : Prop :=
  ∀ r payload written, q = .data r payload written → ∃ y, (s.stream r).credit (debit written) = .ok y

/-- An operation that waits for the controller to write a frame, and then does the rest. -/
abbrev Activation.writing (bytes : Bytes) (x : Handler) (rest : List Task) (outcome : Outcome) : Activation :=
  ⟨.call (.write bytes x) :: .endWrite x.seq :: rest, outcome⟩

/-- The write of a number was reported, and the call that makes it has not returned. -/
structure Session.ReportedIn (s : Session) (seq : Nat) : Prop where
  free : s.outbox.busy = false
  settled : s.outstanding = []
  inWrite : s.outbox.inWrite = some seq
  reported : s.outbox.reported = true

section Draining

variable {cap : Nat} {rest : List Task} {outcome : Outcome} {below : List Activation} {m m' : Machine} {e : Event}

/-- The stages of a flush that is to be followed by `rest`: it is ready to take a parcel, the controller writes it, the
write is reported, and the controller returns. -/
inductive Draining (rest : List Task) (outcome : Outcome) (below : List Activation) : Machine → Prop
  | ready {s : Session} (free : s.outbox.busy = false) (settled : s.outstanding = []) :
      Draining rest outcome below ⟨s, ⟨.flush :: rest, outcome⟩ :: below⟩
  | writing {s : Session} {bytes : Bytes} {x : Handler} (outstanding : s.outstanding = [x])
      (inWrite : s.outbox.inWrite = some x.seq) (paid : s.Pays x.parcel) :
      Draining rest outcome below ⟨s, .writing bytes x rest outcome :: below⟩
  | reporting {s : Session} {bytes : Bytes} {x : Handler} {todo : List Task} {returns : Outcome}
      (settled : s.outstanding = []) (inWrite : s.outbox.inWrite = some x.seq) (sequel : ∀ z ∈ todo, z.isSequel) :
      Draining rest outcome below
        ⟨s, ⟨todo ++ [.release], returns⟩ :: .writing bytes x rest outcome :: below⟩
  | reported {s : Session} {bytes : Bytes} {x : Handler} {returns : Outcome} (done : s.ReportedIn x.seq) :
      Draining rest outcome below
        ⟨s, ⟨[], returns⟩ :: .writing bytes x rest outcome :: below⟩
  | returning {s : Session} {bytes : Bytes} {x : Handler} (done : s.ReportedIn x.seq) :
      Draining rest outcome below ⟨s, .writing bytes x rest outcome :: below⟩
  | returned {s : Session} {seq : Nat} (done : s.ReportedIn seq) :
      Draining rest outcome below ⟨s, ⟨.endWrite seq :: rest, outcome⟩ :: below⟩

/-- The flush is over: no write is in progress, and what waits are data of streams that have no window left. -/
structure Machine.IsDrained (rest : List Task) (outcome : Outcome) (below : List Activation) (m : Machine) : Prop where
  stack : m.stack = ⟨rest, outcome⟩ :: below
  free : m.session.outbox.busy = false
  blocked : ∀ q ∈ m.session.outbox.parcels, m.session.isReady q = false

/-- A step of a flush: it goes on or is over, and each write takes away from what is left. -/
structure Ebbs (rest : List Task) (outcome : Outcome) (below : List Activation) (mo : Moment) : Prop where
  stays : Draining rest outcome below mo.after ∨ mo.after.IsDrained rest outcome below
  load : mo.after.session.load + mo.handed?.isSome.toNat ≤ mo.before.session.load

theorem Ebbs.of_quiet {mo : Moment} {a : Activation} {under : List Activation} (hstack : mo.after.stack = a :: under)
    (head : ∀ x ∈ a.todo.head?, x.isWrite = false) (stays : Draining rest outcome below mo.after)
    (load : mo.after.session.load ≤ mo.before.session.load) : Ebbs rest outcome below mo := by
  refine ⟨.inl stays, ?_⟩
  rw [Moment.handed?_eq_none hstack head]
  exact load

theorem Task.not_write_of_isSequel {z : Task} (h : z.isSequel) : z.isWrite = false := by
  cases z with
  | call c => cases c <;> first | rfl | cases h
  | _ => rfl

theorem head_of_sequel {todo : List Task} (sequel : ∀ z ∈ todo, z.isSequel) :
    ∀ z ∈ (todo ++ [Task.release]).head?, z.isWrite = false := by
  intro z hz
  rcases List.mem_append.1 (List.mem_of_mem_head? hz) with hz | hz
  · exact Task.not_write_of_isSequel (sequel z hz)
  · rw [List.mem_singleton.1 hz]
    rfl

/-- What comes of a report leaves the outbox alone, and more of its kind. -/
theorem Session.perform_sequel (enc : Encoder) (s : Session) {z : Task} (h : z.isSequel) (notCall : z.isCall = false) :
    Calm s (s.perform enc z).session ∧ ∀ y ∈ (s.perform enc z).todo, y.isSequel := by
  cases z with
  | tell l notice =>
    cases l with
    | nil => exact ⟨.refl s, by simp [perform]⟩
    | cons l ls =>
      refine ⟨.refl s, fun y hy => ?_⟩
      rw [perform, List.mem_cons, List.mem_singleton] at hy
      rcases hy with rfl | rfl <;> exact h
  | reclaim r =>
    rw [perform]
    split
    · refine ⟨.remove s r, fun y hy => ?_⟩
      rw [remove] at hy
      split at hy
      · rw [List.mem_singleton.1 hy]
        rfl
      · cases hy
    · exact ⟨.refl s, by simp⟩
  | call c => cases notCall
  | _ => cases h

/-- What comes of a report, if the window of the stream makes up for its data. -/
theorem Session.wrote_sequel {s : Session} {q : Parcel} (paid : s.Pays q) :
    ∃ todo, (s.wrote q).todo = todo ++ [.release] ∧ ∀ z ∈ todo, z.isSequel := by
  cases q with
  | control type bytes r =>
    refine ⟨_, rfl, fun z hz => ?_⟩
    rcases List.mem_append.1 hz with hz | hz
    · split at hz
      · rw [List.mem_singleton.1 hz]
        rfl
      · cases hz
    · obtain ⟨r', -, rfl⟩ := List.mem_map.1 hz
      rfl
  | data r payload written =>
    obtain ⟨y, hy⟩ := paid r payload written rfl
    rw [wrote_of_credit payload hy]
    split
    · exact ⟨[.reclaim r], rfl, by simp [Task.isSequel]⟩
    · exact ⟨[], rfl, by simp⟩

/-! ## One step -/

section Steps

variable {s : Session} {bytes : Bytes} {x : Handler}

theorem Flushed.stays {p : Progress} (h : Flushed cap s p) (free : s.outbox.busy = false) (settled : s.outstanding = [])
    (range : s.InRange) :
    Draining rest outcome below ⟨p.session, ⟨p.todo ++ rest, outcome⟩ :: below⟩ ∨
      Machine.IsDrained rest outcome below ⟨p.session, ⟨p.todo ++ rest, outcome⟩ :: below⟩ := by
  cases h with
  | idle hidle =>
    refine .inr ⟨rfl, free, hidle.resolve_left fun hbusy => ?_⟩
    rw [free] at hbusy
    cases hbusy
  | drop => exact .inl (.ready free settled)
  | hand _ parcels blocked framed =>
    refine .inl (.writing (by rw [Session.handing, settled]; rfl) rfl ?_)
    rintro r payload written rfl
    have hle := framed.written_le
    have hmax := range.window r
    have hdebit := debit_of_le (Int.le_trans hle hmax)
    exact Stream.credit_of_range (x := s.stream r) (by omega) (by omega)

theorem ebbs_of_ready (free : s.outbox.busy = false) (settled : s.outstanding = []) (range : s.InRange)
    (hrest : ∀ x ∈ rest, x.isWrite = false)
    (h : Machine.next? (.standard cap) ⟨s, ⟨.flush :: rest, outcome⟩ :: below⟩ e = some m') :
    Ebbs rest outcome below ⟨⟨s, ⟨.flush :: rest, outcome⟩ :: below⟩, e, m'⟩ := by
  obtain ⟨rfl, rfl⟩ := Machine.tick_of_stack rfl rfl h
  have hflush := flush_cases cap s
  refine ⟨hflush.stays free settled range, ?_⟩
  rw [Moment.handed?_of_tick (p := s.flush (.standard cap)) rfl hrest]
  exact hflush.load_le

/-- The controller reports the write, as it does not return before. -/
theorem ebbs_of_writing (outstanding : s.outstanding = [x]) (inWrite : s.outbox.inWrite = some x.seq)
    (paid : s.Pays x.parcel) (h : Machine.next? (.standard cap) ⟨s, .writing bytes x rest outcome :: below⟩ e = some m')
    (prompt : Moment.isPrompt ⟨⟨s, .writing bytes x rest outcome :: below⟩, e, m'⟩) :
    Ebbs rest outcome below ⟨⟨s, .writing bytes x rest outcome :: below⟩, e, m'⟩ := by
  obtain ⟨within, orderly⟩ := Moment.within_of_isPrompt prompt
  rcases Machine.answer_of_stack rfl h within orderly with
    ⟨reply, -, htell | rfl⟩ | ⟨bytes', x', seq, hc, rfl, hmem, rfl⟩
  · cases htell
  · have hreported := (Bool.and_eq_true_iff.1 prompt).2
    simp [Machine.awaited?, outstanding] at hreported
  · obtain rfl : x.seq = seq := by simpa [outstanding] using hmem
    have hreport : s.report x.seq Session.wrote = (s.dropHandler x.seq).wrote x.parcel := by
      simp [Session.report, outstanding]
    have hwrote := wrote_cases (s.dropHandler x.seq) x.parcel
    obtain ⟨todo, htodo, hsequel⟩ := Session.wrote_sequel (s := s.dropHandler x.seq) paid
    have hafter : (Machine.invoke (.standard cap) ⟨s, .writing bytes x rest outcome :: below⟩ (.complete x.seq)).1 =
        ⟨((s.dropHandler x.seq).wrote x.parcel).session,
          ⟨todo ++ [.release], .done⟩ :: .writing bytes x rest outcome :: below⟩ := by
      rw [Machine.invoke, Session.begin, hreport, htodo]
    rw [hafter]
    refine .of_quiet rfl (head_of_sequel hsequel) (.reporting ?_ (hwrote.inWrite.trans inWrite) hsequel)
      (hwrote.load_le outstanding)
    rw [hwrote.outstanding]
    simp [Session.dropHandler, outstanding]

/-- What comes of the report is done, and then the write is over for the controller to return from. -/
theorem ebbs_of_reporting {todo : List Task} {returns : Outcome} (settled : s.outstanding = [])
    (inWrite : s.outbox.inWrite = some x.seq) (sequel : ∀ z ∈ todo, z.isSequel)
    (h : Machine.next? (.standard cap)
      ⟨s, ⟨todo ++ [.release], returns⟩ :: .writing bytes x rest outcome :: below⟩ e = some m')
    (prompt : Moment.isPrompt ⟨⟨s, ⟨todo ++ [.release], returns⟩ :: .writing bytes x rest outcome :: below⟩, e, m'⟩) :
    Ebbs rest outcome below ⟨⟨s, ⟨todo ++ [.release], returns⟩ :: .writing bytes x rest outcome :: below⟩, e, m'⟩ := by
  cases todo with
  | nil =>
    obtain ⟨rfl, rfl⟩ := Machine.tick_of_stack rfl rfl h
    have hcomplete : s.outbox.complete = (false, { s.outbox with busy := false, reported := true }) := by
      rw [Outbox.complete, if_pos (by rw [inWrite]; rfl)]
    rw [Session.perform, hcomplete]
    exact .of_quiet rfl (by simp) (.reported ⟨rfl, settled, inWrite, rfl⟩) (Nat.le_refl _)
  | cons z todo =>
    have hz := sequel z List.mem_cons_self
    have htodo : ∀ y ∈ todo, y.isSequel := fun y hy => sequel y (List.mem_cons_of_mem _ hy)
    cases hcall : z.isCall with
    | false =>
      obtain ⟨rfl, rfl⟩ := Machine.tick_of_stack rfl hcall h
      obtain ⟨hcalm, hmore⟩ := s.perform_sequel (.standard cap) hz hcall
      have hall : ∀ y ∈ (s.perform (.standard cap) z).todo ++ todo, y.isSequel := fun y hy =>
        (List.mem_append.1 hy).elim (hmore y) (htodo y)
      rw [show (s.perform (.standard cap) z).todo ++ List.append todo [.release] =
        (s.perform (.standard cap) z).todo ++ todo ++ [.release] from (List.append_assoc ..).symm]
      refine .of_quiet rfl (head_of_sequel hall) (.reporting (hcalm.outstanding.trans settled) ?_ hall)
        (Nat.le_of_eq (Session.load_of_calm hcalm))
      rw [hcalm.outbox]
      exact inWrite
    | true =>
      cases z with
      | call c =>
        obtain ⟨within, orderly⟩ := Moment.within_of_isPrompt prompt
        rcases Machine.answer_of_stack rfl h within orderly with ⟨reply, rfl, -⟩ | ⟨bytes', x', seq, rfl, -⟩
        · have haccept : Machine.accept s c reply = s := by
            cases c with
            | tell l notice => cases notice <;> first | rfl | cases hz
            | _ => rfl
          rw [haccept]
          exact .of_quiet rfl (head_of_sequel htodo) (.reporting settled inWrite htodo) (Nat.le_refl _)
        · cases hz
      | _ => cases hcall

theorem ebbs_of_reported {returns : Outcome} (done : s.ReportedIn x.seq)
    (h : Machine.next? (.standard cap)
      ⟨s, ⟨[], returns⟩ :: .writing bytes x rest outcome :: below⟩ e = some m') :
    Ebbs rest outcome below
      ⟨⟨s, ⟨[], returns⟩ :: .writing bytes x rest outcome :: below⟩, e, m'⟩ := by
  obtain ⟨rfl, rfl⟩ := Machine.leave_of_stack rfl h
  exact ⟨.inl (.returning done), Nat.le_refl _⟩

theorem ebbs_of_returning (done : s.ReportedIn x.seq)
    (h : Machine.next? (.standard cap) ⟨s, .writing bytes x rest outcome :: below⟩ e = some m')
    (prompt : Moment.isPrompt ⟨⟨s, .writing bytes x rest outcome :: below⟩, e, m'⟩) :
    Ebbs rest outcome below ⟨⟨s, .writing bytes x rest outcome :: below⟩, e, m'⟩ := by
  obtain ⟨within, orderly⟩ := Moment.within_of_isPrompt prompt
  rcases Machine.answer_of_stack rfl h within orderly with ⟨reply, rfl, -⟩ | ⟨bytes', x', seq, -, -, hmem, -⟩
  · exact .of_quiet rfl (by simp [Task.isWrite]) (.returned done) (Nat.le_refl _)
  · rw [show (⟨s, _⟩ : Machine).session.outstanding = [] from done.settled] at hmem
    cases hmem

/-- The call has returned and finds that its write was reported. -/
theorem ebbs_of_returned {seq : Nat} (done : s.ReportedIn seq)
    (h : Machine.next? (.standard cap) ⟨s, ⟨.endWrite seq :: rest, outcome⟩ :: below⟩ e = some m') :
    Ebbs rest outcome below ⟨⟨s, ⟨.endWrite seq :: rest, outcome⟩ :: below⟩, e, m'⟩ := by
  obtain ⟨rfl, rfl⟩ := Machine.tick_of_stack rfl rfl h
  have hend : s.outbox.endWrite seq = (true, { s.outbox with inWrite := none, reported := false }) := by
    rw [Outbox.endWrite, if_pos done.inWrite, done.reported]
  rw [Session.perform, hend]
  exact .of_quiet rfl (by simp [Task.isWrite]) (.ready done.free done.settled) (Nat.le_refl _)

end Steps

/-- A flush goes on, and each write takes away from what is left. -/
theorem ebbs_of_next? (draining : Draining rest outcome below m) (range : m.session.InRange)
    (hrest : ∀ x ∈ rest, x.isWrite = false) (h : m.next? (.standard cap) e = some m')
    (prompt : Moment.isPrompt ⟨m, e, m'⟩) : Ebbs rest outcome below ⟨m, e, m'⟩ := by
  cases draining with
  | ready free settled => exact ebbs_of_ready free settled range hrest h
  | writing outstanding inWrite paid => exact ebbs_of_writing outstanding inWrite paid h prompt
  | reporting settled inWrite sequel => exact ebbs_of_reporting settled inWrite sequel h prompt
  | reported done => exact ebbs_of_reported done h
  | returning done => exact ebbs_of_returning done h prompt
  | returned done => exact ebbs_of_returned done h

/-- As long as the flush is not over, it can go on. -/
theorem draining_goes_on (enc : Encoder) (draining : Draining rest outcome below m) :
    ∃ e m', m.next? enc e = some m' ∧ Moment.isPrompt ⟨m, e, m'⟩ := by
  cases draining with
  | ready => exact ⟨.tick, _, Machine.next?_tick rfl rfl, rfl⟩
  | @writing s bytes x outstanding =>
    have hcomplete : (Operation.complete x.seq).isPossible s := by simp [Operation.isPossible, outstanding]
    refine ⟨.invoke (.complete x.seq), _, if_pos ?_, rfl⟩
    rw [Bool.and_eq_true]
    exact ⟨rfl, hcomplete⟩
  | @reporting s bytes x todo returns settled inWrite sequel =>
    cases todo with
    | nil => exact ⟨.tick, _, Machine.next?_tick rfl rfl, rfl⟩
    | cons z todo =>
      cases z with
      | call c =>
        refine ⟨.answer none, _, Machine.next?_answer rfl none, ?_⟩
        have hz := sequel (.call c) List.mem_cons_self
        cases c with
        | write => cases hz
        | _ => rfl
      | _ => exact ⟨.tick, _, Machine.next?_tick rfl rfl, rfl⟩
  | reported => exact ⟨.leave, _, Machine.next?_leave rfl, rfl⟩
  | @returning s bytes x done =>
    refine ⟨.answer none, _, Machine.next?_answer rfl none, ?_⟩
    simp [Moment.isPrompt, Moment.isWithin, Moment.isOrderly, Moment.isDrop, Moment.isBreak, Machine.awaited?, done.settled]
  | returned => exact ⟨.tick, _, Machine.next?_tick rfl rfl, rfl⟩

theorem Draining.stack_ne (draining : Draining rest outcome below m) : m.stack ≠ ⟨rest, outcome⟩ :: below := by
  cases draining with
  | reporting | reported => exact Machine.stack_ne_of_longer [_] rfl (Nat.lt_add_of_pos_right Nat.two_pos)
  | writing | returning => exact Machine.stack_ne_of_longer [] rfl (Nat.lt_add_of_pos_right Nat.two_pos)
  | ready | returned => exact Machine.stack_ne_of_longer [] rfl (Nat.lt_succ_self _)

end Draining

/-! ## A whole flush -/

section Flush

variable {cap : Nat} {config : Config} {primary : Option Listener} {s : Session} {past later : List Moment}
  {m last : Machine} {rest : List Task} {outcome : Outcome} {below : List Activation}

/-- As long as a flush is not over, its writes take away from what was left when it began. -/
theorem draining_of_run (hnew : Session.new config primary = .ok s) (hconfig : config.initialWindow ≤ Stream.maxWindow)
    (run : Run (.standard cap) { session := s } past m) (hrest : ∀ x ∈ rest, x.isWrite = false)
    (draining : Draining rest outcome below m) (more : Run (.standard cap) m later last)
    (prompt : ∀ x ∈ later, x.isPrompt ∧ x.before.stack ≠ ⟨rest, outcome⟩ :: below) :
    (Draining rest outcome below last ∨ last.IsDrained rest outcome below) ∧
      last.session.load + (later.filter fun x => x.handed?.isSome).length ≤ m.session.load := by
  induction more with
  | start => exact ⟨.inl draining, Nat.le_refl _⟩
  | @next later m' m'' e more h ih =>
    obtain ⟨hprompt, hgoing⟩ := prompt ⟨m', e, m''⟩ (List.mem_append_right _ List.mem_cons_self)
    obtain ⟨hstays, hload⟩ := ih fun x hx => prompt x (List.mem_append_left _ hx)
    have hdraining := hstays.resolve_right fun hdrained => hgoing hdrained.stack
    have hstep := ebbs_of_next? hdraining (inRange_of_run hnew hconfig (run.append more)) hrest h hprompt
    refine ⟨hstep.stays, ?_⟩
    have hless := hstep.load
    rw [List.filter_append, List.length_append, List.filter_cons, List.filter_nil]
    cases hhanded : (Moment.handed? ⟨m', e, m''⟩).isSome with
    | true =>
      rw [hhanded, Bool.toNat_true] at hless
      dsimp only at hless
      rw [if_pos rfl, List.length_singleton]
      omega
    | false =>
      rw [hhanded, Bool.toNat_false] at hless
      dsimp only at hless
      rw [if_neg Bool.false_ne_true, List.length_nil]
      omega

/-- A flush that begins while no write is in progress comes to its end, whatever is asked for as a cap, if each write is
reported before the controller returns and listeners do not come back to the session. It takes so many steps at most and
can always go on. It hands over no more frames than control frames wait and, for data, no more than there are bytes, and
one for data without any. When it is over no write is in progress, and all that waits are data of streams that were not
given up and have no window left. -/
theorem flush_drains (hnew : Session.new config primary = .ok s) (hconfig : config.initialWindow ≤ Stream.maxWindow)
    (run : Run (.standard cap) { session := s } past m) (stack : m.stack = ⟨.flush :: rest, outcome⟩ :: below)
    (free : m.session.outbox.busy = false) :
    ∃ bound, ∀ later last, Run (.standard cap) m later last →
      (∀ x ∈ later, x.isPrompt ∧ x.before.stack ≠ ⟨rest, outcome⟩ :: below) →
        later.length ≤ bound ∧
        (later.filter fun x => x.handed?.isSome).length ≤ (m.session.outbox.parcels.map Parcel.load).sum ∧
        (last.stack = ⟨rest, outcome⟩ :: below → last.session.outbox.busy = false ∧
          ∀ q ∈ last.session.outbox.parcels, ∃ r payload written, q = .data r payload written ∧
            (last.session.stream r).reset = false ∧ (last.session.stream r).window ≤ 0) ∧
        ∃ more final, Run (.standard cap) last more final ∧
          (∀ x ∈ more, x.isPrompt ∧ x.before.stack ≠ ⟨rest, outcome⟩ :: below) ∧
          final.stack = ⟨rest, outcome⟩ :: below := by
  have hout : s.outstanding = [] := by
    obtain ⟨-, rfl⟩ := Session.new_eq_ok hnew
    rfl
  have hsettled := (nothing_owed (owed_le_of_run hout run) free).1
  have hready : Draining rest outcome below m := by
    obtain ⟨session, _⟩ := m
    obtain rfl := stack
    exact .ready free hsettled
  have hrest : ∀ x ∈ rest, x.isWrite = false :=
    placed_of_run run ⟨.flush :: rest, outcome⟩ (stack ▸ List.mem_cons_self)
  have hall := fun (later : List Moment) (last : Machine) (more : Run (.standard cap) m later last) prompt =>
    draining_of_run hnew hconfig run hrest hready more prompt
  have hbound : ∀ later last, Run (.standard cap) m later last →
      (∀ x ∈ later, x.isPrompt ∧ x.before.stack ≠ ⟨rest, outcome⟩ :: below) →
        later.length ≤ (m.scale.tariff (m.session.nextPingId + 1)).machine m := fun later last more prompt =>
    Nat.le_of_add_right_le (length_le_of_unprompted run more fun x hx =>
      Moment.isUnprompted_of_isWithin (Moment.within_of_isPrompt (prompt x hx).1).1).2.2
  refine ⟨_, fun later last more prompt => ⟨hbound later last more prompt, ?_, fun hstack => ?_, ?_⟩⟩
  · have hload : m.session.load = (m.session.outbox.parcels.map Parcel.load).sum := by
      rw [Session.load, hsettled]
      rfl
    have := (hall later last more prompt).2
    omega
  · have hdrained := (hall later last more prompt).1.resolve_left fun hdraining => hdraining.stack_ne hstack
    refine ⟨hdrained.free, fun q hq => ?_⟩
    have hblocked := hdrained.blocked q hq
    cases q with
    | control => cases hblocked
    | data r payload written =>
      rw [Session.isReady, Parcel.isReady, Stream.isReady, Bool.or_eq_false_iff, decide_eq_false_iff_not] at hblocked
      exact ⟨r, payload, written, rfl, hblocked.1, Int.not_lt.1 hblocked.2⟩
  · refine more.comes_to prompt hbound fun later last more prompt hgoing => ?_
    have hdraining := (hall later last more prompt).1.resolve_right fun hdrained => hgoing hdrained.stack
    obtain ⟨e, m', hnext, hprompt⟩ := draining_goes_on (.standard cap) hdraining
    exact ⟨e, m', hnext, hprompt, hgoing⟩

end Flush

/-- A cap of no bytes is asked for, and one byte is sent at a time. A ping and three bytes wait for a window of two, so
one byte is left. -/
theorem flush_drains_byte_by_byte : ∃ s past m later last,
    Session.new { Config.client with initialWindow := 2 } none = .ok s ∧ Run (.standard 0) { session := s } past m ∧
      m.stack = [⟨[.flush], .done⟩] ∧ m.session.outbox.busy = false ∧
      (m.session.outbox.parcels.map Parcel.load) = [1, 3] ∧ Run (.standard 0) m later last ∧
      (∀ x ∈ later, x.isPrompt) ∧ last.stack = [⟨[], .done⟩] ∧
      (later.filterMap Moment.handed?).map (·.1.length) = [12, 9, 9] ∧
      (later.filter fun x => x.handed?.isSome).length ≤ 4 ∧ last.session.outbox.busy = false ∧
      last.session.outbox.parcels = [.data ⟨0⟩ ⟨[7], false⟩ 1] ∧
      ∀ q ∈ last.session.outbox.parcels, ∃ r payload written, q = .data r payload written ∧
        (last.session.stream r).reset = false ∧ (last.session.stream r).window ≤ 0 := by
  have hnew : Session.new { Config.client with initialWindow := 2 } none =
      .ok (.fresh { Config.client with initialWindow := 2 } none) := rfl
  have hrun := Machine.run_of_replay? (.standard 0) { session := .fresh { Config.client with initialWindow := 2 } none }
    [.invoke (.syn .v3 (.plain default false) none), .tick, .tick, .invoke (.ping .v3), .tick, .leave,
      .invoke (.data ⟨0⟩ ⟨[5, 6, 7], false⟩), .tick, .leave, .answer none, .tick, .leave, .invoke (.complete 1), .tick,
      .tick] rfl
  have hmore := hrun.continue_of_replay?
    [.tick, .invoke (.complete 2), .tick, .leave, .answer none, .tick, .tick, .invoke (.complete 3), .tick, .leave,
      .answer none, .tick, .tick, .invoke (.complete 4), .tick, .leave, .answer none, .tick, .tick] rfl
  have hgoing : ∀ {l : List Moment}, l.all (fun x => x.isPrompt && !x.before.tasks.isEmpty) →
      ∀ x ∈ l, x.isPrompt ∧ x.before.stack ≠ [⟨[], .done⟩] := fun hall x hx => by
    obtain ⟨hprompt, htasks⟩ := Bool.and_eq_true_iff.1 (List.all_eq_true.1 hall x hx)
    refine ⟨hprompt, fun hstack => ?_⟩
    rw [Machine.tasks, hstack] at htasks
    cases htasks
  obtain ⟨bound, h⟩ := flush_drains hnew (by decide) hrun rfl rfl
  obtain ⟨-, hwrites, hover, -⟩ := h _ _ hmore (hgoing (by decide))
  exact ⟨_, _, _, _, _, hnew, hrun, rfl, rfl, rfl, hmore, by decide, rfl, by decide, hwrites, (hover rfl).1, rfl,
    (hover rfl).2⟩

end Spdy
