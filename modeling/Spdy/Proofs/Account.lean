import Mathlib.Algebra.Ring.Int.Defs
import Spdy.Proofs.Cover

/-!
# Accounts of windows

* `Moment.opening`, `lift`, `shift`, `paid` : what a moment enters in the account of a stream: the window
  of a new stream, WINDOW_UPDATE, SETTINGS, data that was written; `total` : the entries of a whole run;
* `Session.InRange`, `Session.Slim` : windows and frames are in their range in every run;
* `Booked`, `booked_of_next?` : a window moves by what is entered, unless it cannot make up for a write.
-/

namespace Spdy

/-! ## Entries -/

/-- What a window takes of a credit: all of it, or nothing if it would leave its range. -/
def Stream.taken (x : Stream) (delta : Int) : Int :=
  match x.credit delta with
  | .ok _ => delta
  | .error _ => 0

theorem Stream.taken_of_ok {x y : Stream} {delta : Int} (h : x.credit delta = .ok y) :
    x.taken delta = delta := by rw [taken, h]

theorem Stream.taken_of_error {x : Stream} {delta : Int} {e : Error} (h : x.credit delta = .error e) :
    x.taken delta = 0 := by rw [taken, h]

theorem Stream.taken_zero (x : Stream) : x.taken 0 = 0 := by
  unfold taken
  split <;> rfl

def Parcel.writtenOf (r : StreamRef) : Parcel → Nat
  | .control .. => 0
  | .data q _ written => if q = r then written else 0

namespace Moment

/-- The stream to which the peer grants window, and how much. -/
def grant? (mo : Moment) : Option (StreamRef × Int) :=
  match mo.op? with
  | some (.receive (.control ⟨_, .windowUpdate id delta⟩)) =>
    if mo.before.session.goAwaySent then none
    else (mo.before.session.find? id).map fun r => (r, min (delta.toNat : Int) Stream.maxWindow)
  | _ => none

/-- The size of windows that the peer tells. -/
def size? (mo : Moment) : Option Int :=
  match mo.op? with
  | some (.receive (.control ⟨_, .settings _ entries⟩)) =>
    if mo.before.session.goAwaySent then none
    else (Setting.lookup entries .initialWindowSize).map fun n => min (n.toNat : Int) Stream.maxWindow
  | _ => none

/-- The parcel of which a frame is reported as written, as it was while the frame was written. -/
def written? (mo : Moment) : Option Parcel :=
  match mo.op? with
  | some (.complete seq) => (mo.before.session.outstanding.find? (·.seq == seq)).map (·.parcel)
  | _ => none

variable (r : StreamRef) (mo : Moment)

def bears : Bool :=
  decide (mo.before.session.streams.size ≤ r.serial) && decide (r.serial < mo.after.session.streams.size)

def opening : Int := if mo.bears r then mo.before.session.initialWindow else 0

/-- By how much WINDOW_UPDATE raises the window of a stream. -/
def lift : Int :=
  match mo.grant? with
  | some (q, delta) => if q = r then (mo.before.session.stream r).taken delta else 0
  | none => 0

/-- By how much SETTINGS move the window of a stream. -/
def shift : Int :=
  match mo.size? with
  | some size =>
    if r ∈ mo.before.session.table then
      (mo.before.session.stream r).taken (size - mo.before.session.initialWindow)
    else 0
  | none => 0

/-- How much data of a stream was in the frame that is reported as written. -/
def paid : Int :=
  match mo.written? with
  | some q => q.writtenOf r
  | none => 0

end Moment

def total (f : Moment → Int) (past : List Moment) : Int := (past.map f).sum

@[simp] theorem total_nil (f : Moment → Int) : total f [] = 0 := rfl

@[simp] theorem total_append (f : Moment → Int) (past past' : List Moment) :
    total f (past ++ past') = total f past + total f past' := by simp [total]

@[simp] theorem total_singleton (f : Moment → Int) (mo : Moment) : total f [mo] = f mo := by
  simp [total]

/-! ## Ranges -/

/-- Windows are in their range, and so is the size of new ones. -/
structure Session.InRange (s : Session) : Prop where
  initial : 0 ≤ s.initialWindow ∧ s.initialWindow ≤ Stream.maxWindow
  window : ∀ r, (s.stream r).window ≤ Stream.maxWindow
  tidy : s.Tidy

theorem Session.InRange.bounded {s t : Session} (hs : s.InRange) (h : Bounded s t) : t.InRange := by
  refine ⟨?_, h.window hs.window hs.initial.2, h.tidy hs.tidy⟩
  rw [h.initialWindow]
  exact hs.initial

def Session.Slim (cap : Nat) (s : Session) : Prop :=
  ∀ h ∈ s.outstanding, ∀ r payload written, h.parcel = .data r payload written →
    written ≤ Encoder.clampCap cap

theorem Encoder.clampCap_le (cap : Nat) : (clampCap cap : Int) ≤ Stream.maxWindow := by
  have hmax : Stream.maxWindow = 2147483647 := rfl
  have hlen : maxFrameLength = 16777215 := rfl
  simp only [clampCap]
  omega

theorem Framed.written_le_cap {cap : Nat} {s : Session} {q : Parcel} {bytes : Bytes} {r : StreamRef}
    {payload : Payload} {written : Nat} (h : Framed cap s q bytes (.data r payload written)) :
    written ≤ Encoder.clampCap cap := by
  cases h with
  | @data r payload _ frame rest alive window chunk =>
    have hlength := Payload.length_of_chunk chunk
    omega

section Turn

variable {cap : Nat} {mo : Moment}

theorem inRange_of_turn (turn : Turn cap mo) (hm : mo.before.session.InRange) :
    mo.after.session.InRange := by
  have hsame : ∀ {t : Session}, t.streams = mo.before.session.streams →
      t.table = mo.before.session.table → t.initialWindow = mo.before.session.initialWindow →
      t.goAwaySent = mo.before.session.goAwaySent → t.InRange := fun h1 h2 h3 h4 =>
    hm.bounded (Keeps.of_same h1 h2 h3 h4).toBounded
  cases turn with
  | plain work session =>
    rw [session]
    cases work with
    | posts hp => exact hm.bounded (Keeps.of_posts hp).toBounded
    | lifts nil hop hp => exact hm.bounded (Keeps.of_lifts hp).toBounded
    | resizes nil hop sent eq =>
      have h := Session.receiveSettings_resized hm.tidy
      rw [eq]
      exact ⟨(h _).initial hm.initial, (h _).bounded hm.window, (h _).steady.tidy hm.tidy⟩
  | flush work session =>
    rw [session]
    exact hm.bounded (Keeps.of_flush work).toBounded
  | endWrite session => rw [session]; exact hsame rfl rfl rfl rfl
  | release session => rw [session]; exact hsame rfl rfl rfl rfl
  | @wrote h p mem work session =>
    have hdrop : (mo.before.session.dropHandler h.seq).InRange := hsame rfl rfl rfl rfl
    rw [session]
    exact hdrop.bounded (Bounded.of_wrote work)
  | failed fails mem session => rw [session]; exact hsame rfl rfl rfl rfl
  | broken breaks session => rw [session]; exact hm
  | dropped drops session => rw [session]; exact hsame rfl rfl rfl rfl

/-- What is being written was so before, or is handed over now. -/
theorem outstanding_of_turn (turn : Turn cap mo) : ∀ h ∈ mo.after.session.outstanding,
    h ∈ mo.before.session.outstanding ∨ ∃ bytes, mo.handed? = some (bytes, h) := by
  intro h hh
  cases turn with
  | plain work session =>
    rw [session, work.adds.outstanding] at hh
    exact .inl hh
  | flush work session before after said handed =>
    rw [session] at hh
    cases work with
    | idle => exact .inl hh
    | drop => exact .inl hh
    | hand free parcels blocked framed =>
      rcases List.mem_append.1 hh with hh | hh
      · exact .inl hh
      · rw [List.mem_singleton.1 hh]
        exact .inr ⟨_, handed⟩
  | endWrite session => rw [session] at hh; exact .inl hh
  | release session => rw [session] at hh; exact .inl hh
  | wrote mem work session =>
    rw [session, work.outstanding] at hh
    exact .inl (List.mem_filter.1 hh).1
  | failed fails mem session => rw [session] at hh; exact .inl (List.mem_filter.1 hh).1
  | broken breaks session => rw [session] at hh; exact .inl hh
  | dropped drops session => rw [session] at hh; exact .inl (List.mem_filter.1 hh).1

theorem slim_of_turn (turn : Turn cap mo) (hm : mo.before.session.Slim cap) :
    mo.after.session.Slim cap := by
  intro h hh r payload written hparcel
  rcases outstanding_of_turn turn h hh with hold | ⟨bytes, hhanded⟩
  · exact hm h hold r payload written hparcel
  · obtain ⟨q, -, hframed⟩ := (handing_of_turn turn hhanded).framed
    rw [hparcel] at hframed
    exact hframed.written_le_cap

end Turn

section Run

variable {cap : Nat} {config : Config} {primary : Option Listener} {s : Session} {past : List Moment}
  {m : Machine}

theorem Config.initialWindow_pos {config : Config} (h : config.fault? = none) :
    0 < config.initialWindow := by
  unfold Config.fault? at h
  split at h
  · cases h
  · split at h
    · cases h
    · omega

theorem inRange_of_run (hnew : Session.new config primary = .ok s)
    (hconfig : config.initialWindow ≤ Stream.maxWindow)
    (run : Run (.standard cap) { session := s } past m) : m.session.InRange := by
  induction run with
  | start =>
    obtain ⟨hfault, rfl⟩ := Session.new_eq_ok hnew
    have hpos := Config.initialWindow_pos hfault
    refine ⟨⟨Int.le_of_lt hpos, hconfig⟩, fun r => ?_, ⟨fun r hr => (nomatch hr), .nil⟩⟩
    rw [Session.stream_of_size_le (Nat.zero_le _)]
    decide
  | next run h ih => exact inRange_of_turn (turn_of_next? h (placed_of_run run)) ih

theorem slim_of_run (hnew : Session.new config primary = .ok s)
    (run : Run (.standard cap) { session := s } past m) : m.session.Slim cap := by
  induction run with
  | start =>
    obtain ⟨-, rfl⟩ := Session.new_eq_ok hnew
    intro h hh
    cases hh
  | next run h ih => exact slim_of_turn (turn_of_next? h (placed_of_run run)) ih

end Run

/-! ## A window moves by what is entered -/

/-- A window moves by what a moment enters in its account, unless it cannot make up for data that was
written: then its stream is given up next. -/
inductive Booked (mo : Moment) (r : StreamRef) : Prop
  | moved (window : (mo.after.session.stream r).window =
      (mo.before.session.stream r).window + mo.opening r + mo.lift r + mo.shift r - mo.paid r)
  | stuck {payload : Payload} {written : Nat} {e : Error} {rest : List Task} {outcome : Outcome}
      {below : List Activation} (parcel : mo.written? = some (.data r payload written))
      (credit : (mo.before.session.stream r).credit (debit written) = .error e)
      (window : (mo.after.session.stream r).window = (mo.before.session.stream r).window)
      (stack : mo.after.stack = ⟨.overflow r e :: rest, outcome⟩ :: below)

namespace Booked

variable {mo : Moment} {r : StreamRef}

theorem of_calm {t : Session} {new : List Parcel} (h : Calm mo.before.session t)
    (after : mo.after.session = t.post new) (grant : mo.grant? = none) (size : mo.size? = none)
    (written : mo.written? = none) : Booked mo r := by
  refine .moved ?_
  have hstream : mo.after.session.stream r = t.stream r := by rw [after]; rfl
  have hsize : mo.after.session.streams.size = t.streams.size := by rw [after]; rfl
  simp only [Moment.opening, Moment.bears, Moment.lift, Moment.shift, Moment.paid, grant, size, written,
    Bool.and_eq_true, decide_eq_true_eq, hstream, hsize]
  by_cases hold : r.serial < mo.before.session.streams.size
  · rw [if_neg (by omega), h.window r hold]
    omega
  · have hdefault : (mo.before.session.stream r).window = 0 := by
      rw [Session.stream_of_size_le (Nat.le_of_not_lt hold)]
      rfl
    by_cases hnew : r.serial < t.streams.size
    · rw [if_pos ⟨Nat.le_of_not_lt hold, hnew⟩, h.fresh r (Nat.le_of_not_lt hold) hnew, hdefault]
      omega
    · rw [if_neg (by omega), Session.stream_of_size_le (Nat.le_of_not_lt hnew), hdefault]
      rfl

theorem of_window (hsize : mo.after.session.streams.size = mo.before.session.streams.size)
    (window : (mo.after.session.stream r).window =
      (mo.before.session.stream r).window + mo.lift r + mo.shift r - mo.paid r) : Booked mo r := by
  have hopening : mo.opening r = 0 := by
    rw [Moment.opening, Moment.bears, hsize, if_neg]
    simp only [Bool.and_eq_true, decide_eq_true_eq]
    omega
  refine .moved ?_
  rw [hopening, window]
  omega

theorem of_streams (h : mo.after.session.streams = mo.before.session.streams) (grant : mo.grant? = none)
    (size : mo.size? = none) (written : mo.written? = none) : Booked mo r := by
  refine .of_window (by rw [h]) ?_
  simp only [Moment.lift, Moment.shift, Moment.paid, grant, size, written, Session.stream, h]
  omega

end Booked

namespace Session

/-- WINDOW_UPDATE moves the window of its stream only. -/
theorem receiveWindow_window {s : Session} (tidy : s.Tidy) {id : UInt32} {q : StreamRef}
    (hfind : s.find? id = some q) (delta : UInt32) (r : StreamRef) :
    ((s.receiveWindow id delta).session.stream r).window = (s.stream r).window +
      if q = r then (s.stream r).taken (min (delta.toNat : Int) Stream.maxWindow) else 0 := by
  have hknown : q.serial < s.streams.size := tidy.known q (List.mem_of_find?_eq_some hfind)
  unfold receiveWindow
  rw [hfind]
  dsimp only
  split
  · rename_i x hcredit
    by_cases hr : q = r
    · subst hr
      rw [stream_update_self _ hknown, if_pos rfl, Stream.taken_of_ok hcredit,
        (Stream.credit_eq_ok hcredit).1]
    · rw [stream_update_of_ne _ (Ne.symm hr), if_neg hr]
      omega
  · rename_i e hcredit
    by_cases hr : q = r
    · subst hr
      rw [if_pos rfl, Stream.taken_of_error hcredit]
      exact (Int.add_zero _).symm
    · rw [if_neg hr]
      exact (Int.add_zero _).symm

/-- SETTINGS move the windows of the open streams. -/
theorem receiveSettings_window {s : Session} (tidy : s.Tidy) {message : SettingsMessage} {n : UInt32}
    (hget : message.get? .initialWindowSize = some n) (r : StreamRef) :
    ((s.receiveSettings message).session.stream r).window = (s.stream r).window +
      if r ∈ s.table then
        (s.stream r).taken (min (n.toNat : Int) Stream.maxWindow - s.initialWindow)
      else 0 := by
  unfold receiveSettings
  rw [hget]
  dsimp only
  split
  · rename_i hzero
    rw [hzero, Stream.taken_zero, ite_self]
    exact (Int.add_zero _).symm
  · have hshift := shifted_shiftWindows
      (s := { s with initialWindow := min (n.toNat : Int) Stream.maxWindow })
      ⟨tidy.known, tidy.nodup⟩ (min (n.toNat : Int) Stream.maxWindow - s.initialWindow)
    by_cases hr : r ∈ s.table
    · rw [if_pos hr]
      rcases hshift.moved r hr with hm | ⟨hm, e, he, -⟩
      · rw [Stream.taken_of_ok (show (s.stream r).credit _ = _ from hm)]
        exact congrArg Stream.window (Stream.credit_eq_ok hm).1
      · rw [Stream.taken_of_error (show (s.stream r).credit _ = _ from he)]
        exact (congrArg Stream.window hm).trans (Int.add_zero _).symm
    · rw [if_neg hr]
      exact (congrArg Stream.window (hshift.others r hr)).trans (Int.add_zero _).symm

theorem size_receiveWindow (s : Session) (id delta : UInt32) :
    (s.receiveWindow id delta).session.streams.size = s.streams.size := by
  unfold receiveWindow
  split
  · rfl
  · split
    · exact size_update s _ _
    · rfl

theorem size_receiveSettings {s : Session} (tidy : s.Tidy) (message : SettingsMessage) :
    (s.receiveSettings message).session.streams.size = s.streams.size := by
  unfold receiveSettings
  dsimp only
  split
  · rfl
  · rename_i n _
    split
    · rfl
    · exact (shifted_shiftWindows
        (s := { s with initialWindow := min (n.toNat : Int) Stream.maxWindow })
        ⟨tidy.known, tidy.nodup⟩ _).size

end Session

section Moment

variable {cap : Nat} {m m' : Machine} {e : Event}

theorem debit_of_le {written : Nat} (h : (written : Int) ≤ Stream.maxWindow) :
    debit written = -(written : Int) := by
  unfold debit
  omega

theorem Session.window_closeLocal (s : Session) (r q : StreamRef) :
    ((s.closeLocal r).stream q).window = (s.stream q).window :=
  s.map_stream_update (·.window) r q rfl

theorem Wrote.size {s : Session} {q : Parcel} {p : Progress} (h : Wrote s q p) :
    p.session.streams.size = s.streams.size := by
  cases h with
  | control => rfl
  | stuck => rfl
  | @done r payload written x credit empty =>
    cases payload.close <;> simp [Session.closeLocal]
  | more => exact Session.size_update s _ _

/-- A window makes up for the data that was written, or it cannot. -/
theorem Wrote.window_cases {s : Session} {q : Parcel} {p : Progress} (h : Wrote s q p) (r : StreamRef)
    (hdata : ∀ payload written, q = .data r payload written →
      r.serial < s.streams.size ∧ written ≤ Encoder.clampCap cap) :
    (p.session.stream r).window = (s.stream r).window - q.writtenOf r ∨
      ∃ payload written e, q = .data r payload written ∧
        (s.stream r).credit (debit written) = .error e ∧
        p = { session := s, todo := [.overflow r e, .release] } := by
  have hcap := Encoder.clampCap_le cap
  have hdone : ∀ {r' payload written x}, q = .data r' payload written →
      (s.stream r').credit (debit written) = .ok x →
      ((s.update r' fun _ => x).stream r).window = (s.stream r).window - q.writtenOf r := by
    rintro r' payload written x rfl hcredit
    by_cases hr : r' = r
    · subst hr
      obtain ⟨hknown, hle⟩ := hdata payload written rfl
      rw [Session.stream_update_self _ hknown, (Stream.credit_eq_ok hcredit).1,
        debit_of_le (by omega), Parcel.writtenOf, if_pos rfl]
      rfl
    · rw [Session.stream_update_of_ne _ (Ne.symm hr), Parcel.writtenOf, if_neg hr]
      omega
  cases h with
  | control => exact .inl (Int.sub_zero _).symm
  | @stuck r' payload written e credit =>
    by_cases hr : r' = r
    · subst hr
      exact .inr ⟨payload, written, e, rfl, credit, rfl⟩
    · refine .inl ?_
      rw [Parcel.writtenOf, if_neg hr]
      exact (Int.sub_zero _).symm
  | @done r' payload written x credit empty =>
    refine .inl ?_
    dsimp only
    split
    · rw [Session.window_closeLocal]
      exact hdone rfl credit
    · exact hdone rfl credit
  | @more r' payload written x before after credit =>
    exact .inl (hdone rfl credit)

theorem posts_of_begin (cap : Nat) {s : Session} (alive : Bool) {op : Operation}
    (possible : op.isPossible s)
    (report : op.isReport = false) (sizes : op.isSettings = false)
    (grants : ∀ version id delta, op ≠ .receive (.control ⟨version, .windowUpdate id delta⟩)) :
    ∃ new, Posts s (s.begin (.standard cap) alive op).toProgress new := by
  obtain ⟨new, -, work⟩ := s.begin_work (.standard cap) alive report possible
  cases work with
  | posts h => exact ⟨new, h⟩
  | lifts nil hop => exact absurd (Option.some.inj hop) (grants _ _ _)
  | resizes nil hop =>
    rw [Option.some.inj hop] at sizes
    cases sizes

end Moment

section Begin

variable {cap : Nat} {mo : Moment} {r : StreamRef}

/-- An operation that begins, unless it moves windows. -/
theorem booked_of_posts {op : Operation} (hop : mo.op? = some op)
    (hafter : mo.after = (mo.before.invoke (.standard cap) op).1)
    (possible : op.isPossible mo.before.session) (report : op.isReport = false)
    (sizes : op.isSettings = false)
    (grants : ∀ version id delta, op ≠ .receive (.control ⟨version, .windowUpdate id delta⟩)) :
    Booked mo r := by
  obtain ⟨new, hposts⟩ := posts_of_begin cap mo.before.isAlive possible report sizes grants
  obtain ⟨t, ht, heq⟩ := hposts.session
  refine .of_calm ht (by rw [hafter]; exact heq) ?_ ?_ ?_
  · unfold Moment.grant?
    split
    · rename_i version id delta hgrant
      rw [hop] at hgrant
      exact absurd (Option.some.inj hgrant) (grants version id delta)
    · rfl
  · unfold Moment.size?
    split
    · rename_i hsize
      rw [hop] at hsize
      rw [Option.some.inj hsize] at sizes
      cases sizes
    · rfl
  · unfold Moment.written?
    split
    · rename_i hwritten
      rw [hop] at hwritten
      rw [Option.some.inj hwritten] at report
      cases report
    · rfl

theorem booked_of_grant {version : Version} {id delta : UInt32} (tidy : mo.before.session.Tidy)
    (hop : mo.op? = some (.receive (.control ⟨version, .windowUpdate id delta⟩)))
    (hafter : mo.after = (mo.before.invoke (.standard cap)
      (.receive (.control ⟨version, .windowUpdate id delta⟩))).1) : Booked mo r := by
  have hsize : mo.size? = none := by rw [Moment.size?, hop]
  have hwritten : mo.written? = none := by rw [Moment.written?, hop]
  have hsession : mo.after.session = if mo.before.session.goAwaySent then mo.before.session
      else (mo.before.session.receiveWindow id delta).session := by
    rw [hafter]
    simp only [Machine.invoke, Session.begin, Session.receive]
    split <;> rfl
  have hgrant : mo.grant? = if mo.before.session.goAwaySent then none
      else (mo.before.session.find? id).map fun r => (r, min (delta.toNat : Int) Stream.maxWindow) := by
    rw [Moment.grant?, hop]
  cases hsent : mo.before.session.goAwaySent with
  | true =>
    rw [hsent, if_pos rfl] at hsession hgrant
    exact .of_calm (.refl _) (hsession.trans (Session.post_nil _).symm) hgrant hsize hwritten
  | false =>
    rw [hsent, if_neg Bool.false_ne_true] at hsession hgrant
    cases hfind : mo.before.session.find? id with
    | none =>
      rw [hfind, Option.map_none] at hgrant
      rw [Session.receiveWindow, hfind] at hsession
      exact .of_calm (.refl _) (hsession.trans (Session.post_nil _).symm) hgrant hsize hwritten
    | some q =>
      rw [hfind, Option.map_some] at hgrant
      refine .of_window (by rw [hsession, Session.size_receiveWindow]) ?_
      rw [hsession, Session.receiveWindow_window tidy hfind]
      simp only [Moment.lift, Moment.shift, Moment.paid, hgrant, hsize, hwritten]
      omega

theorem booked_of_settings {version : Version} {flags : UInt8} {entries : List Setting}
    (tidy : mo.before.session.Tidy)
    (hop : mo.op? = some (.receive (.control ⟨version, .settings flags entries⟩)))
    (hafter : mo.after = (mo.before.invoke (.standard cap)
      (.receive (.control ⟨version, .settings flags entries⟩))).1) : Booked mo r := by
  have hgrant : mo.grant? = none := by rw [Moment.grant?, hop]
  have hwritten : mo.written? = none := by rw [Moment.written?, hop]
  have hsession : mo.after.session = if mo.before.session.goAwaySent then mo.before.session
      else (mo.before.session.receiveSettings
        ⟨entries, Flag.has flags Flag.clearSettings⟩).session := by
    rw [hafter]
    simp only [Machine.invoke, Session.begin, Session.receive]
    split <;> rfl
  have hsize : mo.size? = if mo.before.session.goAwaySent then none
      else (Setting.lookup entries .initialWindowSize).map
        fun n => min (n.toNat : Int) Stream.maxWindow := by
    rw [Moment.size?, hop]
  cases hsent : mo.before.session.goAwaySent with
  | true =>
    rw [hsent, if_pos rfl] at hsession hsize
    exact .of_calm (.refl _) (hsession.trans (Session.post_nil _).symm) hgrant hsize hwritten
  | false =>
    rw [hsent, if_neg Bool.false_ne_true] at hsession hsize
    refine .of_window (by rw [hsession, Session.size_receiveSettings tidy]) ?_
    rw [hsession]
    cases hget : Setting.lookup entries .initialWindowSize with
    | none =>
      rw [hget, Option.map_none] at hsize
      simp only [Moment.lift, Moment.shift, Moment.paid, hgrant, hsize, hwritten,
        Session.receiveSettings, SettingsMessage.get?, hget]
      omega
    | some n =>
      rw [hget, Option.map_some] at hsize
      have hmove := Session.receiveSettings_window tidy
        (show SettingsMessage.get? ⟨entries, Flag.has flags Flag.clearSettings⟩ _ = some n from hget) r
      rw [hmove]
      simp only [Moment.lift, Moment.shift, Moment.paid, hgrant, hsize, hwritten]
      omega

/-- A report that a frame was written. -/
theorem booked_of_complete {seq : Nat} (known : mo.before.session.Known)
    (slim : mo.before.session.Slim cap) (hop : mo.op? = some (.complete seq))
    (hafter : mo.after = (mo.before.invoke (.standard cap) (.complete seq)).1)
    (possible : mo.before.session.outstanding.any (·.seq == seq)) : Booked mo r := by
  obtain ⟨h, hfind⟩ := Option.isSome_iff_exists.1 (List.find?_isSome.2 (List.any_eq_true.1 possible))
  have hmem : h ∈ mo.before.session.outstanding := List.mem_of_find?_eq_some hfind
  have hgrant : mo.grant? = none := by rw [Moment.grant?, hop]
  have hsize : mo.size? = none := by rw [Moment.size?, hop]
  have hwritten : mo.written? = some h.parcel := by
    simp only [Moment.written?, hop, hfind, Option.map_some]
  have hreport : mo.before.session.report seq Session.wrote =
      (mo.before.session.dropHandler seq).wrote h.parcel := by
    simp only [Session.report, hfind]
  have hsession : mo.after.session = ((mo.before.session.dropHandler seq).wrote h.parcel).session := by
    rw [hafter, ← hreport]
    rfl
  have hstack : mo.after.stack =
      ⟨((mo.before.session.dropHandler seq).wrote h.parcel).todo, .done⟩ :: mo.before.stack := by
    rw [hafter, ← hreport]
    rfl
  rcases (wrote_cases (mo.before.session.dropHandler seq) h.parcel).window_cases r
      (fun payload written hparcel => ⟨known.leaving h hmem r (by rw [hparcel]; rfl),
        slim h hmem r payload written hparcel⟩) with hmove | ⟨payload, written, e, hparcel, hcredit, hp⟩
  · refine .of_window ?_ ?_
    · rw [hsession]
      exact (wrote_cases (mo.before.session.dropHandler seq) h.parcel).size
    · rw [hsession, hmove]
      simp only [Moment.lift, Moment.shift, Moment.paid, hgrant, hsize, hwritten]
      show (mo.before.session.stream r).window - _ = _
      omega
  · rw [hp] at hsession hstack
    rw [hparcel] at hwritten
    exact .stuck hwritten hcredit (by rw [hsession]; rfl) hstack

theorem booked_of_invoke {op : Operation} (hm : mo.before.session.InRange)
    (known : mo.before.session.Known) (slim : mo.before.session.Slim cap) (hop : mo.op? = some op)
    (hafter : mo.after = (mo.before.invoke (.standard cap) op).1)
    (possible : op.isPossible mo.before.session) : Booked mo r := by
  cases op with
  | complete seq => exact booked_of_complete known slim hop hafter possible
  | fail seq fault =>
    obtain ⟨h, -, -, heq⟩ := Session.report_of_possible (fun s p => s.notWritten p fault) possible
    refine .of_streams ?_ ?_ ?_ ?_
    · rw [hafter]
      exact congrArg (fun p : Progress => p.session.streams) heq
    · rw [Moment.grant?, hop]
    · rw [Moment.size?, hop]
    · rw [Moment.written?, hop]
  | receive received =>
    cases received with
    | control f =>
      obtain ⟨version, body⟩ := f
      cases body with
      | windowUpdate id delta => exact booked_of_grant hm.tidy hop hafter
      | settings flags entries => exact booked_of_settings hm.tidy hop hafter
      | _ => exact booked_of_posts hop hafter possible rfl rfl (by simp)
    | _ => exact booked_of_posts hop hafter possible rfl rfl (by simp)
  | _ => exact booked_of_posts hop hafter possible rfl rfl (by simp)

end Begin

theorem booked_of_tick {cap : Nat} {m m' : Machine} {task : Task} {r : StreamRef}
    (notCall : task.isCall = false)
    (hsession : m'.session = (m.session.perform (.standard cap) task).session) :
    Booked ⟨m, .tick, m'⟩ r := by
  have hplain : task.isPlain → task ≠ .flush → Booked ⟨m, .tick, m'⟩ r := by
    intro hp hf
    obtain ⟨new, -, h⟩ := m.session.perform_posts (.standard cap) hp hf notCall
    obtain ⟨t, ht, heq⟩ := h.session
    exact .of_calm ht (hsession.trans heq) rfl rfl rfl
  have hsame : (m.session.perform (.standard cap) task).session.streams = m.session.streams →
      Booked ⟨m, .tick, m'⟩ r := fun h => .of_streams (by rw [← h, ← hsession]) rfl rfl rfl
  cases task with
  | flush =>
    refine hsame ?_
    have h := flush_cases cap m.session
    rw [Session.perform]
    generalize m.session.flush (.standard cap) = p at h
    cases h <;> rfl
  | endWrite seq => exact hsame rfl
  | release => exact hsame rfl
  | call c => cases notCall
  | _ => exact hplain rfl (by simp)

theorem booked_of_next? {cap : Nat} {m m' : Machine} {e : Event}
    (h : m.next? (.standard cap) e = some m') (hm : m.session.InRange) (known : m.session.Known)
    (slim : m.session.Slim cap) (r : StreamRef) : Booked ⟨m, e, m'⟩ r := by
  have hcalm : ∀ {t : Session}, Calm m.session t → m'.session = t →
      (∀ op, e ≠ .invoke op) → Booked ⟨m, e, m'⟩ r := by
    intro t ht heq hop
    have hnone : Moment.op? ⟨m, e, m'⟩ = none := by
      cases e <;> first | rfl | exact absurd rfl (hop _)
    refine .of_calm ht (heq.trans (Session.post_nil _).symm) ?_ ?_ ?_
    · rw [Moment.grant?, hnone]
    · rw [Moment.size?, hnone]
    · rw [Moment.written?, hnone]
  cases Machine.happens_of_next? h with
  | invoke op yields possible => exact booked_of_invoke hm known slim rfl rfl possible
  | tick stack notCall => exact booked_of_tick notCall rfl
  | answer reply stack => exact hcalm (.accept _ _ _) rfl (by simp)
  | caught p stack tell => exact hcalm (.accept _ _ _) rfl (by simp)
  | broken p stack notTell => exact hcalm (.refl _) rfl (by simp)
  | leave stack => exact hcalm (.refl _) rfl (by simp)
  | edit e yields => exact hcalm (.edit _ e) rfl (by simp)
  | drop seq yields => exact .of_streams rfl rfl rfl rfl

end Spdy
