import Spdy.Proofs.Life

/-!
# Windows that leave their range

The peer moves windows by WINDOW_UPDATE and by SETTINGS. A window that would leave its range stays as it is, and its
stream is to be given up.

* `initialWindow_of_next?`, `settings_of_size?` : what SETTINGS do to the size of new windows;
* `window_of_next?` : a window makes up for every write, so that it moves by what is entered in its account;
* `Overflown` : the peer took a window beyond its range (`window_of_overflows`, `pending_of_overflows`);
* `High`, `deep_of_next?`, `High.next` : how deep windows may be;
* `Warranted`, `Warranted.next`, `overflows_of_refuses` : why streams are given up for their windows.
-/

namespace Spdy

/-! ## SETTINGS -/

theorem Session.initialWindow_receiveSettings {s : Session} (tidy : s.Tidy) (message : SettingsMessage) :
    (s.receiveSettings message).session.initialWindow =
      ((message.get? .initialWindowSize).map
        fun n => min (n.toNat : Int) Stream.maxWindow).getD s.initialWindow := by
  unfold receiveSettings
  dsimp only
  split
  · rename_i hget
    rw [hget]
    rfl
  · rename_i n hget
    rw [hget]
    split
    · rfl
    · exact (shifted_shiftWindows
        (s := { s with initialWindow := min (n.toNat : Int) Stream.maxWindow })
        ⟨tidy.known, tidy.nodup⟩ _).initialWindow

theorem Wrote.initialWindow {s : Session} {q : Parcel} {p : Progress} (h : Wrote s q p) :
    p.session.initialWindow = s.initialWindow := (Bounded.of_wrote h).initialWindow

section Moment

variable {cap : Nat} {m m' : Machine} {e : Event}

/-- SETTINGS that tell a size of windows are dealt with by an operation that begins. -/
theorem settings_of_size? {size : Int} (h : m.next? (.standard cap) e = some m')
    (hsize : Moment.size? ⟨m, e, m'⟩ = some size) :
    ∃ version flags entries n, e = .invoke (.receive (.control ⟨version, .settings flags entries⟩)) ∧
      Setting.lookup entries .initialWindowSize = some n ∧
      size = min (n.toNat : Int) Stream.maxWindow ∧ m.session.goAwaySent = false ∧
      m'.session =
        (m.session.receiveSettings ⟨entries, Flag.has flags Flag.clearSettings⟩).session ∧
      ∃ outcome, m'.stack =
        ⟨(m.session.receiveSettings ⟨entries, Flag.has flags Flag.clearSettings⟩).todo, outcome⟩ ::
          m.stack := by
  unfold Moment.size? at hsize
  split at hsize
  · rename_i version flags entries hop
    have hevent : e = .invoke (.receive (.control ⟨version, .settings flags entries⟩)) := by
      cases e <;> simp_all [Moment.op?]
    subst hevent
    split at hsize
    · cases hsize
    · rename_i hsent
      obtain ⟨n, hn, rfl⟩ := Option.map_eq_some_iff.1 hsize
      have hsent : m.session.goAwaySent = false := by simpa using hsent
      have hbegin : (m.session.begin (.standard cap) m.isAlive
          (.receive (.control ⟨version, .settings flags entries⟩))).toProgress =
            m.session.receiveSettings ⟨entries, Flag.has flags Flag.clearSettings⟩ :=
        Session.receive_control _ hsent ⟨version, .settings flags entries⟩
      refine ⟨version, flags, entries, n, rfl, hn, rfl, hsent, ?_⟩
      cases Machine.happens_of_next? h with
      | invoke =>
        refine ⟨congrArg Progress.session hbegin, .done, ?_⟩
        exact congrArg (fun p : Progress => Activation.mk p.todo .done :: m.stack) hbegin
  · cases hsize

/-- Only SETTINGS change the size of new windows. -/
theorem initialWindow_of_next? (h : m.next? (.standard cap) e = some m') (placed : m.Placed)
    (tidy : m.session.Tidy) :
    m'.session.initialWindow = (Moment.size? ⟨m, e, m'⟩).getD m.session.initialWindow := by
  cases hsize : Moment.size? ⟨m, e, m'⟩ with
  | some size =>
    obtain ⟨version, flags, entries, n, -, hn, rfl, -, hsession, -⟩ := settings_of_size? h hsize
    rw [hsession, Session.initialWindow_receiveSettings tidy, SettingsMessage.get?, hn]
    rfl
  | none =>
    cases turn_of_next? h placed with
    | plain work session =>
      rw [show m'.session = _ from session]
      cases work with
      | posts hp => exact (Keeps.of_posts hp).initialWindow
      | lifts nil op hp => exact hp.initialWindow
      | @resizes version flags entries nil op sent eq =>
        have hn : Setting.lookup entries .initialWindowSize = none := by
          simp only [Moment.size?, op] at hsize
          rw [if_neg (by simp [show m.session.goAwaySent = false from sent]),
            Option.map_eq_none_iff] at hsize
          exact hsize
        rw [eq, Session.initialWindow_receiveSettings tidy, SettingsMessage.get?, hn]
        rfl
    | flush work session =>
      rw [show m'.session = _ from session]
      exact (Keeps.of_flush work).initialWindow
    | endWrite session => rw [show m'.session = _ from session]; rfl
    | release session => rw [show m'.session = _ from session]; rfl
    | wrote mem work session =>
      rw [show m'.session = _ from session]
      exact work.initialWindow
    | failed fails mem session => rw [show m'.session = _ from session]; rfl
    | broken breaks session => rw [show m'.session = _ from session]; rfl
    | dropped drops session => rw [show m'.session = _ from session]; rfl

/-! ## Entries of one moment -/

theorem Moment.grant?_nonneg {mo : Moment} {r : StreamRef} {delta : Int}
    (h : mo.grant? = some (r, delta)) : 0 ≤ delta := by
  have hpos := Stream.maxWindow_pos
  unfold grant? at h
  split at h
  · split at h
    · cases h
    · obtain ⟨q, -, heq⟩ := Option.map_eq_some_iff.1 h
      obtain ⟨-, rfl⟩ := Prod.mk.inj heq
      omega
  · cases h

theorem Moment.lift_nonneg (mo : Moment) (r : StreamRef) : 0 ≤ mo.lift r := by
  unfold lift
  split
  · rename_i q delta hgrant
    have hdelta := grant?_nonneg hgrant
    split
    · unfold Stream.taken
      split
      · exact hdelta
      · exact Int.le_refl 0
    · exact Int.le_refl 0
  · exact Int.le_refl 0

theorem Moment.shift_of_size? {mo : Moment} (h : mo.size? = none) (r : StreamRef) : mo.shift r = 0 := by
  rw [shift, h]

theorem Moment.paid_of_written? {mo : Moment} {r : StreamRef}
    (h : ∀ payload written, mo.written? ≠ some (.data r payload written)) : mo.paid r = 0 := by
  unfold paid
  split
  · rename_i q hq
    cases q with
    | control => rfl
    | data q payload written =>
      rw [Parcel.writtenOf, if_neg]
      · rfl
      · rintro rfl
        exact h payload written hq
  · rfl

theorem Moment.paid_of_data {mo : Moment} {r : StreamRef} {payload : Payload} {written : Nat}
    (h : mo.written? = some (.data r payload written)) : mo.paid r = written := by
  simp [paid, h, Parcel.writtenOf]

theorem Moment.mem_of_written? {mo : Moment} {q : Parcel} (h : mo.written? = some q) :
    ∃ x ∈ mo.before.session.outstanding, x.parcel = q := by
  unfold written? at h
  split at h
  · obtain ⟨x, hfind, hx⟩ := Option.map_eq_some_iff.1 h
    exact ⟨x, List.mem_of_find?_eq_some hfind, hx⟩
  · cases h

theorem Moment.opening_nonneg {mo : Moment} (h : 0 ≤ mo.before.session.initialWindow) (r : StreamRef) :
    0 ≤ mo.opening r := by
  unfold opening
  split
  · exact h
  · exact Int.le_refl 0

theorem Moment.written?_of_new {mo : Moment} (known : mo.before.session.Known) {r : StreamRef}
    (h : mo.before.session.streams.size ≤ r.serial) (payload : Payload) (written : Nat) :
    mo.written? ≠ some (.data r payload written) := by
  intro hwritten
  obtain ⟨x, hmem, hx⟩ := mem_of_written? hwritten
  exact Nat.not_lt.2 h (known.leaving x hmem r (by rw [hx]; rfl))

theorem window_of_next? {ops : List Operation} (h : m.next? (.standard cap) e = some m')
    (hc : Covered ops m) (known : m.session.Known) (slim : m.session.Slim cap) (r : StreamRef) :
    (m'.session.stream r).window = (m.session.stream r).window + Moment.opening r ⟨m, e, m'⟩ +
      Moment.lift r ⟨m, e, m'⟩ + Moment.shift r ⟨m, e, m'⟩ - Moment.paid r ⟨m, e, m'⟩ := by
  cases booked_of_next? h ⟨hc.initial, hc.window, hc.tidy⟩ known slim r with
  | moved window => exact window
  | stuck parcel credit =>
    obtain ⟨x, hmem, hx⟩ := Moment.mem_of_written? parcel
    exact absurd credit (never_stuck hc hmem hx)

end Moment

/-! ## Windows that leave their range -/

/-- The peer took the window of a stream beyond its range. -/
def Overflown (past : List Moment) (r : StreamRef) : Bool := past.any (·.overflows r)

section Moment

variable {cap : Nat} {past : List Moment} {m m' : Machine} {e : Event} {ops : List Operation} {r : StreamRef}

theorem overflown_append (past past' : List Moment) (r : StreamRef) :
    Overflown (past ++ past') r = (Overflown past r || Overflown past' r) := List.any_append

theorem overflown_concat {mo : Moment} :
    Overflown (past ++ [mo]) r = false ↔ Overflown past r = false ∧ mo.overflows r = false := by
  rw [overflown_append, Bool.or_eq_false_iff, Overflown, Overflown, List.any_cons, List.any_nil, Bool.or_false]

theorem not_pending_of_nil (h : m.tasks = []) : ¬m.Pending r := by
  rintro ⟨x, hx, -⟩
  rw [h] at hx
  cases hx

theorem resized_of_size? {size : Int} (h : m.next? (.standard cap) e = some m') (tidy : m.session.Tidy)
    (hsize : Moment.size? ⟨m, e, m'⟩ = some size) :
    m'.session.streams.size = m.session.streams.size ∧
      ∃ p, Session.Resized m.session p ∧ m'.session = p.session ∧ ∀ x ∈ p.todo, x ∈ m'.tasks := by
  obtain ⟨version, flags, entries, n, -, -, -, -, hsession, outcome, hstack⟩ :=
    settings_of_size? h hsize
  refine ⟨by rw [hsession, Session.size_receiveSettings tidy], _,
    Session.receiveSettings_resized tidy _, hsession, fun x hx => ?_⟩
  rw [Machine.tasks_of_stack hstack]
  exact List.mem_append_left _ hx

theorem mem_table_of_next? (h : m.next? (.standard cap) e = some m') (placed : m.Placed)
    (hr : r ∈ m'.session.table) : r ∈ m.session.table ∨ m.session.streams.size ≤ r.serial :=
  (forward_of_turn (turn_of_next? h placed)).table r hr

/-- A window that would leave its range stays as it is. -/
theorem window_of_overflows (h : m.next? (.standard cap) e = some m') (hc : Covered ops m)
    (known : m.session.Known) (slim : m.session.Slim cap) (hover : Moment.overflows ⟨m, e, m'⟩ r) :
    (m'.session.stream r).window = (m.session.stream r).window := by
  obtain ⟨delta, hoffer, hbeyond⟩ := Moment.overflows_iff.1 hover
  have hr := hc.tidy.known r (Moment.mem_of_offer? hoffer).1
  have herror : (m.session.stream r).credit delta = .error _ := if_neg fun hrange => by
    dsimp only at hbeyond
    omega
  have hwindow := window_of_next? h hc known slim r
  rw [Moment.opening_of_known hr] at hwindow
  rcases Moment.offer?_cases hoffer with hgrant | ⟨size, hsize, hin, rfl⟩
  · obtain ⟨hsize, hwritten⟩ := Moment.size?_of_grant? hgrant
    rw [Moment.shift_of_size? hsize, Moment.paid, hwritten, Moment.lift, hgrant] at hwindow
    dsimp only at hwindow
    rw [if_pos rfl, Stream.taken_of_error herror] at hwindow
    omega
  · obtain ⟨hgrant, hwritten⟩ := Moment.written?_of_size? hsize
    rw [Moment.shift, hsize, Moment.paid, hwritten, Moment.lift, hgrant] at hwindow
    dsimp only at hwindow
    rw [if_pos hin, Stream.taken_of_error herror] at hwindow
    omega

/-- The window of an open stream moves with the size of new windows, unless it would leave its range. -/
theorem window_of_size? {size : Int} (h : m.next? (.standard cap) e = some m') (hc : Covered ops m)
    (known : m.session.Known) (slim : m.session.Slim cap) (hsize : Moment.size? ⟨m, e, m'⟩ = some size)
    (hin : r ∈ m.session.table) (hover : Moment.overflows ⟨m, e, m'⟩ r = false)
    (hhigh : m.session.initialWindow - Stream.maxWindow ≤ (m.session.stream r).window) :
    (m'.session.stream r).window = (m.session.stream r).window + (size - m.session.initialWindow) := by
  have hmin : Stream.minWindow = -Stream.maxWindow - 1 := by decide
  obtain ⟨-, -, hsmall, -⟩ := Moment.size?_eq_some hsize
  obtain ⟨hgrant, hwritten⟩ := Moment.written?_of_size? hsize
  have hfits : (m.session.stream r).window + (size - m.session.initialWindow) ≤ Stream.maxWindow := by
    refine Int.not_lt.1 fun hbeyond => Bool.eq_false_iff.1 hover (Moment.overflows_iff.2 ?_)
    exact ⟨_, Moment.offer?_of_size? hsize hin, hbeyond⟩
  have hcredit : (m.session.stream r).credit (size - m.session.initialWindow) = .ok _ :=
    if_pos ⟨by omega, hfits⟩
  have hwindow := window_of_next? h hc known slim r
  rw [Moment.opening_of_known (hc.tidy.known r hin), Moment.shift, hsize, Moment.paid, hwritten, Moment.lift,
    hgrant] at hwindow
  dsimp only at hwindow
  rw [if_pos hin, Stream.taken_of_ok hcredit] at hwindow
  omega

end Moment

/-! ## How deep windows may be -/

section Moment

variable {cap : Nat} {m m' : Machine} {e : Event} {ops : List Operation} {r : StreamRef}

/-- How far below the size of new windows the window of an open stream may be, as long as the session goes on. -/
def High (m : Machine) (r : StreamRef) : Prop :=
  r ∈ m.session.table →
    m.session.initialWindow - Stream.maxWindow ≤ (m.session.stream r).window ∨ m.session.goAwaySent

/-- No window gets deeper than the range allows, if no size of new windows takes it there. -/
theorem deep_of_next? (h : m.next? (.standard cap) e = some m') (hc : Covered ops m)
    (known : m.session.Known) (slim : m.session.Slim cap)
    (hhigh : (Moment.size? ⟨m, e, m'⟩).isSome → r ∈ m.session.table →
      Moment.overflows ⟨m, e, m'⟩ r = false → High m r)
    (hdeep : -Stream.maxWindow ≤ (m.session.stream r).window) :
    -Stream.maxWindow ≤ (m'.session.stream r).window := by
  have hinit := hc.initial
  have hwindow := window_of_next? h hc known slim r
  have hlift := Moment.lift_nonneg ⟨m, e, m'⟩ r
  have hopening := @Moment.opening_nonneg ⟨m, e, m'⟩ hinit.1 r
  cases hsize : Moment.size? ⟨m, e, m'⟩ with
  | some size =>
    obtain ⟨hgrant, hwritten⟩ := Moment.written?_of_size? hsize
    obtain ⟨-, hsent, hsmall, -⟩ := Moment.size?_eq_some hsize
    by_cases hin : r ∈ m.session.table
    · cases hover : Moment.overflows ⟨m, e, m'⟩ r with
      | true => rwa [window_of_overflows h hc known slim hover]
      | false =>
        have hlow := (hhigh (by rw [hsize]; rfl) hin hover hin).resolve_right
          (by simp [show m.session.goAwaySent = false from hsent])
        rw [window_of_size? h hc known slim hsize hin hover hlow]
        omega
    · rw [Moment.shift_of_closed (.inr (.inl hin)), Moment.paid, hwritten] at hwindow
      dsimp only at hwindow
      omega
  | none =>
    rw [Moment.shift_of_size? hsize] at hwindow
    by_cases hpaid : ∃ payload written, Moment.written? ⟨m, e, m'⟩ = some (.data r payload written)
    · obtain ⟨payload, written, hwritten⟩ := hpaid
      obtain ⟨x, hmem, hx⟩ := Moment.mem_of_written? hwritten
      have hdeep' := (hc.backed x hmem r payload written hx).deep
      rw [Moment.paid_of_data hwritten] at hwindow
      omega
    · rw [Moment.paid_of_written? fun payload written heq => hpaid ⟨payload, written, heq⟩] at hwindow
      omega

theorem mem_table_of_size? {size : Int} (h : m.next? (.standard cap) e = some m') (placed : m.Placed)
    (tidy : m.session.Tidy) (hafter : m'.session.Tidy) (hsize : Moment.size? ⟨m, e, m'⟩ = some size)
    (hr : r ∈ m'.session.table) : r ∈ m.session.table := by
  refine (mem_table_of_next? h placed hr).resolve_right fun hnew => ?_
  have hknown := hafter.known r hr
  rw [(resized_of_size? h tidy hsize).1] at hknown
  omega

/-- Windows stay as high, as long as the peer does not take them beyond their range. -/
theorem High.next (h : m.next? (.standard cap) e = some m') (placed : m.Placed) (hc : Covered ops m)
    (known : m.session.Known) (slim : m.session.Slim cap) (hafter : m'.session.Tidy)
    (hover : Moment.overflows ⟨m, e, m'⟩ r = false) (hdoomed : r ∈ m.session.table → ¬Doomed ops m r)
    (hhigh : High m r) : High m' r := by
  intro hin
  have turn := turn_of_next? h placed
  cases hsize : Moment.size? ⟨m, e, m'⟩ with
  | some size =>
    have hold := mem_table_of_size? h placed hc.tidy hafter hsize hin
    obtain ⟨-, hsent, -⟩ := Moment.size?_eq_some hsize
    have hlow := (hhigh hold).resolve_right (by simp [show m.session.goAwaySent = false from hsent])
    rw [initialWindow_of_next? h placed hc.tidy, hsize, window_of_size? h hc known slim hsize hold hover hlow]
    exact .inl (by simp only [Option.getD_some]; omega)
  | none =>
    have hsame : m'.session.initialWindow = m.session.initialWindow := by
      rw [initialWindow_of_next? h placed hc.tidy, hsize]
      rfl
    have hwindow := window_of_next? h hc known slim r
    rw [Moment.shift_of_size? hsize] at hwindow
    have hlift := Moment.lift_nonneg ⟨m, e, m'⟩ r
    have hinit := hc.initial
    have hsent : m.session.goAwaySent → m'.session.goAwaySent := (forward_of_turn turn).goAwaySent
    rcases mem_table_of_next? h placed hin with hold | hnew
    · rw [Moment.opening_of_known (hc.tidy.known r hold)] at hwindow
      by_cases hpaid : ∃ payload written, Moment.written? ⟨m, e, m'⟩ = some (.data r payload written)
      · obtain ⟨payload, written, hwritten⟩ := hpaid
        obtain ⟨x, hmem, hx⟩ := Moment.mem_of_written? hwritten
        rw [Moment.paid_of_data hwritten] at hwindow
        rcases (hc.backed x hmem r payload written hx).high hold with hlow | hdone | hdoom
        · exact .inl (by omega)
        · exact .inr (hsent hdone)
        · exact absurd hdoom (hdoomed hold)
      · rw [Moment.paid_of_written? fun payload written heq => hpaid ⟨payload, written, heq⟩] at hwindow
        exact (hhigh hold).imp (fun hlow => by omega) hsent
    · have hunpaid := Moment.paid_of_written? (@Moment.written?_of_new ⟨m, e, m'⟩ known r hnew)
      have hopening := @Moment.opening_nonneg ⟨m, e, m'⟩ hinit.1 r
      have hzero : (m.session.stream r).window = 0 := by
        rw [Session.stream_of_size_le hnew]
        rfl
      exact .inl (by omega)

end Moment


/-! ## Why streams are given up for their windows -/

/-- The peer took the window of a stream that is to be given up beyond its range, and no other open stream has
its id. -/
def Warranted (past : List Moment) (m : Machine) : Prop :=
  ∀ x ∈ m.tasks, x.givesUp → ∃ q, x.GivesUp m.session q ∧ q.serial < m.session.streams.size ∧ Overflown past q ∧
    ∀ r ∈ m.session.table, m.session.idOf r = m.session.idOf q → r = q

section Moment

variable {cap : Nat} {past : List Moment} {m m' : Machine} {e : Event} {ops : List Operation}
  {r : StreamRef} {err : Error}

theorem Warranted.overflown (hw : Warranted past m) (hp : m.Pending r) (hr : r ∈ m.session.table) :
    Overflown past r := by
  obtain ⟨x, hx, hgives⟩ := hp
  obtain ⟨q, hq, -, hover, hsole⟩ := hw x hx hgives.givesUp
  suffices hrq : r = q from hrq ▸ hover
  rcases hgives with ⟨err, rfl⟩ | ⟨version, status, rfl⟩
  · exact Task.givesUp_overflow.1 hq
  · exact hsole r hr (Task.givesUp_reset.1 hq)

theorem GivesUp.pending {todo : List Task} (h : GivesUp m.session r todo)
    (hsub : ∀ x ∈ todo, x ∈ m.tasks) : m.Pending r := by
  obtain ⟨pre, x, post, rfl, -, hx⟩ := h
  exact ⟨x, hsub x (List.mem_append_right _ List.mem_cons_self), hx⟩

theorem Doomed.pending (h : Doomed ops m r) : m.Pending r := by
  obtain ⟨a, op, hmem, -, pre, x, post, htodo, -, hx⟩ := h
  refine ⟨x, List.mem_flatMap.2 ⟨a, (List.of_mem_zip hmem).1, ?_⟩, hx⟩
  rw [htodo]
  exact List.mem_append_right _ List.mem_cons_self

theorem opens?_of_offer? {delta : Int} (h : Moment.offer? ⟨m, e, m'⟩ r = some delta) :
    Moment.opens? ⟨m, e, m'⟩ = none := by
  rcases Moment.offer?_cases h with hgrant | ⟨size, hsize, -⟩
  · unfold Moment.grant? at hgrant
    split at hgrant
    · next hop =>
      rw [Moment.opens?, hop]
      rfl
    · cases hgrant
  · unfold Moment.size? at hsize
    split at hsize
    · next hop =>
      rw [Moment.opens?, hop]
      rfl
    · cases hsize

/-- While something is being done, callbacks that do not come back to the session open no streams. -/
theorem opens?_of_mem_tasks {x : Task} (houter : Moment.reenters ⟨m, e, m'⟩ = false) (hx : x ∈ m.tasks) :
    Moment.opens? ⟨m, e, m'⟩ = none := by
  have hstack : m.stack ≠ [] := by
    intro hnil
    rw [Machine.tasks, hnil] at hx
    cases hx
  cases hop : Moment.op? ⟨m, e, m'⟩ with
  | none => rw [Moment.opens?, hop, Option.bind_none]
  | some op =>
    have hreport : op.isReport := by simpa [Moment.reenters, hop, hstack] using houter
    rw [Moment.opens?, hop, Option.bind_some]
    cases op <;> first | rfl | cases hreport

theorem only_of_next? (h : m.next? (.standard cap) e = some m') (placed : m.Placed) (tidy : m.session.Tidy)
    (voiced : m.Voiced) (hafter : m'.session.Tidy) (hopens : Moment.opens? ⟨m, e, m'⟩ = none) {q : StreamRef}
    (hq : q.serial < m.session.streams.size)
    (hsole : ∀ r ∈ m.session.table, m.session.idOf r = m.session.idOf q → r = q) :
    ∀ r ∈ m'.session.table, m'.session.idOf r = m'.session.idOf q → r = q := by
  intro r hr hid
  have onward : m.session.Onward m'.session := later_of_turn (turn_of_next? h placed)
  have hold : r ∈ m.session.table := by
    refine (mem_table_of_next? h placed hr).resolve_right fun hnew => ?_
    obtain ⟨news, hreported⟩ := reported_of_next? h tidy voiced
    have hcreates := (hreported.change.creates hnew (hafter.known r hr)).opens
    rw [hopens] at hcreates
    cases hcreates
  exact hsole r hold ((onward.later r (tidy.known r hold)).id.symm.trans (hid.trans (onward.later q hq).id))

theorem Warranted.next (h : m.next? (.standard cap) e = some m') (placed : m.Placed) (hc : Covered ops m)
    (voiced : m.Voiced) (hafter : m'.session.Tidy) (houter : Moment.reenters ⟨m, e, m'⟩ = false)
    (hover : ∀ r err, Moment.Refuses ⟨m, e, m'⟩ r err → Overflown (past ++ [⟨m, e, m'⟩]) r)
    (hw : Warranted past m) : Warranted (past ++ [⟨m, e, m'⟩]) m' := by
  have onward : m.session.Onward m'.session := later_of_turn (turn_of_next? h placed)
  have hmore : ∀ {q : StreamRef}, Overflown past q → Overflown (past ++ [⟨m, e, m'⟩]) q := fun hq => by
    rw [overflown_append, hq, Bool.true_or]
  intro x hx hgives
  cases ends_of_next? h hc.tidy hx (Task.endsStream_of_givesUp hgives) with
  | old hold =>
    obtain ⟨q, hq, hknown, hqover, hsole⟩ := hw x hold hgives
    exact ⟨q, hq.of_idOf (onward.later q hknown).id, Nat.lt_of_lt_of_le hknown onward.size, hmore hqover,
      only_of_next? h placed hc.tidy voiced hafter (opens?_of_mem_tasks houter hold) hknown hsole⟩
  | @refused r err refuses =>
    obtain ⟨delta, hoffer, -⟩ := id refuses
    have hr := (Moment.mem_of_offer? hoffer).1
    have hknown := hc.tidy.known r hr
    exact ⟨r, .inl ⟨err, rfl⟩, Nat.lt_of_lt_of_le hknown onward.size, hover r err refuses,
      only_of_next? h placed hc.tidy voiced hafter (opens?_of_offer? hoffer) hknown fun q hq hid =>
        eq_of_idOf hc.tidy hq hr hid⟩
  | stuck mem parcel credit => exact absurd credit (never_stuck hc mem parcel)
  | @given r err version hold =>
    obtain ⟨q, hq, hknown, hqover, hsole⟩ := hw _ hold rfl
    obtain rfl : r = q := Task.givesUp_overflow.1 hq
    exact ⟨r, Task.givesUp_reset.2 (onward.later r hknown).id.symm,
      Nat.lt_of_lt_of_le hknown onward.size, hmore hqover,
      only_of_next? h placed hc.tidy voiced hafter (opens?_of_mem_tasks houter hold) hknown hsole⟩
  | reclaim stream => cases hgives

/-- A stream is to be given up for its window only if the peer took it beyond its range. -/
theorem overflows_of_refuses (hdeep : -Stream.maxWindow ≤ (m.session.stream r).window) (hhigh : High m r)
    (hrefuses : Moment.Refuses ⟨m, e, m'⟩ r err) : Moment.overflows ⟨m, e, m'⟩ r := by
  obtain ⟨delta, hoffer, hcredit⟩ := hrefuses
  have hmin : Stream.minWindow = -Stream.maxWindow - 1 := by decide
  have hcredit : (m.session.stream r).credit delta = .error err := hcredit
  have hrange := Stream.credit_eq_error hcredit
  have hin := Moment.mem_of_offer? hoffer
  refine Moment.overflows_iff.2 ⟨delta, hoffer, ?_⟩
  show Stream.maxWindow < (m.session.stream r).window + delta
  rcases Moment.offer?_cases hoffer with hgrant | ⟨size, hsize, -, hdelta⟩
  · have hnonneg := Moment.grant?_nonneg hgrant
    omega
  · obtain ⟨-, -, hsmall, -⟩ := Moment.size?_eq_some hsize
    have hlow := (hhigh hin.1).resolve_right (by simp [show m.session.goAwaySent = false from hin.2])
    have hdelta : delta = size - m.session.initialWindow := hdelta
    omega

/-! ## Streams whose windows left their range are given up -/

/-- WINDOW_UPDATE for an open stream is dealt with by an operation that begins. -/
theorem widened_of_grant? {delta : Int} (h : m.next? (.standard cap) e = some m')
    (hgrant : Moment.grant? ⟨m, e, m'⟩ = some (r, delta)) :
    ∃ id n outcome, m.session.find? id = some r ∧ delta = min (UInt32.toNat n : Int) Stream.maxWindow ∧
      m'.stack = ⟨(m.session.receiveWindow id n).todo, outcome⟩ :: m.stack := by
  unfold Moment.grant? at hgrant
  split at hgrant
  · rename_i version id n hop
    have hevent : e = .invoke (.receive (.control ⟨version, .windowUpdate id n⟩)) := by
      cases e <;> simp_all [Moment.op?]
    subst hevent
    split at hgrant
    · cases hgrant
    · rename_i hsent
      obtain ⟨q, hfind, heq⟩ := Option.map_eq_some_iff.1 hgrant
      obtain ⟨rfl, rfl⟩ := Prod.mk.inj heq
      have hsent : m.session.goAwaySent = false := by simpa using hsent
      have hbegin : (m.session.begin (.standard cap) m.isAlive
          (.receive (.control ⟨version, .windowUpdate id n⟩))).toProgress = m.session.receiveWindow id n :=
        Session.receive_control _ hsent ⟨version, .windowUpdate id n⟩
      refine ⟨id, n, .done, hfind, rfl, ?_⟩
      cases Machine.happens_of_next? h with
      | invoke => exact congrArg (fun p : Progress => Activation.mk p.todo .done :: m.stack) hbegin
  · cases hgrant

/-- A stream whose window would leave its range is to be given up. -/
theorem pending_of_overflows (h : m.next? (.standard cap) e = some m') (hc : Covered ops m)
    (hover : Moment.overflows ⟨m, e, m'⟩ r) : m'.Pending r := by
  obtain ⟨delta, hoffer, hbeyond⟩ := Moment.overflows_iff.1 hover
  have hbeyond : Stream.maxWindow < (m.session.stream r).window + delta := hbeyond
  rcases Moment.offer?_cases hoffer with hgrant | ⟨size, hsize, hin, hdelta⟩
  · obtain ⟨id, n, outcome, hfind, rfl, hstack⟩ := widened_of_grant? h hgrant
    obtain ⟨err, herror⟩ : ∃ err, (m.session.stream r).credit (min (n.toNat : Int) Stream.maxWindow) = .error err :=
      ⟨_, if_neg fun hrange => Int.not_lt.2 hrange.2 hbeyond⟩
    refine ⟨.overflow r err, ?_, .inl ⟨err, rfl⟩⟩
    rw [Machine.tasks_of_stack hstack, Session.receiveWindow, hfind]
    dsimp only
    rw [herror]
    exact List.mem_cons_self
  · obtain ⟨-, p, hp, hsession, hsub⟩ := resized_of_size? h hc.tidy hsize
    have hmax := hp.bounded hc.window r
    rcases hp.moved r hin with hm | ⟨-, hgives⟩
    · obtain ⟨version, flags, entries, n, -, hn, rfl, -, hafter, -⟩ := settings_of_size? h hsize
      have hinit : p.session.initialWindow = min (n.toNat : Int) Stream.maxWindow := by
        rw [← hsession, hafter, Session.initialWindow_receiveSettings hc.tidy, SettingsMessage.get?, hn]
        rfl
      have hdelta : delta = min (n.toNat : Int) Stream.maxWindow - m.session.initialWindow := hdelta
      omega
    · rw [← hsession] at hgives
      exact hgives.pending hsub

end Moment

end Spdy
