import Mathlib.Data.List.Induction
import Mathlib.Data.List.Nodup
import Spdy.Proofs.Passage

/-!
# Send windows

* `Bounded s t` : windows stay below their bound; `Keeps s t` : nor do they shrink;
* `Shifted`, `shifted_shiftWindows` : what a new size of windows does to each open stream;
* `Task.isMild`, `GivesUp` : a stream is going to be given up before anything can come in between;
* `Resized`, `receiveSettings_resized` : what SETTINGS do to all windows.
-/

namespace Spdy

/-! ## Windows that stay below their bound -/

/-- A session later on, if windows are still no larger than they may be. -/
structure Bounded (s t : Session) : Prop where
  initialWindow : t.initialWindow = s.initialWindow
  window : (∀ r, (s.stream r).window ≤ Stream.maxWindow) → s.initialWindow ≤ Stream.maxWindow →
    ∀ r, (t.stream r).window ≤ Stream.maxWindow
  tidy : s.Tidy → t.Tidy

/-- A session later on, if no window has become smaller. -/
structure Keeps (s t : Session) : Prop extends Bounded s t where
  grows : ∀ r, r.serial < s.streams.size → (s.stream r).window ≤ (t.stream r).window
  table : ∀ r ∈ t.table, r ∈ s.table ∨ s.streams.size ≤ r.serial
  goAwaySent : s.goAwaySent → t.goAwaySent

theorem Stream.maxWindow_pos : 0 < maxWindow := by decide

namespace Keeps

variable {s t : Session}

/-- Only what has nothing to do with streams changed. -/
theorem of_same (hstreams : t.streams = s.streams) (htable : t.table = s.table)
    (hwindow : t.initialWindow = s.initialWindow) (hsent : t.goAwaySent = s.goAwaySent) :
    Keeps s t := by
  have hstream : ∀ r, t.stream r = s.stream r := fun r => by
    rw [Session.stream, Session.stream, hstreams]
  have hid : t.idOf = s.idOf := funext fun r => congrArg Stream.id (hstream r)
  refine ⟨⟨hwindow, fun h _ r => by rw [hstream]; exact h r, fun h => ⟨?_, ?_⟩⟩, ?_, ?_, ?_⟩
  · rw [hstreams, htable]
    exact h.known
  · rw [hid, htable]
    exact h.nodup
  · intro r _
    exact Int.le_of_eq (congrArg Stream.window (hstream r)).symm
  · intro r hr
    exact .inl (htable ▸ hr)
  · rw [hsent]
    exact id

theorem of_calm (h : Calm s t) : Keeps s t := by
  refine ⟨⟨h.initialWindow, fun hmax hinit r => ?_, h.tidy⟩, fun r hr => ?_, h.table, h.goAwaySent⟩
  · by_cases hs : r.serial < s.streams.size
    · rw [h.window r hs]
      exact hmax r
    · by_cases ht : r.serial < t.streams.size
      · rw [h.fresh r (Nat.le_of_not_lt hs) ht]
        exact hinit
      · rw [Session.stream_of_size_le (Nat.le_of_not_lt ht)]
        decide
  · exact Int.le_of_eq (h.window r hr).symm

theorem of_posts {p : Progress} {new : List Parcel} (h : Posts s p new) : Keeps s p.session := by
  obtain ⟨u, hu, heq⟩ := h.session
  have hpost : Keeps u (u.post new) := of_same rfl rfl rfl rfl
  have hcalm := of_calm hu
  rw [heq]
  exact ⟨⟨hcalm.initialWindow, hcalm.window, fun h => hpost.tidy (hcalm.tidy h)⟩, hcalm.grows,
    hcalm.table, hcalm.goAwaySent⟩

theorem of_lifts {p : Progress} (h : Lifts s p) : Keeps s p.session :=
  ⟨⟨h.initialWindow, fun hmax _ => h.bounded hmax, h.session.tidy⟩, fun r _ => h.grows r,
    h.session.table, h.session.goAwaySent⟩

theorem of_flush {cap : Nat} {p : Progress} (h : Flushed cap s p) : Keeps s p.session := by
  cases h <;> exact of_same rfl rfl rfl rfl

end Keeps

theorem Bounded.of_debit {s : Session} {r : StreamRef} {written : Nat} {x : Stream}
    (h : (s.stream r).credit (debit written) = .ok x) : Bounded s (s.update r fun _ => x) := by
  refine ⟨rfl, fun hmax _ => ?_, (Steady.credit h).tidy⟩
  refine Session.forall_stream_update (P := (·.window ≤ Stream.maxWindow)) hmax ?_
  obtain ⟨rfl, -, hle⟩ := Stream.credit_eq_ok h
  exact hle

theorem Bounded.of_wrote {s : Session} {q : Parcel} {p : Progress} (h : Wrote s q p) :
    Bounded s p.session := by
  cases h with
  | control => exact (Keeps.of_same rfl rfl rfl rfl).toBounded
  | stuck => exact (Keeps.of_same rfl rfl rfl rfl).toBounded
  | @done r payload written x credit =>
    have hdebit := Bounded.of_debit credit
    dsimp only
    split
    · have hclose := Keeps.of_calm (Calm.closeLocal (s.update r fun _ => x) r)
      exact ⟨hdebit.initialWindow, fun hmax hinit => hclose.window (hdebit.window hmax hinit) hinit,
        fun h => hclose.tidy (hdebit.tidy h)⟩
    · exact hdebit
  | more credit =>
    have hdebit := Bounded.of_debit credit
    exact ⟨hdebit.initialWindow, hdebit.window, fun h => ⟨(hdebit.tidy h).known, (hdebit.tidy h).nodup⟩⟩

/-! ## A new size of windows -/

namespace Session

/-- The windows of some streams have moved, except for those that would have left their range. -/
structure Shifted (s : Session) (delta : Int) (l : List StreamRef)
    (q : Session × List (StreamRef × Error)) : Prop where
  initialWindow : q.1.initialWindow = s.initialWindow
  size : q.1.streams.size = s.streams.size
  others : ∀ r, r ∉ l → q.1.stream r = s.stream r
  moved : ∀ r ∈ l, (s.stream r).credit delta = .ok (q.1.stream r) ∨
    q.1.stream r = s.stream r ∧ ∃ e, (s.stream r).credit delta = .error e ∧ (r, e) ∈ q.2
  failed : ∀ x ∈ q.2, x.1 ∈ l ∧ (s.stream x.1).credit delta = .error x.2

theorem Shifted.step {s : Session} {delta : Int} {l : List StreamRef}
    {q : Session × List (StreamRef × Error)} (h : Shifted s delta l q) {r : StreamRef} (hr : r ∉ l)
    (hknown : r.serial < s.streams.size) : Shifted s delta (l ++ [r]) (shiftWindow delta q r) := by
  have hsame : q.1.stream r = s.stream r := h.others r hr
  cases hcredit : (s.stream r).credit delta with
  | ok x =>
    have hstep : shiftWindow delta q r = (q.1.update r fun _ => x, q.2) := by
      rw [shiftWindow, hsame, hcredit]
    have hself : (q.1.update r fun _ => x).stream r = x :=
      stream_update_self _ (by rw [h.size]; exact hknown)
    rw [hstep]
    refine ⟨h.initialWindow, (size_update q.1 r _).trans h.size, fun t ht => ?_, fun t ht => ?_,
      fun x hx => ?_⟩
    · rw [List.mem_append, List.mem_singleton, not_or] at ht
      rw [stream_update_of_ne _ ht.2]
      exact h.others t ht.1
    · rcases List.mem_append.1 ht with ht | ht
      · have hne : t ≠ r := fun he => hr (he ▸ ht)
        rw [stream_update_of_ne _ hne]
        exact h.moved t ht
      · rw [List.mem_singleton.1 ht, hself]
        exact .inl hcredit
    · exact ⟨List.mem_append_left _ (h.failed x hx).1, (h.failed x hx).2⟩
  | error e =>
    have hstep : shiftWindow delta q r = (q.1, q.2 ++ [(r, e)]) := by
      rw [shiftWindow, hsame, hcredit]
    rw [hstep]
    refine ⟨h.initialWindow, h.size, fun t ht => ?_, fun t ht => ?_, fun x hx => ?_⟩
    · rw [List.mem_append, not_or] at ht
      exact h.others t ht.1
    · rcases List.mem_append.1 ht with ht | ht
      · rcases h.moved t ht with hm | ⟨hm, e', he', hmem⟩
        · exact .inl hm
        · exact .inr ⟨hm, e', he', List.mem_append_left _ hmem⟩
      · rw [List.mem_singleton.1 ht]
        exact .inr ⟨hsame, e, hcredit, List.mem_append_right _ (List.mem_singleton_self _)⟩
    · rcases List.mem_append.1 hx with hx | hx
      · exact ⟨List.mem_append_left _ (h.failed x hx).1, (h.failed x hx).2⟩
      · rw [List.mem_singleton.1 hx]
        exact ⟨List.mem_append_right _ (List.mem_singleton_self _), hcredit⟩

theorem shifted_foldl {s : Session} (delta : Int) {l : List StreamRef} (nodup : l.Nodup)
    (known : ∀ r ∈ l, r.serial < s.streams.size) : Shifted s delta l (l.foldl (shiftWindow delta) (s, [])) := by
  induction l using List.reverseRecOn with
  | nil => exact ⟨rfl, rfl, fun _ _ => rfl, fun _ h => (nomatch h), fun _ h => (nomatch h)⟩
  | append_singleton l r ih =>
    obtain ⟨hl, -, hne⟩ := List.nodup_append.1 nodup
    rw [List.foldl_append, List.foldl_cons, List.foldl_nil]
    refine (ih hl fun t ht => known t (List.mem_append_left _ ht)).step ?_ ?_
    · exact fun hr => hne r hr r (List.mem_singleton_self r) rfl
    · exact known r (List.mem_append_right _ (List.mem_singleton_self r))

theorem shifted_shiftWindows {s : Session} (tidy : s.Tidy) (delta : Int) :
    Shifted s delta s.table (s.shiftWindows delta) := by
  rw [shiftWindows_eq]
  exact shifted_foldl delta (List.Nodup.of_map s.idOf tidy.nodup) tidy.known

end Session

/-! ## Streams that are going to be given up -/

/-- Tasks that neither hand a frame to the controller, as long as the outbox is busy, nor close the
connection. -/
def Task.isMild : Task → Bool
  | .overflow .. | .reset .. | .tell .. | .flush | .call (.tell ..) => true
  | _ => false

def Task.GivesUp (s : Session) (r : StreamRef) (x : Task) : Prop :=
  (∃ e, x = .overflow r e) ∨ ∃ version status, x = .reset version (s.idOf r) status

/-- Some work gives a stream up before anything but mild tasks is done. -/
def GivesUp (s : Session) (r : StreamRef) (todo : List Task) : Prop :=
  ∃ pre x post, todo = pre ++ x :: post ∧ (∀ y ∈ pre, y.isMild) ∧ x.GivesUp s r

theorem GivesUp.of_idOf {s t : Session} {r : StreamRef} {todo : List Task} (h : GivesUp s r todo)
    (hid : t.idOf r = s.idOf r) : GivesUp t r todo := by
  obtain ⟨pre, x, post, htodo, hpre, hx⟩ := h
  refine ⟨pre, x, post, htodo, hpre, ?_⟩
  rcases hx with hx | ⟨version, status, hx⟩
  · exact .inl hx
  · exact .inr ⟨version, status, by rw [hid]; exact hx⟩

namespace Session

/-- Giving up a stream takes all that have its id out of the table. -/
theorem remove_table {s : Session} {q r : StreamRef} (hq : q ∈ s.table) (hid : s.idOf r = s.idOf q) :
    r ∉ (s.remove q).session.table := by
  intro hr
  have h := s.remove_cases q
  generalize s.remove q = p at h hr
  cases h with
  | gone =>
    have := (List.mem_filter.1 hr).2
    rw [hid] at this
    simp at this
  | absent absent =>
    have := List.find?_eq_none.1 absent q hq
    simp at this

theorem giveUp_table (s : Session) (r : StreamRef) (notes : List Note) :
    r ∉ (s.giveUp (s.idOf r) notes).session.table := by
  unfold giveUp
  split
  · rename_i hfind
    intro hr
    have := List.find?_eq_none.1 hfind r hr
    simp at this
  · rename_i q hfind
    have hq : q ∈ s.table := List.mem_of_find?_eq_some hfind
    have hid : s.idOf q = s.idOf r := by simpa using List.find?_some hfind
    refine remove_table hq ?_
    rw [markReset, s.idOf_update q rfl, hid]

/-- After a reset a stream is not open, unless the end of the session was announced. -/
theorem reset_table (enc : Encoder) (s : Session) (version : Version) (r : StreamRef)
    (status : StreamStatus) (hsent : s.goAwaySent = false) :
    r ∉ (s.reset enc version (s.idOf r) status).session.table := by
  rw [reset_eq, if_neg (by simp [hsent])]
  split
  · rename_i bytes _
    exact giveUp_table (s.post [.control .rstStream bytes none]) r []
  · exact giveUp_table s r _

/-- Mild tasks leave mild tasks, as long as the outbox is busy. -/
theorem perform_mild {cap : Nat} {s : Session} {y : Task} (hbusy : s.outbox.busy = true)
    (hy : y.isMild) (hcall : y.isCall = false) :
    ∀ z ∈ (s.perform (.standard cap) y).todo, z.isMild := by
  intro z hz
  cases perform_begets hcall hz with
  | mourns h => cases h <;> rfl
  | write free | endWrite free =>
    rw [hbusy] at free
    cases free
  | first | others | reset => rfl
  | primary | registered | round | opened => cases hy

theorem givesUp_of_call {s : Session} {r : StreamRef} {c : Call} {rest : List Task}
    (h : GivesUp s r (.call c :: rest)) : c.isTell ∧ GivesUp s r rest := by
  obtain ⟨pre, x, post, htodo, hpre, hx⟩ := h
  cases pre with
  | nil =>
    obtain ⟨rfl, -⟩ := List.cons.inj htodo
    rcases hx with ⟨e, he⟩ | ⟨version, status, he⟩ <;> cases he
  | cons y pre =>
    obtain ⟨rfl, hrest⟩ := List.cons.inj htodo
    refine ⟨?_, pre, x, post, hrest, fun z hz => hpre z (List.mem_cons_of_mem _ hz), hx⟩
    have := hpre _ List.mem_cons_self
    cases c <;> first | rfl | cases this

/-- A task is done, and the stream is still going to be given up, if it has not been. -/
theorem givesUp_of_perform {cap : Nat} {s : Session} {r : StreamRef} {task : Task} {rest : List Task}
    (h : GivesUp s r (task :: rest)) (hbusy : s.outbox.busy = true) (hcall : task.isCall = false)
    (hid : (s.perform (.standard cap) task).session.idOf r = s.idOf r) :
    GivesUp (s.perform (.standard cap) task).session r
        ((s.perform (.standard cap) task).todo ++ rest) ∨
      (s.perform (.standard cap) task).session.goAwaySent ∨
      r ∉ (s.perform (.standard cap) task).session.table := by
  obtain ⟨pre, x, post, htodo, hpre, hx⟩ := h
  cases pre with
  | nil =>
    obtain ⟨rfl, rfl⟩ := List.cons.inj htodo
    rcases hx with ⟨e, rfl⟩ | ⟨version, status, rfl⟩
    · refine .inl ⟨[], .reset (s.stream r).version (s.idOf r) .flowControlError, rest, rfl, by simp, ?_⟩
      exact .inr ⟨_, _, rfl⟩
    · cases hsent : s.goAwaySent with
      | true =>
        refine .inr (.inl ?_)
        rw [perform, reset_eq, if_pos hsent]
        exact hsent
      | false => exact .inr (.inr (s.reset_table _ version r status hsent))
  | cons y pre =>
    obtain ⟨rfl, hrest⟩ := List.cons.inj htodo
    refine .inl (GivesUp.of_idOf ⟨(s.perform (.standard cap) task).todo ++ pre, x, post, ?_, ?_, hx⟩ hid)
    · rw [hrest, List.append_assoc]
      rfl
    · intro z hz
      rcases List.mem_append.1 hz with hz | hz
      · exact perform_mild hbusy (hpre task List.mem_cons_self) hcall z hz
      · exact hpre z (List.mem_cons_of_mem _ hz)

/-- What SETTINGS do to the windows: those of the open streams move with the size of new windows, or
their streams are going to be given up. -/
structure Resized (s : Session) (p : Progress) : Prop where
  initial : 0 ≤ s.initialWindow ∧ s.initialWindow ≤ Stream.maxWindow →
    0 ≤ p.session.initialWindow ∧ p.session.initialWindow ≤ Stream.maxWindow
  bounded : (∀ r, (s.stream r).window ≤ Stream.maxWindow) →
    ∀ r, (p.session.stream r).window ≤ Stream.maxWindow
  steady : Steady s p.session
  others : ∀ r, r ∉ s.table → (p.session.stream r).window = (s.stream r).window
  moved : ∀ r ∈ s.table,
    (p.session.stream r).window - p.session.initialWindow =
        (s.stream r).window - s.initialWindow ∨
      (p.session.stream r).window = (s.stream r).window ∧ GivesUp p.session r p.todo

theorem Shifted.window_le {s : Session} {delta : Int} {l : List StreamRef}
    {q : Session × List (StreamRef × Error)} (h : Shifted s delta l q)
    (hmax : ∀ r, (s.stream r).window ≤ Stream.maxWindow) (r : StreamRef) :
    (q.1.stream r).window ≤ Stream.maxWindow := by
  by_cases hr : r ∈ l
  · rcases h.moved r hr with hm | ⟨hm, -⟩
    · obtain ⟨heq, -, hle⟩ := Stream.credit_eq_ok hm
      rw [heq]
      exact hle
    · rw [hm]
      exact hmax r
  · rw [h.others r hr]
    exact hmax r

theorem receiveSettings_resized {s : Session} (tidy : s.Tidy) (message : SettingsMessage) :
    Resized s (s.receiveSettings message) := by
  unfold receiveSettings
  dsimp only
  split
  · exact ⟨id, id, .refl s, fun _ _ => rfl, fun _ _ => .inl rfl⟩
  · rename_i n _
    have hpos := Stream.maxWindow_pos
    have hsize : 0 ≤ min (n.toNat : Int) Stream.maxWindow ∧
        min (n.toNat : Int) Stream.maxWindow ≤ Stream.maxWindow := by omega
    generalize min (n.toNat : Int) Stream.maxWindow = size at hsize
    have hresize : Steady s { s with initialWindow := size } := .of_same rfl rfl rfl rfl rfl id
    split
    · rename_i hzero
      have hsame : size = s.initialWindow := by omega
      refine ⟨fun _ => hsize, id, hresize, fun _ _ => rfl, fun r _ => .inl ?_⟩
      rw [hsame]
    · have hshift := shifted_shiftWindows (s := { s with initialWindow := size })
        ⟨tidy.known, tidy.nodup⟩ (size - s.initialWindow)
      have hsteady := hresize.trans (shiftWindows_steady { s with initialWindow := size }
        (size - s.initialWindow))
      generalize shiftWindows { s with initialWindow := size } (size - s.initialWindow) = q
        at hshift hsteady
      obtain ⟨u, failed⟩ := q
      have hinit : u.initialWindow = size := hshift.initialWindow
      refine ⟨fun _ => ?_, fun hmax => hshift.window_le hmax, hsteady, fun r hr => ?_, fun r hr => ?_⟩
      · rw [hinit]
        exact hsize
      · exact congrArg Stream.window (hshift.others r hr)
      · rcases hshift.moved r hr with hm | ⟨hm, e, -, he⟩
        · refine .inl ?_
          obtain ⟨heq, -, -⟩ := Stream.credit_eq_ok hm
          have hwindow : (u.stream r).window = (s.stream r).window + (size - s.initialWindow) :=
            congrArg Stream.window heq
          show (u.stream r).window - u.initialWindow = _
          omega
        · refine .inr ⟨congrArg Stream.window hm, ?_⟩
          obtain ⟨pre, post, rfl⟩ := List.append_of_mem he
          refine ⟨pre.map fun x => .overflow x.1 x.2, .overflow r e,
            (post.map fun x => .overflow x.1 x.2) ++ [.announce (.settings message), .flush], ?_, ?_,
            .inl ⟨e, rfl⟩⟩
          · simp
          · intro y hy
            obtain ⟨x, -, rfl⟩ := List.mem_map.1 hy
            rfl

end Session

end Spdy
