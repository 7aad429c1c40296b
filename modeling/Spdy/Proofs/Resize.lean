import Spdy.Proofs.Drift

/-!
# What SETTINGS do to windows

SETTINGS that tell a size of windows move the window of each open stream by as much as the size changes. A stream whose
window would become too large keeps it, and is to be given up.

* `Session.newSize`, `Session.overrun` : the size that SETTINGS tell, and the streams whose windows would be too large;
* `Session.Resizes`, `receiveSettings_resizes` : what SETTINGS do at once, and in which order streams are to be given
  up;
* `Session.ordered`, `Session.Resizes.ordered` : the order of the table does not matter for it;
* `Session.Level` : windows are where they may be when nothing is being done.
-/

namespace Spdy

namespace Session

/-- The size of new windows that SETTINGS tell: the last entry decides, and the size stays in its range. -/
def newSize (s : Session) (entries : List Setting) : Int :=
  ((Setting.lookup entries .initialWindowSize).map fun n => min (n.toNat : Int) Stream.maxWindow).getD s.initialWindow

/-- The open streams whose windows would be too large with another size of new windows, in the order of the table. -/
def overrun (s : Session) (size : Int) : List StreamRef :=
  s.table.filter fun r => Stream.maxWindow < (s.stream r).window + (size - s.initialWindow)

/-- The windows of open streams have moved with the size of new windows, except for those that would be too large. -/
structure Resizes (s : Session) (size : Int) (t : Session) : Prop where
  rest : t = { s with streams := t.streams, initialWindow := size }
  count : t.streams.size = s.streams.size
  moved : ∀ r, t.stream r =
    if r ∈ s.table ∧ r ∉ s.overrun size then
      { s.stream r with window := (s.stream r).window + (size - s.initialWindow) }
    else s.stream r

/-- The windows of open streams are in their range, and not further below the size of new windows than is allowed. -/
structure Level (s : Session) : Prop where
  tidy : s.Tidy
  initial : 0 ≤ s.initialWindow ∧ s.initialWindow ≤ Stream.maxWindow
  low : ∀ r ∈ s.table, s.initialWindow - Stream.maxWindow ≤ (s.stream r).window
  high : ∀ r ∈ s.table, (s.stream r).window ≤ Stream.maxWindow

variable {s t : Session} {size : Int} {r : StreamRef}

theorem mem_overrun :
    r ∈ s.overrun size ↔ r ∈ s.table ∧ Stream.maxWindow < (s.stream r).window + (size - s.initialWindow) := by
  rw [overrun, List.mem_filter, decide_eq_true_eq]

theorem streams_ext (count : t.streams.size = s.streams.size) (h : ∀ r, t.stream r = s.stream r) :
    t.streams = s.streams := by
  refine Array.ext count fun i hi hi' => ?_
  have hr := h ⟨i⟩
  rw [stream_eq, stream_eq, Array.getElem?_eq_getElem hi, Array.getElem?_eq_getElem hi'] at hr
  exact hr

/-! ## One window after another -/

/-- The windows that cannot move are told in the order in which they are tried. -/
theorem failed_foldl {delta : Int} {l : List StreamRef} (nodup : l.Nodup) (known : ∀ r ∈ l, r.serial < s.streams.size)
    {p : StreamRef → Bool} (hp : ∀ r ∈ l, p r ↔ ∃ e, (s.stream r).credit delta = .error e) :
    (l.foldl (shiftWindow delta) (s, [])).2.map Prod.fst = l.filter p := by
  induction l using List.reverseRecOn with
  | nil => rfl
  | append_singleton l r ih =>
    obtain ⟨hl, -, hne⟩ := List.nodup_append.1 nodup
    have hknown : ∀ t ∈ l, t.serial < s.streams.size := fun t ht => known t (List.mem_append_left _ ht)
    have hr : r ∉ l := fun h => hne r h r (List.mem_singleton_self r) rfl
    have hsame := (shifted_foldl delta hl hknown).others r hr
    have hfailed := ih hl hknown fun t ht => hp t (List.mem_append_left _ ht)
    have hlast := hp r (List.mem_append_right _ (List.mem_singleton_self r))
    rw [List.foldl_append, List.foldl_cons, List.foldl_nil, List.filter_append, shiftWindow, hsame]
    cases hcredit : (s.stream r).credit delta with
    | ok x =>
      have hnot : ¬p r := fun h => by
        obtain ⟨e, he⟩ := hlast.1 h
        cases hcredit.symm.trans he
      rw [List.filter_cons_of_neg hnot, List.filter_nil, List.append_nil]
      exact hfailed
    | error e =>
      rw [List.filter_cons_of_pos (hlast.2 ⟨e, hcredit⟩), List.filter_nil, List.map_append, hfailed]
      rfl

/-- A window cannot move with the size of new windows exactly if it would be too large. -/
theorem Level.credit (h : s.Level) (hsize : 0 ≤ size) (hr : r ∈ s.table) :
    decide (Stream.maxWindow < (s.stream r).window + (size - s.initialWindow)) ↔
      ∃ e, (s.stream r).credit (size - s.initialWindow) = .error e := by
  have hlow := h.low r hr
  rw [decide_eq_true_eq]
  constructor
  · intro hlost
    exact ⟨_, if_neg fun hrange => by omega⟩
  · rintro ⟨e, he⟩
    by_contra hlost
    obtain ⟨x, hx⟩ : ∃ x, (s.stream r).credit (size - s.initialWindow) = .ok x :=
      Stream.credit_of_range (by omega) (by omega)
    cases he.symm.trans hx

theorem Level.resizes_self (h : s.Level) : s.overrun s.initialWindow = [] ∧ s.Resizes s.initialWindow s := by
  have hnone : s.overrun s.initialWindow = [] := by
    refine List.filter_eq_nil_iff.2 fun r hr => ?_
    have hhigh := h.high r hr
    rw [decide_eq_true_eq]
    omega
  refine ⟨hnone, rfl, rfl, fun r => ?_⟩
  rw [hnone, Int.sub_self, Int.add_zero, ite_self]

theorem Level.resizes_shiftWindows (h : s.Level) (hsize : 0 ≤ size) :
    s.Resizes size (shiftWindows { s with initialWindow := size } (size - s.initialWindow)).1 ∧
      (shiftWindows { s with initialWindow := size } (size - s.initialWindow)).2.map Prod.fst = s.overrun size := by
  have htidy : ({ s with initialWindow := size } : Session).Tidy := ⟨h.tidy.known, h.tidy.nodup⟩
  have hshift := shifted_shiftWindows htidy (size - s.initialWindow)
  refine ⟨⟨?_, hshift.size, fun r => ?_⟩, ?_⟩
  · have hrest := shiftWindows_unchanged (fun t : Session => { t with streams := #[] }) (fun _ _ _ => rfl)
      { s with initialWindow := size } (size - s.initialWindow)
    exact congrArg (fun t : Session => { t with streams := (shiftWindows { s with initialWindow := size }
      (size - s.initialWindow)).1.streams }) hrest
  · by_cases hr : r ∈ s.table
    · have hcredit := h.credit hsize hr
      have hlost : r ∈ s.overrun size ↔ ∃ e, (s.stream r).credit (size - s.initialWindow) = .error e := by
        rw [← hcredit, mem_overrun, decide_eq_true_eq, and_iff_right hr]
      rcases hshift.moved r hr with hmoved | ⟨hsame, e, he, -⟩
      · have hnot : r ∉ s.overrun size := fun h => by
          obtain ⟨e, he⟩ := hlost.1 h
          cases hmoved.symm.trans he
        rw [if_pos ⟨hr, hnot⟩]
        exact (Stream.credit_eq_ok hmoved).1
      · rw [if_neg fun h => h.2 (hlost.2 ⟨e, he⟩)]
        exact hsame
    · rw [if_neg fun h => hr h.1]
      exact hshift.others r hr
  · rw [shiftWindows_eq]
    exact failed_foldl (s := { s with initialWindow := size }) (List.Nodup.of_map s.idOf h.tidy.nodup) h.tidy.known
      fun r hr => h.credit hsize hr

/-- What SETTINGS do at once: windows move, and the streams whose windows would be too large are to be given up in the
order of the table. -/
theorem receiveSettings_resizes (h : s.Level) (entries : List Setting) (clear : Bool) :
    s.Resizes (s.newSize entries) (s.receiveSettings ⟨entries, clear⟩).session ∧
      ∃ failed : List (StreamRef × Error), failed.map Prod.fst = s.overrun (s.newSize entries) ∧
        (s.receiveSettings ⟨entries, clear⟩).todo =
          failed.map (fun x => .overflow x.1 x.2) ++ [.announce (.settings ⟨entries, clear⟩), .flush] := by
  unfold receiveSettings newSize
  dsimp only [SettingsMessage.get?]
  cases Setting.lookup entries .initialWindowSize with
  | none =>
    obtain ⟨hnone, hself⟩ := h.resizes_self
    exact ⟨hself, [], hnone.symm, rfl⟩
  | some n =>
    have hpos := Stream.maxWindow_pos
    have hsize : 0 ≤ min (n.toNat : Int) Stream.maxWindow := by omega
    dsimp only [Option.map_some, Option.getD_some]
    generalize min (n.toNat : Int) Stream.maxWindow = size at hsize
    split
    · next hzero =>
      obtain rfl : size = s.initialWindow := by omega
      obtain ⟨hnone, hself⟩ := h.resizes_self
      exact ⟨hself, [], hnone.symm, rfl⟩
    · obtain ⟨hresizes, hfailed⟩ := h.resizes_shiftWindows hsize
      exact ⟨hresizes, _, hfailed, rfl⟩

theorem newSize_range (h : 0 ≤ s.initialWindow ∧ s.initialWindow ≤ Stream.maxWindow) (entries : List Setting) :
    0 ≤ s.newSize entries ∧ s.newSize entries ≤ Stream.maxWindow := by
  have hpos := Stream.maxWindow_pos
  unfold newSize
  cases Setting.lookup entries .initialWindowSize with
  | none => exact h
  | some n =>
    rw [Option.map_some, Option.getD_some]
    omega

/-! ## What stays -/

theorem Resizes.stream (h : s.Resizes size t) (r : StreamRef) : ∃ window, t.stream r = { s.stream r with window } := by
  rw [h.moved]
  split
  · exact ⟨_, rfl⟩
  · exact ⟨_, rfl⟩

theorem Resizes.idOf (h : s.Resizes size t) : t.idOf = s.idOf := by
  funext r
  obtain ⟨window, hstream⟩ := h.stream r
  rw [Session.idOf, hstream, Session.idOf]

theorem Resizes.table (h : s.Resizes size t) : t.table = s.table := by rw [h.rest]

theorem Resizes.outbox (h : s.Resizes size t) : t.outbox = s.outbox := by rw [h.rest]

theorem Resizes.outstanding (h : s.Resizes size t) : t.outstanding = s.outstanding := by rw [h.rest]

theorem Resizes.goAwaySent (h : s.Resizes size t) : t.goAwaySent = s.goAwaySent := by rw [h.rest]

theorem Resizes.tidy (h : s.Resizes size t) (tidy : s.Tidy) : t.Tidy where
  known := fun r hr => by
    rw [h.count]
    exact tidy.known r (h.table ▸ hr)
  nodup := by
    rw [h.idOf, h.table]
    exact tidy.nodup

/-! ## Tables in another order -/

/-- The session with its table in another order. -/
def ordered (s : Session) (table : List StreamRef) : Session := { s with table }

theorem Tidy.ordered (h : s.Tidy) {table : List StreamRef} (perm : table.Perm s.table) : (s.ordered table).Tidy where
  known := fun r hr => h.known r (perm.mem_iff.1 hr)
  nodup := (perm.map s.idOf).nodup_iff.2 h.nodup

theorem Level.ordered (h : s.Level) {table : List StreamRef} (perm : table.Perm s.table) : (s.ordered table).Level where
  tidy := h.tidy.ordered perm
  initial := h.initial
  low := fun r hr => h.low r (perm.mem_iff.1 hr)
  high := fun r hr => h.high r (perm.mem_iff.1 hr)

theorem overrun_ordered {table : List StreamRef} (perm : table.Perm s.table) (size : Int) :
    ((s.ordered table).overrun size).Perm (s.overrun size) := perm.filter _

/-- The order of the table does not matter for what becomes of windows. -/
theorem Resizes.ordered (h : s.Resizes size t) {table : List StreamRef} (perm : table.Perm s.table) {u : Session}
    (h' : (s.ordered table).Resizes size u) : u = t.ordered table := by
  have hstreams : u.streams = t.streams := by
    refine streams_ext (h'.count.trans h.count.symm) fun r => ?_
    rw [h'.moved, h.moved]
    exact if_congr (and_congr perm.mem_iff (not_congr (overrun_ordered perm size).mem_iff)) rfl rfl
  rw [h'.rest, hstreams, h.rest]
  rfl

end Session

end Spdy
