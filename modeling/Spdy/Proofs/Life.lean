import Spdy.Proofs.GiveUp
import Spdy.Proofs.Tidings

/-!
# The life of a stream

A stream comes into the table once and leaves it at most once, and the listeners are told of both. As
streams leave the table by their ids, one may take another one with it: the peer may use an id again while
there is still work left for the stream that had it before.

* `tellings` : how often a listener was told something, or is still to be told it;
* `Machine.Through` : a stream is out of the table for good; `Machine.Free` : all streams of an id are;
* `Machine.Sole` : all streams of an id are out of the table for good, but for the one that is in it;
* `Fate` : what becomes of a stream;
* `stream_lives_once` : how it lives, and `stream_taken_by_another` : how it may die.
-/

namespace Spdy

/-! ## What was told -/

/-- How often a listener was told something, or is still to be told it by the operations in progress. -/
def tellings (past : List Moment) (m : Machine) (l : Listener) (n : Notice) : Nat :=
  past.countP (·.tells l n) + m.due l n

theorem tellings_of_reported {past : List Moment} {m m' : Machine} {e : Event} {news : Option Notice}
    {l : Listener} {n : Notice} (h : Reported ⟨m, e, m'⟩ news) (hn : n.isLife) :
    tellings (past ++ [⟨m, e, m'⟩]) m' l n =
      tellings past m l n + if news = some n then m.session.streamListeners.count l else 0 := by
  have haccount := h.account l n hn
  dsimp only at haccount
  rw [tellings, tellings, List.countP_append, List.countP_singleton]
  cases htells : Moment.tells ⟨m, e, m'⟩ l n with
  | false =>
    rw [htells, Bool.toNat_false] at haccount
    rw [if_neg Bool.false_ne_true]
    omega
  | true =>
    rw [htells, Bool.toNat_true] at haccount
    rw [if_pos rfl]
    omega

/-! ## Streams that are out of the table -/

instance {ok : StreamRef → Prop} [DecidablePred ok] (s : Session) : Decidable (s.Concerns ok) :=
  decidable_of_iff ((∀ q ∈ s.outbox.parcels, ∀ r ∈ q.stream?, ok r) ∧
      ∀ h ∈ s.outstanding, ∀ r ∈ h.parcel.stream?, ok r)
    ⟨fun h => ⟨h.1, h.2⟩, fun h => ⟨h.waiting, h.leaving⟩⟩

/-- A stream is out of the table for good: the other side did not say its last on it, or this side did and
no work is left. -/
def Machine.Through (m : Machine) (q : StreamRef) : Prop :=
  q ∉ m.session.table ∧ ((m.session.stream q).remoteClosed = false ∨
    (m.session.stream q).localClosed ∧ m.session.Concerns (· ≠ q) ∧ .reclaim q ∉ m.tasks)

/-- An id may be used: all streams that had it are out of the table for good. -/
def Machine.Free (m : Machine) (id : UInt32) : Prop :=
  ∀ n < m.session.streams.size, m.session.idOf ⟨n⟩ = id → m.Through ⟨n⟩

instance (m : Machine) (q : StreamRef) : Decidable (m.Through q) :=
  inferInstanceAs (Decidable (_ ∧ (_ ∨ _ ∧ _ ∧ _)))

instance (m : Machine) (id : UInt32) : Decidable (m.Free id) :=
  inferInstanceAs (Decidable (∀ n < m.session.streams.size, _))

/-- Where a stream of an id is open, all others are out of the table for good. -/
def Machine.Sole (m : Machine) (id : UInt32) : Prop :=
  ∀ q, q.serial < m.session.streams.size → m.session.idOf q = id →
    ∀ x ∈ m.session.table, m.session.idOf x = id → x = q ∨ m.Through q

/-- The stream, which is closed or given up, and no other one leaves the table. -/
structure Moment.Removes (mo : Moment) (r : StreamRef) : Prop where
  mem : r ∈ mo.before.session.table
  ended : (mo.after.session.stream r).isClosed ∨ (mo.after.session.stream r).reset
  table : ∀ q, q ∈ mo.after.session.table ↔ q ∈ mo.before.session.table ∧ q ≠ r

section Moment

variable {cap : Nat} {m m' : Machine} {e : Event} {r : StreamRef} {id : UInt32} {news : Option Notice}

theorem through_of_next? (h : m.next? (.standard cap) e = some m') (placed : m.Placed)
    (tidy : m.session.Tidy) (known : r.serial < m.session.streams.size) (hr : m.Through r) :
    m'.Through r := by
  have turn := turn_of_next? h placed
  have forward : m.session.Forward m'.session := forward_of_turn turn
  refine ⟨fun hmem => ?_, ?_⟩
  · rcases forward.table r hmem with ht | ht
    · exact hr.1 ht
    · omega
  · rcases hr.2 with hremote | ⟨hlocal, hparcels, htasks⟩
    · refine .inl (Bool.eq_false_iff.2 fun hclosed => ?_)
      rw [forward.remote r known hr.1 hclosed] at hremote
      cases hremote
    · refine .inr ⟨(later_of_turn turn).localClosed hlocal, ?_, fun hmem => ?_⟩
      · refine concerns_of_turn turn hparcels ?_
        rintro r x speaks rfl
        rw [speaks.localOpen] at hlocal
        cases hlocal
      · cases ends_of_next? h tidy hmem rfl with
        | old mem => exact htasks mem
        | reclaim stream =>
          rcases stream with ht | hnew | ⟨x, hx, hstream⟩
          · exact hr.1 ht
          · exact absurd known (Nat.not_lt.2 hnew)
          · exact hparcels.leaving x hx r hstream rfl

theorem mem_of_gone (hsole : m.Sole (m.session.idOf r)) (known : r.serial < m.session.streams.size)
    (cause : r ∈ m.session.table ∨ .reclaim r ∈ m.tasks ∧ (m.session.stream r).isClosed)
    (mem : ∃ x ∈ m.session.table, m.session.idOf x = m.session.idOf r) : r ∈ m.session.table := by
  rcases cause with hr | ⟨htask, hclosed⟩
  · exact hr
  · obtain ⟨x, hx, hid⟩ := mem
    rcases hsole r known rfl x hx hid with rfl | ⟨-, hremote | ⟨-, -, hnone⟩⟩
    · exact hx
    · rw [Stream.isClosed, hremote, Bool.and_false] at hclosed
      cases hclosed
    · exact absurd htask hnone

theorem eq_of_idOf (tidy : m.session.Tidy) {q : StreamRef} (hq : q ∈ m.session.table)
    (hr : r ∈ m.session.table) (hid : m.session.idOf q = m.session.idOf r) : q = r :=
  List.inj_on_of_nodup_map tidy.nodup hq hr hid

/-- An open stream stays in the table, unless it is the one that the news are about. -/
theorem stays_or_removed (hchange : Change ⟨m, e, m'⟩ news) (tidy : m.session.Tidy)
    (hsole : m.Sole (m.session.idOf r))
    (hfree : Moment.opens? ⟨m, e, m'⟩ = some (m.session.idOf r) → m.Free (m.session.idOf r))
    (hr : r ∈ m.session.table) :
    r ∈ m'.session.table ∧ news ≠ some (.closed r) ∨
      Moment.Removes ⟨m, e, m'⟩ r ∧ news = some (.closed r) := by
  have hother : ∀ id, Moment.opens? ⟨m, e, m'⟩ = some id → m.session.idOf r ≠ id := by
    rintro id hopens rfl
    exact (hfree hopens r.serial (tidy.known r hr) rfl).1 hr
  cases hchange with
  | same table => exact .inl ⟨table ▸ hr, nofun⟩
  | born creates =>
    refine .inl ⟨?_, by simp⟩
    rw [creates.table, List.mem_append, List.mem_filter, bne_iff_ne]
    exact .inl ⟨hr, hother _ creates.opens⟩
  | lost opens table =>
    refine .inl ⟨?_, nofun⟩
    rw [table, List.mem_filter, bne_iff_ne]
    exact ⟨hr, hother _ opens⟩
  | @gone q known cause mem ended table =>
    by_cases hid : m.session.idOf r = m.session.idOf q
    · have hq : q ∈ m.session.table := mem_of_gone (hid ▸ hsole) known cause mem
      obtain rfl := eq_of_idOf tidy hr hq hid
      refine .inr ⟨⟨hr, ended, fun x => ?_⟩, rfl⟩
      rw [table, List.mem_filter, bne_iff_ne]
      exact and_congr_right fun hx => not_congr ⟨eq_of_idOf tidy hx hr, congrArg _⟩
    · refine .inl ⟨?_, ?_⟩
      · rw [table, List.mem_filter, bne_iff_ne]
        exact ⟨hr, hid⟩
      · rintro hnews
        cases hnews
        exact hid rfl

/-- A stream that is not open any more does not come back, and no news are about it. -/
theorem stays_away (h : m.next? (.standard cap) e = some m') (placed : m.Placed)
    (hchange : Change ⟨m, e, m'⟩ news) (hsole : m.Sole (m.session.idOf r))
    (known : r.serial < m.session.streams.size) (hr : r ∉ m.session.table) :
    r ∉ m'.session.table ∧ news ≠ some (.closed r) := by
  refine ⟨fun hmem => ?_, ?_⟩
  · rcases (forward_of_turn (turn_of_next? h placed)).table r hmem with ht | ht
    · exact hr ht
    · exact absurd known (Nat.not_lt.2 ht)
  · rintro rfl
    cases hchange with
    | gone known cause mem => exact hr (mem_of_gone hsole known cause mem)

theorem sole_of_next? (h : m.next? (.standard cap) e = some m') (placed : m.Placed)
    (hchange : Change ⟨m, e, m'⟩ news) (tidy : m.session.Tidy) (hsole : m.Sole id)
    (hfree : Moment.opens? ⟨m, e, m'⟩ = some id → m.Free id) : m'.Sole id := by
  have turn := turn_of_next? h placed
  have onward : m.session.Onward m'.session := later_of_turn turn
  have forward : m.session.Forward m'.session := forward_of_turn turn
  have hold : ∀ q, q.serial < m.session.streams.size → m'.session.idOf q = m.session.idOf q :=
    fun q hq => (onward.later q hq).id
  have hthrough : ∀ q, q.serial < m.session.streams.size → m.Through q → m'.Through q :=
    fun q hq => through_of_next? h placed tidy hq
  intro q hq hid x hx hxid
  by_cases hqold : q.serial < m.session.streams.size
  · rcases forward.table x hx with hxold | hxnew
    · rw [hold q hqold] at hid
      rw [hold x (tidy.known x hxold)] at hxid
      exact (hsole q hqold hid x hxold hxid).imp_right (hthrough q hqold)
    · have hcreates := hchange.creates hxnew ((forward.tidy tidy).known x hx)
      refine .inr (hthrough q hqold (hfree (hcreates.opens.trans (congrArg _ hxid)) q.serial hqold ?_))
      rw [← hid]
      exact (hold q hqold).symm
  · have hcreates := hchange.creates (Nat.le_of_not_lt hqold) hq
    rcases forward.table x hx with hxold | hxnew
    · rw [hold x (tidy.known x hxold)] at hxid
      exact absurd hxold (hfree (hcreates.opens.trans (congrArg _ hid)) x.serial (tidy.known x hxold) hxid).1
    · left
      rw [(hchange.creates hxnew ((forward.tidy tidy).known x hx)).new, hcreates.new]

end Moment

/-! ## Runs -/

section Run

variable {cap : Nat} {config : Config} {primary : Option Listener} {s : Session} {past : List Moment}
  {m : Machine} {r : StreamRef} {id : UInt32}

theorem tidy_of_run (hnew : Session.new config primary = .ok s)
    (run : Run (.standard cap) { session := s } past m) : m.session.Tidy := by
  induction run with
  | start =>
    obtain ⟨-, rfl⟩ := Session.new_eq_ok hnew
    exact ⟨fun r hr => (nomatch hr), .nil⟩
  | next run h ih => exact (forward_of_turn (turn_of_next? h (placed_of_run run))).tidy ih

theorem voiced_of_run (hnew : Session.new config primary = .ok s)
    (run : Run (.standard cap) { session := s } past m) : m.Voiced := by
  induction run with
  | start => exact fun a ha => (nomatch ha)
  | next run h ih =>
    obtain ⟨news, hreported⟩ := reported_of_next? h (tidy_of_run hnew run) ih
    exact hreported.voiced

theorem sole_of_run (hnew : Session.new config primary = .ok s)
    (run : Run (.standard cap) { session := s } past m)
    (hfree : ∀ mo ∈ past, mo.opens? = some id → mo.before.Free id) : m.Sole id := by
  induction run with
  | start =>
    obtain ⟨-, rfl⟩ := Session.new_eq_ok hnew
    exact fun _ hq => absurd hq (Nat.not_lt_zero _)
  | next run h ih =>
    have tidy := tidy_of_run hnew run
    obtain ⟨news, hreported⟩ := reported_of_next? h tidy (voiced_of_run hnew run)
    exact sole_of_next? h (placed_of_run run) hreported.change tidy
      (ih fun mo hmo => hfree mo (List.mem_append_left _ hmo))
      (hfree _ (List.mem_append_right _ (List.mem_singleton_self _)))

/-! ## A stream comes -/

structure Unborn (r : StreamRef) (past : List Moment) (m : Machine) : Prop where
  absent : ∀ mo ∈ past, r ∉ mo.after.session.table
  created : ∀ l, tellings past m l (.created r) = 0
  closed : ∀ l, tellings past m l (.closed r) = 0

theorem unborn_of_run (hnew : Session.new config primary = .ok s)
    (run : Run (.standard cap) { session := s } past m) (hr : m.session.streams.size ≤ r.serial) :
    Unborn r past m := by
  induction run with
  | start => exact ⟨by simp, fun _ => rfl, fun _ => rfl⟩
  | @next past m m' e run h ih =>
    have tidy := tidy_of_run hnew run
    have turn := turn_of_next? h (placed_of_run run)
    have hsize : m.session.streams.size ≤ m'.session.streams.size := (later_of_turn turn).size
    have ih := ih (Nat.le_trans hsize hr)
    obtain ⟨news, hreported⟩ := reported_of_next? h tidy (voiced_of_run hnew run)
    have hnone : news ≠ some (.created r) ∧ news ≠ some (.closed r) := by
      constructor <;> rintro rfl
      · cases hreported.change with
        | born creates =>
          have hafter : m'.session.streams.size = m.session.streams.size + 1 := creates.size
          rw [creates.new, Session.nextRef] at hr
          dsimp only at hr
          omega
      · cases hreported.change with
        | gone known => exact absurd known (Nat.not_lt.2 (Nat.le_trans hsize hr))
    refine ⟨fun mo hmo => ?_, fun l => ?_, fun l => ?_⟩
    · rcases List.mem_append.1 hmo with hmo | hmo
      · exact ih.absent mo hmo
      · rw [List.mem_singleton.1 hmo]
        exact fun hmem => absurd (((forward_of_turn turn).tidy tidy).known r hmem) (Nat.not_lt.2 hr)
    · rw [tellings_of_reported hreported rfl, ih.created, if_neg hnone.1]
    · rw [tellings_of_reported hreported rfl, ih.closed, if_neg hnone.2]

theorem creates_of_run (hnew : Session.new config primary = .ok s)
    (run : Run (.standard cap) { session := s } past m) (known : r.serial < m.session.streams.size) :
    ∃ pre mo post, past = pre ++ mo :: post ∧ mo.Creates r := by
  induction run with
  | start =>
    obtain ⟨-, rfl⟩ := Session.new_eq_ok hnew
    exact absurd known (Nat.not_lt_zero _)
  | @next past m m' e run h ih =>
    by_cases hold : r.serial < m.session.streams.size
    · obtain ⟨pre, mo, post, rfl, hcreates⟩ := ih hold
      exact ⟨pre, mo, post ++ [⟨m, e, m'⟩], by simp, hcreates⟩
    · obtain ⟨news, hreported⟩ := reported_of_next? h (tidy_of_run hnew run) (voiced_of_run hnew run)
      exact ⟨past, _, [], rfl, hreported.change.creates (Nat.le_of_not_lt hold) known⟩

section Since

variable {pre post : List Moment} {mo : Moment}

theorem known_since (run : Run (.standard cap) { session := s } (pre ++ mo :: post) m)
    (creates : mo.Creates r) :
    r.serial < m.session.streams.size ∧ m.session.idOf r = mo.after.session.idOf r := by
  refine run.since (P := fun _ m =>
    r.serial < m.session.streams.size ∧ m.session.idOf r = mo.after.session.idOf r) ?_ ?_
  · refine fun _ _ => ⟨?_, rfl⟩
    rw [creates.size, creates.new]
    exact Nat.lt_succ_self _
  · intro post m m' e run h ih
    have onward : m.session.Onward m'.session := later_of_turn (turn_of_next? h (placed_of_run run))
    exact ⟨Nat.lt_of_lt_of_le ih.1 onward.size, (onward.later r ih.1).id.trans ih.2⟩

/-- The listeners are told once that a stream came. -/
theorem created_since (hnew : Session.new config primary = .ok s)
    (run : Run (.standard cap) { session := s } (pre ++ mo :: post) m) (creates : mo.Creates r)
    (l : Listener) : tellings (pre ++ mo :: post) m l (.created r) =
      mo.before.session.streamListeners.count l := by
  refine run.since (P := fun post m => tellings (pre ++ mo :: post) m l (.created r) =
    mo.before.session.streamListeners.count l) ?_ ?_
  · intro hpre hnext
    obtain ⟨news, hreported⟩ := reported_of_next? hnext (tidy_of_run hnew hpre) (voiced_of_run hnew hpre)
    have hunborn := unborn_of_run hnew hpre (r := r) (by rw [creates.new]; exact Nat.le_refl _)
    have hnews : news = some (.created r) := hreported.change.news_of_creates creates
    rw [tellings_of_reported hreported rfl, hunborn.created, if_pos hnews, Nat.zero_add]
  · intro post m m' e run h ih
    obtain ⟨news, hreported⟩ := reported_of_next? h (tidy_of_run hnew run) (voiced_of_run hnew run)
    have hother : news ≠ some (.created r) := by
      rintro rfl
      cases hreported.change with
      | born creates' =>
        have hknown := (known_since run creates).1
        rw [creates'.new] at hknown
        exact Nat.lt_irrefl _ hknown
    rw [← List.cons_append, ← List.append_assoc, tellings_of_reported hreported rfl, ih, if_neg hother,
      Nat.add_zero]

end Since

end Run

/-! ## And goes -/

/-- What becomes of a stream after it came: it is still in the table, or it has left it for good; and how
often the listeners were told, or are still to be told, that it left. -/
inductive Fate (r : StreamRef) (past post : List Moment) (m : Machine) : Prop
  | stays (here : r ∈ m.session.table) (always : ∀ x ∈ post, r ∈ x.after.session.table)
      (closed : ∀ l, tellings past m l (.closed r) = 0)
  | leaves {mid late : List Moment} {mo : Moment} (split : post = mid ++ mo :: late)
      (still : ∀ x ∈ mid, r ∈ x.after.session.table) (removes : mo.Removes r)
      (never : ∀ x ∈ late, r ∉ x.after.session.table) (away : r ∉ m.session.table)
      (closed : ∀ l, tellings past m l (.closed r) = mo.before.session.streamListeners.count l)

section Fate

variable {cap : Nat} {config : Config} {primary : Option Listener} {s : Session}
  {past pre post : List Moment} {m m' : Machine} {e : Event} {mo : Moment} {r : StreamRef}
  {news : Option Notice}

theorem Fate.next (hf : Fate r past post m) (h : m.next? (.standard cap) e = some m')
    (placed : m.Placed) (tidy : m.session.Tidy) (hreported : Reported ⟨m, e, m'⟩ news)
    (known : r.serial < m.session.streams.size) (hsole : m.Sole (m.session.idOf r))
    (hfree : Moment.opens? ⟨m, e, m'⟩ = some (m.session.idOf r) → m.Free (m.session.idOf r)) :
    Fate r (past ++ [⟨m, e, m'⟩]) (post ++ [⟨m, e, m'⟩]) m' := by
  cases hf with
  | stays here always closed =>
    rcases stays_or_removed hreported.change tidy hsole hfree here with ⟨hr, hnews⟩ | ⟨hremoves, hnews⟩
    · refine .stays hr (fun x hx => ?_) fun l => ?_
      · rcases List.mem_append.1 hx with hx | hx
        · exact always x hx
        · rw [List.mem_singleton.1 hx]
          exact hr
      · rw [tellings_of_reported hreported rfl, closed, if_neg hnews]
    · refine .leaves rfl always hremoves (by simp) (fun hr => ((hremoves.table r).1 hr).2 rfl) fun l => ?_
      rw [tellings_of_reported hreported rfl, closed, if_pos hnews, Nat.zero_add]
  | leaves split still removes never away closed =>
    obtain ⟨hr, hnews⟩ := stays_away h placed hreported.change hsole known away
    refine .leaves (by rw [split, List.append_assoc, List.cons_append]) still removes (fun x hx => ?_) hr
      fun l => ?_
    · rcases List.mem_append.1 hx with hx | hx
      · exact never x hx
      · rw [List.mem_singleton.1 hx]
        exact hr
    · rw [tellings_of_reported hreported rfl, closed, if_neg hnews, Nat.add_zero]

theorem fate_since (hnew : Session.new config primary = .ok s)
    (run : Run (.standard cap) { session := s } (pre ++ mo :: post) m) (creates : mo.Creates r)
    (hfree : ∀ x ∈ pre ++ mo :: post, x.opens? = some (mo.after.session.idOf r) →
      x.before.Free (mo.after.session.idOf r)) : Fate r (pre ++ mo :: post) post m := by
  revert hfree
  refine run.since (P := fun post m => (∀ x ∈ pre ++ mo :: post,
    x.opens? = some (mo.after.session.idOf r) → x.before.Free (mo.after.session.idOf r)) →
      Fate r (pre ++ mo :: post) post m) ?_ ?_
  · intro hpre hnext _
    obtain ⟨news, hreported⟩ := reported_of_next? hnext (tidy_of_run hnew hpre) (voiced_of_run hnew hpre)
    have hunborn := unborn_of_run hnew hpre (r := r) (by rw [creates.new]; exact Nat.le_refl _)
    have hnews : news = some (.created r) := hreported.change.news_of_creates creates
    refine .stays ?_ (by simp) fun l => ?_
    · rw [creates.table]
      exact List.mem_append_right _ (List.mem_singleton_self _)
    · rw [tellings_of_reported hreported rfl, hunborn.closed, hnews, if_neg (by simp)]
  · intro post m m' e run h ih hfree
    have tidy := tidy_of_run hnew run
    obtain ⟨news, hreported⟩ := reported_of_next? h tidy (voiced_of_run hnew run)
    obtain ⟨known, hid⟩ := known_since run creates
    rw [← List.cons_append, ← List.append_assoc] at hfree ⊢
    have hpast : ∀ x ∈ pre ++ mo :: post, x.opens? = some (mo.after.session.idOf r) →
        x.before.Free (mo.after.session.idOf r) := fun x hx => hfree x (List.mem_append_left _ hx)
    refine (ih hpast).next h (placed_of_run run) tidy hreported known ?_ ?_ <;> rw [hid]
    · exact sole_of_run hnew run hpast
    · exact hfree _ (List.mem_append_right _ (List.mem_singleton_self _))

end Fate

/-- Every stream comes once, by a call or a frame that uses its id, and the listeners of that time are told
once. If ids are used for new streams only when they are free, it takes the place of no other stream, and
leaves the table at most once, closed or given up, and without any other one; when it does, the listeners of
that time are told once, and not before. -/
theorem stream_lives_once {cap : Nat} {config : Config} {primary : Option Listener} {s : Session}
    {past : List Moment} {m : Machine} {r : StreamRef} (hnew : Session.new config primary = .ok s)
    (run : Run (.standard cap) { session := s } past m) (known : r.serial < m.session.streams.size) :
    ∃ pre mo post, past = pre ++ mo :: post ∧ (∀ x ∈ pre, r ∉ x.after.session.table) ∧ mo.Creates r ∧
      (∀ l, tellings past m l (.created r) = mo.before.session.streamListeners.count l) ∧
      ((∀ x ∈ past, x.opens? = some (m.session.idOf r) → x.before.Free (m.session.idOf r)) →
        (∀ q ∈ mo.before.session.table, q ∈ mo.after.session.table) ∧ Fate r past post m) := by
  obtain ⟨pre, mo, post, rfl, creates⟩ := creates_of_run hnew run known
  obtain ⟨hpre, hnext⟩ := run.of_append
  have hunborn := unborn_of_run hnew hpre (r := r) (by rw [creates.new]; exact Nat.le_refl _)
  refine ⟨pre, mo, post, rfl, hunborn.absent, creates, created_since hnew run creates, fun hfree => ?_⟩
  rw [(known_since run creates).2] at hfree
  refine ⟨fun q hq => ?_, fate_since hnew run creates hfree⟩
  rw [creates.table, List.mem_append, List.mem_filter, bne_iff_ne]
  refine .inl ⟨hq, fun hid => ?_⟩
  have hknown := (tidy_of_run hnew hpre).known q hq
  have hthrough : mo.before.Through q :=
    hfree mo (List.mem_append_right _ List.mem_cons_self) creates.opens q.serial hknown hid
  exact hthrough.1 hq

/-- A stream that both sides closed leaves the table when its last frame was written. Then the peer opens
another one with its id. -/
theorem stream_lives_once_with_id_used_again : ∃ (s : Session) (past pre post : List Moment)
    (mo : Moment) (m : Machine), Session.new Config.client none = .ok s ∧
      Run (.standard 16384) { session := s } past m ∧ 0 < m.session.streams.size ∧
      m.session.idOf ⟨0⟩ = 2 ∧ past.filterMap Moment.opens? = [2, 2] ∧ m.session.table = [⟨1⟩] ∧
      (∀ x ∈ past, x.opens? = some (m.session.idOf ⟨0⟩) → x.before.Free (m.session.idOf ⟨0⟩)) ∧
      tellings past m ⟨"a"⟩ (.created ⟨0⟩) = 1 ∧ tellings past m ⟨"a"⟩ (.closed ⟨0⟩) = 1 ∧
      past = pre ++ mo :: post ∧ (∀ x ∈ pre, ⟨0⟩ ∉ x.after.session.table) ∧ mo.Creates ⟨0⟩ ∧
      (∀ l, tellings past m l (.created ⟨0⟩) = mo.before.session.streamListeners.count l) ∧
      (∀ q ∈ mo.before.session.table, q ∈ mo.after.session.table) ∧ Fate ⟨0⟩ past post m := by
  have hnew : Session.new Config.client none = .ok (.fresh Config.client none) := rfl
  have hrun := Machine.run_of_replay? (.standard 16384) { session := .fresh Config.client none }
    [.edit (.addStreamListener ⟨"a"⟩),
      .invoke (.receive (.control ⟨.v3, .synStream 1 2 0 0 default⟩)), .tick, .answer none, .tick, .tick,
      .tick, .tick, .leave,
      .invoke (.reply ⟨0⟩ ⟨default, true⟩), .tick, .answer none, .tick, .leave,
      .invoke (.complete 1), .tick, .tick, .answer none, .tick, .tick, .tick, .leave,
      .invoke (.receive (.control ⟨.v3, .synStream 0 2 0 0 default⟩)), .tick, .answer none, .tick, .tick,
      .tick, .tick, .leave] rfl
  obtain ⟨pre, mo, post, hpast, habsent, hcreates, hcreated, hfate⟩ :=
    stream_lives_once hnew hrun (r := ⟨0⟩) (by decide)
  exact ⟨_, _, pre, post, mo, _, hnew, hrun, by decide, by decide, by decide, by decide, by decide,
    by decide, by decide, hpast, habsent, hcreates, hcreated, hfate (by decide)⟩

/-- The peer gives a stream up while the frame that closes it is being written, and opens another one with
its id. Once that frame was written the other stream leaves the table, though it is neither closed nor given
up, and the listeners are told once more that the first one left. -/
theorem stream_taken_by_another : ∃ (s : Session) (past : List Moment) (mo : Moment) (m : Machine),
    Session.new Config.client none = .ok s ∧ Run (.standard 16384) { session := s } (past ++ [mo]) m ∧
      mo.before.session.table = [⟨1⟩] ∧ mo.after.session.table = [] ∧
      (m.session.stream ⟨1⟩).isClosed = false ∧ (m.session.stream ⟨1⟩).reset = false ∧
      tellings (past ++ [mo]) m ⟨"a"⟩ (.closed ⟨1⟩) = 0 ∧
      mo.before.session.streamListeners = [⟨"a"⟩] ∧
      tellings (past ++ [mo]) m ⟨"a"⟩ (.closed ⟨0⟩) = 2 := by
  have hnew : Session.new Config.client none = .ok (.fresh Config.client none) := rfl
  have hpast := Machine.run_of_replay? (.standard 16384) { session := .fresh Config.client none }
    [.edit (.addStreamListener ⟨"a"⟩),
      .invoke (.receive (.control ⟨.v3, .synStream 1 2 0 0 default⟩)), .tick, .answer none, .tick, .tick,
      .tick, .tick, .leave,
      .invoke (.reply ⟨0⟩ ⟨default, true⟩), .tick, .answer none, .tick, .leave,
      .invoke (.receive (.control ⟨.v3, .rstStream 2 1⟩)), .tick, .tick, .tick, .tick, .tick,
      .answer none, .tick, .leave,
      .invoke (.receive (.control ⟨.v3, .synStream 0 2 0 0 default⟩)), .tick, .answer none, .tick, .tick,
      .tick, .tick, .leave,
      .invoke (.complete 1)] rfl
  have hrun := hpast.next (e := .tick) rfl
  exact ⟨_, _, _, _, hnew, hrun, by decide, by decide, by decide, by decide, by decide, by decide,
    by decide⟩

end Spdy
