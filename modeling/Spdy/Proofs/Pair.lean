import Mathlib.Logic.Function.Basic
import Spdy.Proofs.Cover
import Spdy.Proofs.Pieces

/-!
# Two sessions wired back to back

A client and a server: what one side hands to its controller arrives at the reader of the other side, in order and cut
anywhere, and what a reader has read its session receives, one frame after another. In between both sides go on in any
order.

* `Side`, `Station`, `Pair` : two sides, and what there is on each;
* `Act`, `Pair.next?` : a thing that may happen to one side, bytes that arrive, a frame that a session receives;
* `Pair.Run` : all that a pair may come to; `Pair.replay?` : a run from its acts (`Pair.run_of_replay?`);
* `Pair.Moves` : the cases (`Pair.moves_of_next?`);
* `taken`, `ReadsInTurn` : the frames that a session received, one after another;
* `Pair.Run.session` : each side of a run is a run of its session.
-/

namespace Spdy

/-! ## Frames that a session receives -/

/-- The reader hands a frame to the session. -/
def Operation.isReceive : Operation → Bool
  | .receive _ => true
  | _ => false

def Moment.taken? (mo : Moment) : Option Received :=
  match mo.op? with
  | some (.receive got) => some got
  | _ => none

def taken (past : List Moment) : List Received := past.filterMap Moment.taken?

/-- A session receives nothing while it deals with something that it received: a reader reads one frame after
another. -/
def ReadsInTurn (past : List Moment) : Prop :=
  ∀ i, ∀ h : i < past.length, past[i].op?.any Operation.isReceive →
    (inProgress (past.take i)).any Operation.isReceive = false

theorem Operation.isReceive_of_isSettings {op : Operation} (h : op.isSettings) : op.isReceive := by
  unfold isSettings at h
  split at h
  · rfl
  · cases h

theorem ReadsInTurn.settings {past : List Moment} (h : ReadsInTurn past) : SettingsInTurn past := by
  intro i hi hop
  obtain ⟨op, hmem, hsettings⟩ := (Option.any_eq_true _ _).1 hop
  have hfree := h i hi ((Option.any_eq_true _ _).2 ⟨op, hmem, Operation.isReceive_of_isSettings hsettings⟩)
  rw [List.any_eq_false] at hfree ⊢
  exact fun x hx hs => hfree x hx (Operation.isReceive_of_isSettings hs)

theorem readsInTurn_append {past : List Moment} {mo : Moment} :
    ReadsInTurn (past ++ [mo]) ↔ ReadsInTurn past ∧
      (mo.op?.any Operation.isReceive → (inProgress past).any Operation.isReceive = false) :=
  inTurn_append Operation.isReceive past mo

theorem taken_append (past : List Moment) (mo : Moment) :
    taken (past ++ [mo]) = taken past ++ mo.taken?.toList := by
  rw [taken, List.filterMap_append, ← taken, List.filterMap_cons, List.filterMap_nil]
  cases mo.taken? <;> rfl

/-! ## Bytes that a session writes -/

/-- The bytes that are handed to the controller. -/
def Moment.written (mo : Moment) : Bytes :=
  match mo.handed? with
  | some (bytes, _) => bytes
  | none => []

/-- All bytes that were handed to the controller. -/
def written (past : List Moment) : Bytes := past.flatMap Moment.written

theorem written_append (past : List Moment) (mo : Moment) :
    written (past ++ [mo]) = written past ++ mo.written := by
  simp [written]

/-! ## Two sides -/

inductive Side
  | client
  | server
deriving DecidableEq, Inhabited

namespace Side

def other : Side → Side
  | client => server
  | server => client

/-- The id of the first stream that a side opens. -/
def firstId : Side → UInt32
  | client => 1
  | server => 2

/-- How a side is configured unless it is told otherwise. -/
def config : Side → Config
  | client => .client
  | server => .server

@[simp] theorem other_other (x : Side) : x.other.other = x := by
  cases x <;> rfl

theorem other_ne (x : Side) : x.other ≠ x := by
  cases x <;> decide

theorem eq_other_of_ne {x y : Side} (h : y ≠ x) : y = x.other := by
  cases x <;> cases y <;> first | rfl | exact absurd rfl h

theorem forall_iff {P : Side → Prop} : (∀ x, P x) ↔ P client ∧ P server :=
  ⟨fun h => ⟨h client, h server⟩, fun h x => by cases x; exacts [h.1, h.2]⟩

instance {P : Side → Prop} [DecidablePred P] : Decidable (∀ x, P x) := decidable_of_iff _ forall_iff.symm

end Side

theorem Session.new_config (x : Side) (primary : Option Listener) :
    Session.new x.config primary = .ok (.fresh x.config primary) := by
  cases x <;> rfl

/-- One side of a connection: its session with what has happened to it, the bytes that it handed over and that have not
arrived, and on the way in the reader and what it has read for the session. -/
structure Station where
  machine : Machine
  past : List Moment := []
  wire : Bytes := []
  reader : Reader := .new
  inbox : List Received := []
deriving Inhabited

namespace Station

/-- Something has happened to the session. What it hands to its controller is on its way. -/
def log (st : Station) (e : Event) (m : Machine) : Station :=
  { st with
    machine := m
    past := st.past ++ [⟨st.machine, e, m⟩]
    wire := st.wire ++ Moment.written ⟨st.machine, e, m⟩ }

def hear (st : Station) (piece : Bytes) : Station :=
  { st with
    reader := (st.reader.feed piece).2
    inbox := st.inbox ++ (st.reader.feed piece).1.toList }

/-- The reader may hand a frame to the session: the one before was dealt with. -/
def isFree (st : Station) : Bool := !(inProgress st.past).any Operation.isReceive

end Station

abbrev Pair := Side → Station

/-- A thing that may happen to a pair. Anything `happens` to the session of a side but that it receives a frame, some of
the bytes of a side arrive at the other, or the session of a side `reads` the next frame from its reader. -/
inductive Act
  | happens (x : Side) (e : Event)
  | arrives (x : Side) (n : Nat)
  | reads (x : Side)
deriving DecidableEq, Inhabited

def Act.happensAll (x : Side) (events : List Event) : List Act := events.map (.happens x)

def Event.isReceive : Event → Bool
  | .invoke op => op.isReceive
  | _ => false

theorem Event.eq_of_isReceive {e : Event} (h : e.isReceive) : ∃ got, e = .invoke (.receive got) := by
  cases e with
  | invoke op =>
    cases op with
    | receive got => exact ⟨got, rfl⟩
    | _ => cases h
  | _ => cases h

namespace Pair

def new (s : Side → Session) : Pair := fun x => { machine := { session := s x } }

/-- What becomes of a pair, unless the act cannot happen to it. The encoders have caps on data frames. -/
def next? (cap : Side → Nat) (p : Pair) : Act → Option Pair
  | .happens x e =>
    if e.isReceive then none
    else ((p x).machine.next? (.standard (cap x)) e).map fun m => Function.update p x ((p x).log e m)
  | .arrives x n =>
    some (Function.update (Function.update p x { p x with wire := (p x).wire.drop n }) x.other
      ((p x.other).hear ((p x).wire.take n)))
  | .reads x =>
    match (p x).inbox with
    | [] => none
    | got :: rest =>
      if (p x).isFree then
        ((p x).machine.next? (.standard (cap x)) (.invoke (.receive got))).map fun m =>
          Function.update p x ({ p x with inbox := rest }.log (.invoke (.receive got)) m)
      else none

def replay? (cap : Side → Nat) (p : Pair) : List Act → Option Pair
  | [] => some p
  | a :: rest =>
    match p.next? cap a with
    | none => none
    | some p' => p'.replay? cap rest

/-- What a pair may come to. -/
inductive Run (cap : Side → Nat) (start : Pair) : Pair → Prop
  | start : Run cap start start
  | next {p p' : Pair} {a : Act} (run : Run cap start p) (h : p.next? cap a = some p') : Run cap start p'

theorem Run.replay {cap : Side → Nat} {start p last : Pair} (run : Run cap start p) :
    ∀ {acts : List Act}, p.replay? cap acts = some last → Run cap start last := by
  intro acts h
  induction acts generalizing p with
  | nil => exact Option.some.inj h ▸ run
  | cons a rest ih =>
    rw [replay?] at h
    split at h
    · cases h
    · next hnext => exact ih (run.next hnext) h

theorem run_of_replay? {cap : Side → Nat} {start : Pair} {acts : List Act} (h : (start.replay? cap acts).isSome) :
    Run cap start ((start.replay? cap acts).get h) :=
  Run.start.replay (Option.some_get h).symm

inductive Moves (cap : Side → Nat) (p : Pair) : Act → Pair → Prop
  | happens {x : Side} {e : Event} {m : Machine} (other : e.isReceive = false)
      (h : (p x).machine.next? (.standard (cap x)) e = some m) :
      Moves cap p (.happens x e) (Function.update p x ((p x).log e m))
  | arrives (x : Side) (n : Nat) :
      Moves cap p (.arrives x n)
        (Function.update (Function.update p x { p x with wire := (p x).wire.drop n }) x.other
          ((p x.other).hear ((p x).wire.take n)))
  | reads {x : Side} {got : Received} {rest : List Received} {m : Machine}
      (inbox : (p x).inbox = got :: rest) (free : (p x).isFree)
      (h : (p x).machine.next? (.standard (cap x)) (.invoke (.receive got)) = some m) :
      Moves cap p (.reads x) (Function.update p x ({ p x with inbox := rest }.log (.invoke (.receive got)) m))

theorem moves_of_next? {cap : Side → Nat} {p p' : Pair} {a : Act} (h : p.next? cap a = some p') :
    Moves cap p a p' := by
  cases a with
  | happens x e =>
    rw [next?] at h
    split at h
    · cases h
    · next hother =>
      obtain ⟨m, hm, rfl⟩ := Option.map_eq_some_iff.1 h
      exact .happens (Bool.eq_false_iff.2 hother) hm
  | arrives x n =>
    cases h
    exact .arrives x n
  | reads x =>
    rw [next?] at h
    split at h
    · cases h
    · next got rest hinbox =>
      split at h
      · next hfree =>
        obtain ⟨m, hm, rfl⟩ := Option.map_eq_some_iff.1 h
        exact .reads hinbox hfree hm
      · cases h

/-! ## One side of a run -/

/-- What a moment of a pair means for one of its sides: nothing happens to its session, or one thing does. -/
inductive Aside (cap : Nat) (st st' : Station) : Prop
  | still (machine : st'.machine = st.machine) (past : st'.past = st.past)
  | moved {e : Event} (h : st.machine.next? (.standard cap) e = some st'.machine)
      (past : st'.past = st.past ++ [⟨st.machine, e, st'.machine⟩])
      (free : e.isReceive → st.isFree)
      (first : ∀ got, e = .invoke (.receive got) → ∃ rest, st.inbox = got :: rest)

theorem Moves.aside {cap : Side → Nat} {p p' : Pair} {a : Act} (h : Moves cap p a p') (x : Side) :
    Aside (cap x) (p x) (p' x) := by
  have of_ne : ∀ {z : Side} {st : Station}, x ≠ z → Aside (cap x) (p x) (Function.update p z st x) := by
    intro z st hne
    rw [Function.update_of_ne hne]
    exact .still rfl rfl
  cases h with
  | @happens z e m hother hm =>
    by_cases hx : x = z
    · subst hx
      rw [Function.update_self]
      refine .moved hm rfl (fun he => absurd he (Bool.eq_false_iff.1 hother)) fun got he => ?_
      subst he
      cases hother
    · exact of_ne hx
  | arrives z n =>
    by_cases hx : x = z.other
    · subst hx
      rw [Function.update_self]
      exact .still rfl rfl
    · have hz : x = z := by
        rw [Side.eq_other_of_ne hx, Side.other_other]
      subst hz
      rw [Function.update_of_ne hx, Function.update_self]
      exact .still rfl rfl
  | @reads z got rest m hinbox hfree hm =>
    by_cases hx : x = z
    · subst hx
      rw [Function.update_self]
      refine .moved hm rfl (fun _ => hfree) fun got' he => ⟨rest, ?_⟩
      rw [hinbox]
      cases he
      rfl
    · exact of_ne hx

theorem Run.session {cap : Side → Nat} {s : Side → Session} {p : Pair} (run : Run cap (new s) p) (x : Side) :
    Spdy.Run (.standard (cap x)) { session := s x } (p x).past (p x).machine := by
  induction run with
  | start => exact .start
  | next run h ih =>
    cases (moves_of_next? h).aside x with
    | still machine past =>
      rw [machine, past]
      exact ih
    | moved hm past =>
      rw [past]
      exact ih.next hm

theorem Run.readsInTurn {cap : Side → Nat} {s : Side → Session} {p : Pair} (run : Run cap (new s) p) (x : Side) :
    ReadsInTurn (p x).past := by
  induction run with
  | start => exact fun i hi => (nomatch hi)
  | @next p p' a run h ih =>
    cases (moves_of_next? h).aside x with
    | still machine past =>
      rw [past]
      exact ih
    | @moved e hm past hfree =>
      rw [past]
      refine readsInTurn_append.2 ⟨ih, fun hop => ?_⟩
      have he : e.isReceive := by
        cases e with
        | invoke op => simpa [Moment.op?, Event.isReceive] using hop
        | _ => simp [Moment.op?] at hop
      have := hfree he
      rwa [Station.isFree, Bool.not_eq_true'] at this

end Pair

end Spdy
