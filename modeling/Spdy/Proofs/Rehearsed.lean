import Spdy.Proofs.Course
import Spdy.Proofs.Rig
import Spdy.Rehearsal.Play

/-!
# What is rehearsed

A rehearsal lets happen to a session, and to its link if it has one, nothing but what may happen to them. So whatever
holds of all runs of a rig holds of a session that is rehearsed on a socket, and whatever holds of all courses holds of
one that is rehearsed without.

* `Rig.next?_present` : what may happen to a rig does not depend on what has happened to it;
* `World.Rests`, `World.Changes` : what an act leaves of the session and its link (`World.changes_of_perform`);
* `World.Plays` : all that a rehearsal may come to;
* `World.run_of_plays`, `World.course_of_plays` : it is a run of a rig, or a course.
-/

namespace Spdy

namespace Rig

variable (r : Rig) (cap : Nat)

@[simp] theorem link_present : r.present.link = r.link := rfl

@[simp] theorem chore_present : r.present.chore = r.chore := rfl

theorem happen?_present (e : Event) : (r.present.happen? cap e).map present = (r.happen? cap e).map present := by
  rw [happen?, happen?, Option.map_map, Option.map_map]
  rfl

theorem present_submit (c : Command) (l : Link) : (r.present.submit c l).present = (r.submit c l).present := by
  unfold submit
  rw [chore_present]
  split <;> rfl

/-- What may happen to a rig does not depend on what has happened to it. -/
theorem next?_present (a : Act) : (r.present.next? cap a).map present = (r.next? cap a).map present := by
  cases a with
  | happens e =>
    rw [next?, next?, apply_ite (Option.map present), apply_ite (Option.map present), happen?_present]
    rfl
  | deals c =>
    by_cases hc : c ∈ r.asked
    · rw [next?, next?, if_pos (show c ∈ r.present.asked from hc), if_pos hc]
      dsimp only [link_present]
      split
      · exact congrArg some (present_submit { r with asked := r.asked.erase c } c _)
      · cases c with
        | write bytes x => exact happen?_present { r with asked := r.asked.erase (.write bytes x) } cap _
        | close graceful => rfl
    · rw [next?, next?, if_neg (show c ∉ r.present.asked from hc), if_neg hc]
  | works =>
    rw [next?, next?, chore_present, link_present]
    split <;> rfl
  | wrote fault =>
    rw [next?, next?, chore_present]
    split
    · exact happen?_present { r with chore := .idle } cap _
    · rfl
  | shuts fault =>
    rw [next?, next?, chore_present]
    split <;> rfl
  | vanishes =>
    rw [next?, next?, apply_ite (Option.map present), apply_ite (Option.map present)]
    rfl
  | hangsUp fault =>
    rw [next?, next?, apply_ite (Option.map present), apply_ite (Option.map present)]
    rfl
  | obeys =>
    rw [next?, next?, apply_ite (Option.map present), apply_ite (Option.map present)]
    rfl
  | forgets h =>
    rw [next?, next?, apply_ite (Option.map present), apply_ite (Option.map present), happen?_present]
    rfl

end Rig

namespace Rehearsal.World

variable {w w' : World}

/-! ## Acts -/

/-- The session, its link and its encoder stay as they are. -/
structure Rests (w w' : World) : Prop where
  rig : w'.rig = w.rig
  linked : w'.linked = w.linked
  cap : w'.stage.cap = w.stage.cap

theorem rests_logNotes (w : World) (notes : List Note) : w.Rests (w.logNotes notes) := by
  unfold logNotes
  induction notes generalizing w with
  | nil => exact ⟨rfl, rfl, rfl⟩
  | cons n notes ih =>
    obtain ⟨rig, linked, cap⟩ := ih (w.log (.note n))
    exact ⟨rig, linked, cap⟩

theorem rests_doStep (w : World) (this : Option StreamRef) (s : Step) : w.Rests (w.doStep this s) := by
  cases s <;> simp only [doStep, ask, askStream, edit, recv, unwind] <;> (repeat' split) <;> exact ⟨rfl, rfl, rfl⟩

theorem rests_takeCall (w : World) (c : Call) : w.Rests (w.takeCall c) := by
  cases c <;> simp only [takeCall, takeCommand, takeWrite] <;> (repeat' split) <;> exact ⟨rfl, rfl, rfl⟩

theorem rests_run (w : World) : w.Rests w.run := by
  unfold run
  split
  · exact ⟨rfl, rfl, rfl⟩
  · next c _ _ =>
    obtain ⟨rig, linked, cap⟩ := (w.next [.run]).rests_takeCall c
    exact ⟨rig, linked, cap⟩
  · split <;> exact ⟨rfl, rfl, rfl⟩

/-- What becomes of the session and its link: nothing, or what may happen to them. -/
inductive Changes (w w' : World) : Prop
  | rests (h : w.Rests w')
  | moves {a : Rig.Act} {r : Rig} (linked : w.linked) (h : w.rig.next? w.stage.cap a = some r)
      (rests : { w with rig := r.present }.Rests w')
  | happens {e : Event} {m : Machine} (alone : w.linked = false) (h : w.machine.next? w.stage.encoder e = some m)
      (rests : { w with rig := { machine := m } }.Rests w')

theorem changes_of_move (w : World) (a : Rig.Act) : w.Changes (w.move a) := by
  unfold move
  split
  · next linked =>
    cases h : w.rig.next? w.stage.cap a with
    | none => exact .rests ⟨rfl, rfl, rfl⟩
    | some r => exact .moves linked h (rests_logNotes _ _)
  · exact .rests ⟨rfl, rfl, rfl⟩

theorem changes_of_happen (w : World) (e : Event) : w.Changes (w.happen e) := by
  unfold happen
  split
  · exact w.changes_of_move (.happens e)
  · next alone =>
    cases h : w.machine.next? w.stage.encoder e with
    | none => exact .rests ⟨rfl, rfl, rfl⟩
    | some m => exact .happens (Bool.eq_false_iff.2 alone) h (rests_logNotes _ _)

theorem changes_of_perform (w : World) (a : Act) : w.Changes (w.perform a) := by
  cases a with
  | event e => exact w.changes_of_happen e
  | link a => exact w.changes_of_move a
  | answer => exact w.changes_of_happen (.answer w.reply)
  | step s this => exact .rests (w.rests_doStep this s)
  | run => exact .rests w.rests_run
  | _ =>
    refine .rests ?_
    simp only [perform, feed, completeMore, readSocket, deliver, writeSocket, push, unwind]
    (repeat' split) <;> exact ⟨rfl, rfl, rfl⟩

/-! ## Rehearsals -/

/-- What a rehearsal may come to: steps are begun, acts are done, and what was written is taken. -/
inductive Plays (start : World) : World → Prop
  | start : Plays start start
  | begins {w : World} (plays : Plays start w) (s : Step) : Plays start (w.start s)
  | advances {w w' : World} (plays : Plays start w) (h : w.advance = some w') : Plays start w'
  | takes {w : World} (plays : Plays start w) : Plays start w.takeSent.2

/-- What holds at the beginning and stays so whatever an act changes holds of all that a rehearsal may come to. -/
theorem Plays.invariant {P : World → Prop} {start : World} (plays : Plays start w) (hstart : P start)
    (hchanges : ∀ w w' : World, w.Changes w' → P w → P w') : P w := by
  induction plays with
  | start => exact hstart
  | @begins w _ s ih => exact hchanges w _ (.rests ⟨rfl, rfl, rfl⟩) ih
  | @advances w w' _ h ih =>
    unfold advance at h
    split at h
    · cases h
    · next a acts _ =>
      obtain rfl := Option.some.inj h
      exact hchanges _ _ (changes_of_perform { w with acts } a) (hchanges w _ (.rests ⟨rfl, rfl, rfl⟩) ih)
  | @takes w _ ih => exact hchanges w _ (.rests ⟨rfl, rfl, rfl⟩) ih

variable {config : Config} {listener : Option Listener} {stage : Stage} {linked : Bool} {maxWrite : Option Nat}
  {start : World}

theorem new_eq_ok (h : new config listener stage linked maxWrite = .ok start) :
    ∃ s, Session.new config listener = .ok s ∧ start.rig = .new s ∧ start.linked = linked ∧ start.stage = stage := by
  unfold new at h
  cases hs : Session.new config listener with
  | error e =>
    rw [hs] at h
    cases h
  | ok s =>
    rw [hs] at h
    cases h
    exact ⟨s, rfl, rfl, rfl, rfl⟩

/-- What is rehearsed on a socket is a run of a rig. -/
theorem run_of_plays (hnew : new config listener stage true maxWrite = .ok start) (plays : Plays start w) :
    ∃ s r, Session.new config listener = .ok s ∧ Rig.Run stage.cap (.new s) r ∧ w.rig = r.present := by
  obtain ⟨s, hs, hrig, hlinked, hstage⟩ := new_eq_ok hnew
  suffices h : w.linked ∧ w.stage.cap = stage.cap ∧ ∃ r, Rig.Run stage.cap (.new s) r ∧ w.rig = r.present by
    obtain ⟨-, -, r, run, hr⟩ := h
    exact ⟨s, r, hs, run, hr⟩
  refine plays.invariant (P := fun w => w.linked ∧ w.stage.cap = stage.cap ∧
    ∃ r, Rig.Run stage.cap (.new s) r ∧ w.rig = r.present)
    ⟨hlinked, congrArg Stage.cap hstage, _, .start, hrig⟩ ?_
  rintro w w' changes ⟨hlinked, hcap, r, run, hr⟩
  cases changes with
  | rests rests => exact ⟨rests.linked.trans hlinked, rests.cap.trans hcap, r, run, rests.rig.trans hr⟩
  | @moves a q _ h rests =>
    rw [hr, hcap] at h
    have hpresent := r.next?_present stage.cap a
    rw [h, Option.map_some] at hpresent
    obtain ⟨r', hr', heq⟩ := Option.map_eq_some_iff.1 hpresent.symm
    exact ⟨rests.linked.trans hlinked, rests.cap.trans hcap, r', run.next hr', rests.rig.trans heq.symm⟩
  | happens alone => exact absurd hlinked (Bool.eq_false_iff.1 alone)

/-- What is rehearsed without a socket is a course, with encoders that a stage tells what to refuse. -/
theorem course_of_plays (hnew : new config listener stage false maxWrite = .ok start) (plays : Plays start w) :
    ∃ s past, Session.new config listener = .ok s ∧
      Course (fun enc => ∃ t : Stage, t.cap = stage.cap ∧ enc = t.encoder) { session := s } past w.machine := by
  obtain ⟨s, hs, hrig, hlinked, hstage⟩ := new_eq_ok hnew
  suffices h : w.linked = false ∧ w.stage.cap = stage.cap ∧ ∃ past,
      Course (fun enc => ∃ t : Stage, t.cap = stage.cap ∧ enc = t.encoder) { session := s } past w.machine by
    obtain ⟨-, -, past, course⟩ := h
    exact ⟨s, past, hs, course⟩
  refine plays.invariant (P := fun w => w.linked = false ∧ w.stage.cap = stage.cap ∧ ∃ past,
      Course (fun enc => ∃ t : Stage, t.cap = stage.cap ∧ enc = t.encoder) { session := s } past w.machine)
    ⟨hlinked, congrArg Stage.cap hstage, [], ?_⟩ ?_
  · rw [machine, hrig]
    exact .start
  · rintro w w' changes ⟨hlinked, hcap, past, course⟩
    cases changes with
    | rests rests => exact ⟨rests.linked.trans hlinked, rests.cap.trans hcap, past, by rwa [machine, rests.rig]⟩
    | moves linked => exact absurd linked (Bool.eq_false_iff.1 hlinked)
    | @happens e m _ h rests =>
      refine ⟨rests.linked.trans hlinked, rests.cap.trans hcap, past ++ [⟨w.machine, e, m⟩], ?_⟩
      have hmachine : w'.machine = m := congrArg Rig.machine rests.rig
      rw [hmachine]
      exact course.next ⟨_, hcap, rfl⟩ h

end Rehearsal.World

end Spdy
