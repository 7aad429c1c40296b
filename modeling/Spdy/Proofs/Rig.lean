import Spdy.Proofs.Turn
import Spdy.Rig

/-!
# Runs of a rig

* `Rig.Act.isProgress` : the controller or the writer goes on;
* `Rig.Run` : all that a rig may come to; `Rig.replay?` : a run from its acts (`Rig.Run.replay`);
* `Link.Next`, `Rig.Moves` : the cases (`Rig.moves_of_next?`).
-/

namespace Spdy

namespace Rig

/-- Whether the controller or the writer goes on with what it was asked for. -/
def Act.isProgress : Act → Bool
  | .deals _ | .works | .wrote _ | .shuts _ => true
  | _ => false

def Act.happensAll (events : List Event) : List Act := events.map .happens

theorem submit_of_closing {r : Rig} (h : r.chore = .closing) (c : Command) (l : Link) :
    r.submit c l = { r with link := l, late := r.late ++ [c] } := by
  simp [submit, h]

theorem submit_of_not_closing {r : Rig} (h : r.chore ≠ .closing) (c : Command) (l : Link) :
    r.submit c l = { r with link := l, submitted := r.submitted ++ [c] } := by
  unfold submit
  split
  · next hclosing => exact absurd hclosing h
  · rfl

def replay? (cap : Nat) (r : Rig) : List Act → Option Rig
  | [] => some r
  | a :: rest =>
    match r.next? cap a with
    | none => none
    | some r' => r'.replay? cap rest

/-- What a rig may come to. -/
inductive Run (cap : Nat) (start : Rig) : Rig → Prop
  | start : Run cap start start
  | next {r r' : Rig} {a : Act} (run : Run cap start r) (h : r.next? cap a = some r') : Run cap start r'

theorem Run.replay {cap : Nat} {start r last : Rig} (run : Run cap start r) :
    ∀ {acts : List Act}, r.replay? cap acts = some last → Run cap start last := by
  intro acts h
  induction acts generalizing r with
  | nil => exact Option.some.inj h ▸ run
  | cons a rest ih =>
    rw [replay?] at h
    split at h
    · cases h
    · next hnext => exact ih (run.next hnext) h

end Rig

/-! ## The cases -/

/-- The cases of `Link.nextJob`, with what each leaves of the link. -/
inductive Link.Next (l : Link) : Job → Link → Prop
  | wait (quiet : l.channel = [] ∨ ∃ fault, l.writer = .ended fault) : Next l .wait l
  | write {bytes : Bytes} {h : Handler} {rest : List Command} (writer : l.writer = .running ∨ l.writer = .draining)
      (channel : l.channel = .write bytes h :: rest) : Next l (.write bytes h) { l with channel := rest }
  | drain {rest : List Command} (writer : l.writer = .running) (channel : l.channel = .close true :: rest) :
      Next l .drain { l with channel := rest, writer := .draining }
  | skip {graceful : Bool} {rest : List Command} (writer : l.writer = .draining)
      (channel : l.channel = .close graceful :: rest) : Next l .skip { l with channel := rest }
  | cut {rest : List Command} (writer : l.writer = .running) (channel : l.channel = .close false :: rest) :
      Next l .shutdown { l with channel := rest }
  | drained (writer : l.writer = .draining) (channel : l.channel = []) : Next l .shutdown l

theorem Link.next_of_nextJob (l : Link) : l.Next l.nextJob.1 l.nextJob.2 := by
  unfold nextJob
  split
  · next channel => exact .wait (.inl channel)
  · next writer channel => exact .write (.inl writer) channel
  · next writer channel => exact .drain writer channel
  · next writer channel => exact .cut writer channel
  · next writer channel => exact .drained writer channel
  · next writer channel => exact .write (.inr writer) channel
  · next writer channel => exact .skip writer channel
  · next fault writer => exact .wait (.inr ⟨fault, writer⟩)

theorem Link.Next.of_eq {l l' : Link} {j : Job} (h : l.nextJob = (j, l')) : l.Next j l' := by
  have := l.next_of_nextJob
  rwa [h] at this

namespace Rig

/-- The cases of `Rig.next?`. -/
inductive Moves (cap : Nat) (r : Rig) : Act → Rig → Prop
  | happens {e : Event} {m : Machine} (free : e.isControllers r.machine = false)
      (h : r.machine.next? (.standard cap) e = some m) : Moves cap r (.happens e) (r.log e m)
  | submits {c : Command} {l : Link} (mem : c ∈ r.asked) (h : r.link.submit? c = some l) :
      Moves cap r (.deals c) ({ r with asked := r.asked.erase c }.submit c l)
  | refuses {bytes : Bytes} {x : Handler} {m : Machine} (mem : .write bytes x ∈ r.asked)
      (h : r.machine.next? (.standard cap) (.invoke (report x (some (.brokenPipe "writer task stopped")))) = some m) :
      Moves cap r (.deals (.write bytes x))
        ({ r with asked := r.asked.erase (.write bytes x) }.log
          (.invoke (report x (some (.brokenPipe "writer task stopped")))) m)
  | ignores {graceful : Bool} (mem : .close graceful ∈ r.asked) :
      Moves cap r (.deals (.close graceful)) { r with asked := r.asked.erase (.close graceful) }
  | takes {bytes : Bytes} {x : Handler} {l : Link} (idle : r.chore = .idle) (job : r.link.Next (.write bytes x) l) :
      Moves cap r .works { r with link := l, chore := .writing x }
  | goesOn {j : Job} {l : Link} (idle : r.chore = .idle) (job : r.link.Next j l) (close : j = .drain ∨ j = .skip) :
      Moves cap r .works { r with link := l }
  | closes {l : Link} (idle : r.chore = .idle) (job : r.link.Next .shutdown l) :
      Moves cap r .works { r with link := l, chore := .closing }
  | wrote {x : Handler} {fault : Option SocketFault} {m : Machine} (chore : r.chore = .writing x)
      (h : r.machine.next? (.standard cap) (.invoke (report x fault)) = some m) :
      Moves cap r (.wrote fault) ({ r with chore := .idle }.log (.invoke (report x fault)) m)
  | shuts (fault : Option SocketFault) (chore : r.chore = .closing) :
      Moves cap r (.shuts fault)
        { r with link := r.link.stopWriter fault, chore := .idle, lost := r.lost ++ r.link.handlers }
  | vanishes (asked : r.asked = []) (chore : r.chore = .idle) (writer : r.link.writer = .running)
      (channel : r.link.channel = []) : Moves cap r .vanishes { r with link := r.link.stopWriter none }
  | hangsUp (fault : Option SocketFault) :
      Moves cap r (.hangsUp fault)
        { r with link := r.link.stopReader fault, asked := r.asked ++ [.close fault.isNone] }
  | obeys : Moves cap r .obeys { r with link := r.link.stopReader none }
  | forgets {x : Handler} {m : Machine} (mem : x ∈ r.lost)
      (h : r.machine.next? (.standard cap) (.drop x.seq) = some m) : Moves cap r (.forgets x) (r.log (.drop x.seq) m)

theorem moves_of_next? {cap : Nat} {r r' : Rig} {a : Act} (h : r.next? cap a = some r') : Moves cap r a r' := by
  cases a with
  | happens e =>
    rw [next?] at h
    split at h
    · cases h
    · next free =>
      obtain ⟨m, hm, rfl⟩ := Option.map_eq_some_iff.1 h
      exact .happens (Bool.eq_false_iff.2 free) hm
  | deals c =>
    simp only [next?] at h
    split at h
    · next mem =>
      split at h
      · next l hl =>
        obtain rfl := Option.some.inj h
        exact .submits mem hl
      · cases c with
        | write bytes x =>
          obtain ⟨m, hm, rfl⟩ := Option.map_eq_some_iff.1 h
          exact .refuses mem hm
        | close graceful =>
          obtain rfl := Option.some.inj h
          exact .ignores mem
    · cases h
  | works =>
    rw [next?] at h
    split at h
    · next idle job =>
      obtain rfl := Option.some.inj h
      exact .takes idle (.of_eq job)
    · next idle job =>
      obtain rfl := Option.some.inj h
      exact .goesOn idle (.of_eq job) (.inl rfl)
    · next idle job =>
      obtain rfl := Option.some.inj h
      exact .goesOn idle (.of_eq job) (.inr rfl)
    · next idle job =>
      obtain rfl := Option.some.inj h
      exact .closes idle (.of_eq job)
    · cases h
  | wrote fault =>
    rw [next?] at h
    split at h
    · next x chore =>
      obtain ⟨m, hm, rfl⟩ := Option.map_eq_some_iff.1 h
      exact .wrote chore hm
    · cases h
  | shuts fault =>
    rw [next?] at h
    split at h
    · next chore =>
      obtain rfl := Option.some.inj h
      exact .shuts fault chore
    · cases h
  | vanishes =>
    rw [next?] at h
    split at h
    · next quiet =>
      obtain rfl := Option.some.inj h
      obtain ⟨-, -, asked, chore, writer, channel⟩ := quiet
      exact .vanishes asked chore writer channel
    · cases h
  | hangsUp fault =>
    rw [next?] at h
    split at h
    · obtain rfl := Option.some.inj h
      exact .hangsUp fault
    · cases h
  | obeys =>
    rw [next?] at h
    split at h
    · obtain rfl := Option.some.inj h
      exact .obeys
    · cases h
  | forgets x =>
    rw [next?] at h
    split at h
    · next mem =>
      obtain ⟨m, hm, rfl⟩ := Option.map_eq_some_iff.1 h
      exact .forgets mem hm
    · cases h

end Rig

end Spdy
