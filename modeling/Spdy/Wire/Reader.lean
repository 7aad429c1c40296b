import Spdy.Wire.Buffer
import Spdy.Wire.Received

/-!
# The reader

A reader takes bytes in pieces of any size and tells what the complete frames amount to. After a
session exception it takes no more bytes.

* `Reader.push` : takes a piece;
* `Reader.next?` : passes over the first complete frame;
* `Reader.drain`, `Reader.feed` : all complete frames.
-/

namespace Spdy

/-- The state between two pieces: the bytes after the last complete frame, and whether the reader has failed. -/
structure Reader where
  buffer : Buffer
  failed : Bool
deriving Inhabited

namespace Reader

/-- A reader that has read nothing. -/
def new : Reader := ⟨.empty, false⟩

def push (r : Reader) (piece : Bytes) : Reader :=
  if r.failed then r else { r with buffer := r.buffer.append piece }

/-- The state after a frame, given what it amounts to and the bytes that follow it. -/
def after (got : Option Received) (rest : Buffer) : Reader :=
  if got.any Received.isFatal then ⟨.empty, true⟩ else ⟨rest, false⟩

theorem size_after_le (got : Option Received) (rest : Buffer) :
    (after got rest).buffer.size ≤ rest.size := by
  unfold after
  split
  · exact Nat.zero_le _
  · exact Nat.le_refl _

def pass (got : Option Received) (rest : Buffer) : Option Received × Reader :=
  (got, after got rest)

/-- Passes over the first complete frame and tells what it amounts to, if to anything. -/
def next? (r : Reader) : Option (Option Received × Reader) :=
  if r.failed then none
  else
    r.buffer.frame?.map fun (header, payload, rest) =>
      pass (Received.ofFrame? header payload) rest

theorem size_next?_lt {r s : Reader} {got : Option Received} (h : r.next? = some (got, s)) :
    s.buffer.size < r.buffer.size := by
  unfold next? at h
  split at h
  · cases h
  · obtain ⟨⟨header, payload, rest⟩, hf, he⟩ := Option.map_eq_some_iff.1 h
    cases he
    exact Nat.lt_of_le_of_lt (size_after_le _ _) (Buffer.size_frame?_lt hf)

/-- Passes over all complete frames; what they amount to follows what was read before. -/
def drain (r : Reader) (before : Array Received) : Array Received × Reader :=
  match _h : r.next? with
  | none => (before, r)
  | some (got, s) => drain s (got.elim before before.push)
termination_by r.buffer.size
decreasing_by exact size_next?_lt ‹_›

/-- Takes a piece and passes over all complete frames. -/
def feed (r : Reader) (piece : Bytes) : Array Received × Reader := (r.push piece).drain #[]

end Reader

end Spdy
