import Spdy.Error

/-!
# Decoders of byte strings

* `Decoder` : reads a value from the front of a byte string, or finds a fault;
* `Decoder.takeOr`, `Decoder.take` : the next bytes (`run_takeOr`);
* `Bytes.word`, `Bytes.octet` : the fields of a string of fixed length.
-/

namespace Spdy

def Bytes.word (bs : Bytes) : UInt32 := UInt32.ofNat bs.toNat

def Bytes.octet (bs : Bytes) (i : Nat) : UInt8 := bs.getD i 0

/-- Reads a value from the front of a byte string and leaves the rest. -/
abbrev Decoder := StateT Bytes (Except Fault)

namespace Decoder

/-- The next `n` bytes; the fault is told how many there are if they are too few. -/
def takeOr (n : Nat) (fault : Nat → Fault) : Decoder Bytes := fun bs =>
  let b := bs.take n
  if b.length < n then .error (fault bs.length) else .ok (b, bs.drop n)

def take (n : Nat) : Decoder Bytes := takeOr n (.tooShort n)

def word : Decoder UInt32 := Bytes.word <$> take 4

theorem run_takeOr (n : Nat) (fault : Nat → Fault) (bs : Bytes) :
    takeOr n fault bs =
      if bs.length < n then .error (fault bs.length) else .ok (bs.take n, bs.drop n) := by
  simp only [takeOr, List.length_take]
  split <;> split <;> first | rfl | omega

end Decoder

end Spdy
