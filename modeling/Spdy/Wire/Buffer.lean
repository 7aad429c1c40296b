import Spdy.Frame

/-!
# Buffers of received bytes

A buffer is a queue of bytes that grows at the back piece by piece and shrinks at the front frame
by frame.

* `Buffer.toList` : the bytes, oldest first (`toList_append`);
* `Buffer.frame?` : the first frame, once it is complete (`frame?_eq_some`).
-/

namespace Spdy

/-- A queue of bytes, with the oldest bytes in front (oldest first) and the newest at the back (newest first). Its size
is known without counting, and its front is long enough to show the header of the first frame. -/
structure Buffer where
  front : Bytes
  back : Bytes
  size : Nat
  size_eq : size = front.length + back.length
  front_long : back = [] ∨ headerLength ≤ front.length

namespace Buffer

def toList (b : Buffer) : Bytes := b.front ++ b.back.reverse

def empty : Buffer := ⟨[], [], 0, rfl, .inl rfl⟩

instance : Inhabited Buffer := ⟨empty⟩

theorem length_toList (b : Buffer) : b.toList.length = b.size := by
  simp [toList, b.size_eq]

/-- The bytes of a front and a back, with all moved to the front if it is short. -/
def ofParts (front back : Bytes) (size : Nat) (h : size = front.length + back.length) : Buffer :=
  if short : (front.take headerLength).length < headerLength then
    ⟨front ++ back.reverse, [], size, by simp [h], .inl rfl⟩
  else
    ⟨front, back, size, h, .inr (by
      rw [List.length_take] at short
      omega)⟩

@[simp] theorem toList_ofParts (front back : Bytes) (size : Nat)
    (h : size = front.length + back.length) :
    (ofParts front back size h).toList = front ++ back.reverse := by
  unfold ofParts
  split <;> simp [toList]

def append (b : Buffer) (piece : Bytes) : Buffer :=
  ofParts b.front (List.reverseAux piece b.back) (b.size + piece.length)
    (by simp [b.size_eq, List.reverseAux_eq, Nat.add_comm, Nat.add_left_comm])

@[simp] theorem toList_append (b : Buffer) (piece : Bytes) :
    (b.append piece).toList = b.toList ++ piece := by
  rw [append, toList_ofParts, List.reverseAux_eq, List.reverse_append, List.reverse_reverse,
    ← List.append_assoc]
  rfl

def split (b : Buffer) (n : Nat) (h : n ≤ b.size) : Bytes × Buffer :=
  if short : (b.front.take n).length < n then
    let all := b.toList
    (all.take n, ofParts (all.drop n) [] (b.size - n) (by simp [all, length_toList]))
  else
    (b.front.take n, ofParts (b.front.drop n) b.back (b.size - n) (by
      have := b.size_eq
      simp at short
      simp
      omega))

theorem split_eq (b : Buffer) (n : Nat) (h : n ≤ b.size) :
    (b.split n h).1 = b.toList.take n ∧ (b.split n h).2.toList = b.toList.drop n := by
  unfold split
  split
  · simp
  · next short =>
    simp only [List.length_take, Nat.not_lt, Nat.le_min, Nat.le_refl, true_and] at short
    rw [toList_ofParts, toList, List.take_append_of_le_length short,
      List.drop_append_of_le_length short]
    exact ⟨rfl, rfl⟩

/-- The length of the first frame, as its header tells it. -/
def frameLength (b : Buffer) : Nat :=
  headerLength + Bytes.toNat ((b.front.take headerLength).drop 5)

/-- The header and the payload of the first frame if it is complete, and the bytes after it. -/
def frame? (b : Buffer) : Option (Bytes × Bytes × Buffer) :=
  if b.size < headerLength then none
  else if h : b.frameLength ≤ b.size then
    some (b.front.take headerLength, (b.split b.frameLength h).1.drop headerLength,
      (b.split b.frameLength h).2)
  else none

theorem front_take (b : Buffer) : b.front.take headerLength = b.toList.take headerLength := by
  rcases b.front_long with hb | hf
  · simp [toList, hb]
  · rw [toList, List.take_append_of_le_length hf]

theorem frame?_eq_some {b c : Buffer} {header payload : Bytes}
    (h : b.frame? = some (header, payload, c)) :
    b.toList = header ++ payload ++ c.toList ∧ header.length = headerLength ∧
      payload.length = Bytes.toNat (header.drop 5) := by
  unfold frame? at h
  split at h
  · cases h
  next hs =>
  split at h
  next ht =>
    have hl := b.length_toList
    obtain ⟨h1, h2⟩ := b.split_eq _ ht
    have hf : b.frameLength = headerLength + Bytes.toNat ((b.toList.take headerLength).drop 5) := by
      rw [frameLength, front_take]
    cases h
    rw [h1, h2, front_take]
    refine ⟨?_, ?_, ?_⟩
    · have : b.toList.take headerLength = (b.toList.take b.frameLength).take headerLength := by
        rw [List.take_take, Nat.min_eq_left (by omega)]
      rw [this, List.take_append_drop, List.take_append_drop]
    · rw [List.length_take]
      omega
    · rw [List.length_drop, List.length_take]
      omega
  · cases h

/-- No frame is complete as long as the bytes are fewer than the first header says. -/
theorem frame?_eq_none_iff (b : Buffer) :
    b.frame? = none ↔ b.toList.length < headerLength ∨
      b.toList.length < headerLength + Bytes.toNat ((b.toList.take headerLength).drop 5) := by
  have hf : b.frameLength = headerLength + Bytes.toNat ((b.toList.take headerLength).drop 5) := by
    rw [frameLength, front_take]
  rw [length_toList, ← hf]
  unfold frame?
  split
  · next h => simp [h]
  next h =>
  split
  · next ht => simp; omega
  · next ht => simp; omega

theorem size_frame?_lt {b c : Buffer} {header payload : Bytes}
    (h : b.frame? = some (header, payload, c)) : c.size < b.size := by
  obtain ⟨h1, h2, -⟩ := frame?_eq_some h
  have := congrArg List.length h1
  rw [List.length_append, List.length_append, length_toList, length_toList] at this
  have : 0 < headerLength := by decide
  omega

end Buffer

end Spdy
