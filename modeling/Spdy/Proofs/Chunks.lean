import Spdy.Proofs.Room

/-!
# Data in chunks

A payload is sent by successive calls, each within a window of its own, negative ones among them. A call that fails
takes nothing, and any other one takes as much as its window, the cap and the payload allow.

* `DataFrame.wire` : a data frame, field by field;
* `Emission`, `Encoder.emit`, `Encoder.emissions` : one call and successive calls;
* `Emission.Sends`, `Emission.Faithful` : what one call may do (`Encoder.emit_faithful`);
* `Emission.AllFaithful` : what successive calls may do, whatever their windows (`Encoder.emissions_faithful`).
-/

namespace Spdy

/-! ## Data frames -/

namespace DataFrame

/-- A data frame that is not too long, field by field. -/
def wire (f : DataFrame) (h : f.payload.length ≤ maxFrameLength) : WireFrame where
  lead := layoutId f.streamId
  flags := f.flags
  length := Bytes.ofNat 3 f.payload.length
  payload := f.payload
  length_lead := length_layoutId f.streamId
  length_length := Bytes.length_ofNat 3 _
  length_payload := (toNat_ofNat_length h).symm

theorem bytes_wire (f : DataFrame) (h : f.payload.length ≤ maxFrameLength) : (f.wire h).bytes = f.encode := rfl

end DataFrame

theorem toNat_layoutId (id : UInt32) : (layoutId id).toNat = id.toNat % 2 ^ 31 := by
  rw [layoutId, toNat_ofNat_of_lt (low31 id).toNat_lt, toNat_low31]

/-! ## Calls -/

/-- A call for the next data frame of a payload within a window: the payload, the answer, and what is left. -/
structure Emission where
  window : Int
  before : Payload
  answer : Except Refusal Bytes
  after : Payload

namespace Emission

def payload (e : Emission) : Bytes :=
  match e.answer with
  | .ok bs => bs.drop headerLength
  | .error _ => []

def left : Payload → List Emission → Payload
  | p, [] => p
  | _, e :: es => left e.after es

/-- A call sends a frame: a data frame of the stream, with as much of the payload as the window and the cap allow,
which is marked as the last one exactly if the payload ends the stream and nothing of it is left. -/
structure Sends (cap : Nat) (id : UInt32) (e : Emission) (w : WireFrame) : Prop where
  answer : e.answer = .ok w.bytes
  bytes : w.bytes.length = 8 + w.payload.length
  length : w.length.toNat = w.payload.length
  lead : w.lead.toNat = id.toNat % 2 ^ 31
  chunk : (w.payload.length : Int) = min (min e.window cap) e.before.bytes.length
  split : e.before.bytes = w.payload ++ e.after.bytes
  close : e.after.close = e.before.close
  fin : Flag.has w.flags Flag.fin ↔ e.before.close ∧ e.after.bytes = []
  flags : w.flags = 0 ∨ w.flags = Flag.fin

/-- A call takes nothing if its window is negative, and sends a frame otherwise. -/
structure Faithful (cap : Nat) (id : UInt32) (e : Emission) : Prop where
  refused : e.window < 0 → e.answer = .error (.negativeWindow e.window id) ∧ e.after = e.before
  sent : 0 ≤ e.window → ∃ w, e.Sends cap id w

section Faithful

variable {cap : Nat} {id : UInt32} {e : Emission}

theorem Sends.payload_eq {w : WireFrame} (h : e.Sends cap id w) : e.payload = w.payload := by
  rw [payload, h.answer]
  show (w.header ++ w.payload).drop headerLength = w.payload
  rw [← w.length_header, List.drop_left]

/-- Nothing of a payload is lost, and none of it is sent twice. -/
theorem Faithful.whole (h : e.Faithful cap id) :
    e.payload ++ e.after.bytes = e.before.bytes ∧ e.after.close = e.before.close := by
  rcases Int.lt_or_le e.window 0 with hwindow | hwindow
  · obtain ⟨hanswer, hafter⟩ := h.refused hwindow
    rw [payload, hanswer, hafter]
    exact ⟨rfl, rfl⟩
  · obtain ⟨w, hw⟩ := h.sent hwindow
    rw [hw.payload_eq]
    exact ⟨hw.split.symm, hw.close⟩

end Faithful

/-- Successive calls for a payload: each begins with what the ones before it left, and is faithful. What they sent is
the payload without what they left. -/
structure AllFaithful (cap : Nat) (id : UInt32) (p : Payload) (windows : List Int) (es : List Emission) : Prop where
  windows : es.map window = windows
  before : ∀ front e back, es = front ++ e :: back → e.before = left p front
  faithful : ∀ e ∈ es, e.Faithful cap id
  whole : es.flatMap payload ++ (left p es).bytes = p.bytes
  close : ∀ front back, es = front ++ back → (left p front).close = p.close

section AllFaithful

variable {cap : Nat} {id : UInt32} {window : Int} {windows : List Int} {p : Payload} {e : Emission}
  {es : List Emission}

theorem allFaithful_nil (cap : Nat) (id : UInt32) (p : Payload) : AllFaithful cap id p [] [] where
  windows := rfl
  before front e back h := by cases front <;> cases h
  faithful e he := absurd he List.not_mem_nil
  whole := rfl
  close front back h := by rw [(List.append_eq_nil_iff.1 h.symm).1, left]

theorem AllFaithful.cons (h : AllFaithful cap id e.after windows es) (he : e.Faithful cap id)
    (hwindow : e.window = window) (hbefore : e.before = p) : AllFaithful cap id p (window :: windows) (e :: es) where
  windows := by rw [List.map_cons, h.windows, hwindow]
  before front e' back heq := by
    cases front with
    | nil =>
      obtain ⟨rfl, -⟩ := List.cons.inj heq
      exact hbefore
    | cons f front =>
      obtain ⟨rfl, hrest⟩ := List.cons.inj heq
      exact h.before front e' back hrest
  faithful e' he' := by
    rcases List.mem_cons.1 he' with rfl | he'
    · exact he
    · exact h.faithful e' he'
  whole := by
    rw [List.flatMap_cons, List.append_assoc, left, h.whole, he.whole.1, hbefore]
  close front back heq := by
    cases front with
    | nil => rfl
    | cons f front =>
      obtain ⟨rfl, hrest⟩ := List.cons.inj heq
      rw [left, h.close front back hrest, he.whole.2, hbefore]

end AllFaithful

end Emission

namespace Encoder

/-- Calls for the next data frame of a payload. A refusal leaves the payload as it is. -/
def emit (enc : Encoder) (id : UInt32) (window : Int) (p : Payload) : Emission :=
  match enc.data id window p with
  | .ok (bs, rest) => ⟨window, p, .ok bs, rest⟩
  | .error r => ⟨window, p, .error r, p⟩

def emissions (enc : Encoder) (id : UInt32) : Payload → List Int → List Emission
  | _, [] => []
  | p, window :: windows => enc.emit id window p :: enc.emissions id (enc.emit id window p).after windows

end Encoder

/-! ## One call -/

namespace Payload

variable {cap : Nat} {id : UInt32} {window : Int}

/-- A chunk of a payload is a frame, if the cap is small enough for one. -/
theorem sends_chunk (hcap : cap ≤ maxFrameLength) (hwindow : 0 ≤ window) (p : Payload) :
    ∃ w, Emission.Sends cap id
      ⟨window, p, .ok (p.chunk cap id window).1.encode, (p.chunk cap id window).2⟩ w := by
  have hlength := length_chunk cap id window p
  have hlen := length_chunk_le hcap id window p
  have hflags : (p.chunk cap id window).1.flags =
      Flag.when ((p.chunk cap id window).2.isEmpty && p.close) Flag.fin := rfl
  refine ⟨(p.chunk cap id window).1.wire hlen, ?_⟩
  constructor
  · exact congrArg Except.ok (DataFrame.bytes_wire _ hlen).symm
  · exact WireFrame.length_bytes _
  · exact (WireFrame.length_payload _).symm
  · exact toNat_layoutId id
  · show ((p.chunk cap id window).1.payload.length : Int) = min (min window cap) p.bytes.length
    omega
  · exact (p.take_append_drop _).symm
  · rfl
  · show Flag.has (p.chunk cap id window).1.flags Flag.fin ↔ p.close ∧ (p.chunk cap id window).2.bytes = []
    rw [hflags, Flag.has_when_fin, Bool.and_eq_true, isEmpty, List.isEmpty_iff]
    exact And.comm
  · show (p.chunk cap id window).1.flags = 0 ∨ (p.chunk cap id window).1.flags = Flag.fin
    rw [hflags]
    cases (p.chunk cap id window).2.isEmpty && p.close
    · exact .inl rfl
    · exact .inr rfl

end Payload

namespace Encoder

open Emission

theorem emit_faithful (size : Nat) (id : UInt32) (window : Int) (p : Payload) :
    ((standard size).emit id window p).Faithful (max 1 (min size (2 ^ 24 - 1))) id ∧
      ((standard size).emit id window p).window = window ∧ ((standard size).emit id window p).before = p := by
  have hdata : (standard size).data id window p = p.encodeChunk (clampCap size) id window := rfl
  rw [emit, hdata, Payload.encodeChunk]
  by_cases hwindow : window < 0
  · rw [if_pos hwindow]
    exact ⟨⟨fun _ => ⟨rfl, rfl⟩, fun h => absurd h (Int.not_le.2 hwindow)⟩, rfl, rfl⟩
  · rw [if_neg hwindow]
    refine ⟨⟨fun h => absurd h hwindow, fun hwindow => ?_⟩, rfl, rfl⟩
    exact Payload.sends_chunk (clampCap_le_maxFrameLength size) hwindow p

/-! ## Successive calls -/

/-- Data is sent faithfully whatever the windows of the calls are. -/
theorem emissions_faithful (size : Nat) (id : UInt32) (p : Payload) (windows : List Int) :
    AllFaithful (max 1 (min size (2 ^ 24 - 1))) id p windows ((standard size).emissions id p windows) := by
  induction windows generalizing p with
  | nil => exact allFaithful_nil _ id p
  | cons window windows ih =>
    obtain ⟨hfaithful, hwindow, hbefore⟩ := emit_faithful size id window p
    exact (ih _).cons hfaithful hwindow hbefore

end Encoder

end Spdy
