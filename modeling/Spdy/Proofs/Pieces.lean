import Spdy.Wire.Reader

/-!
# Bytes in pieces

A reader is fed whatever arrives, and a piece may end anywhere: within a header, within a payload, after a
frame that ends the session. What is read depends on the bytes only.

* `Framing` : a byte string as complete frames and the bytes after them (`framing_exists`,
  `Framing.unique`, `Framing.append`);
* `Received.ofFrames`, `Received.endsIn` : what frames amount to, up to one that ends the session;
* `Reader.HasRead` : a reader that has read some bytes (`hasRead_new`, `HasRead.feed`);
* `Reader.feedAll` : takes pieces one after another;
* `feedAll_eq_feed_flatten` : how the bytes are cut does not matter.
-/

namespace Spdy

/-! ## Complete frames -/

/-- A byte string is complete frames, given by header and payload, and then bytes that are too few for
another. -/
inductive Framing : Bytes → List (Bytes × Bytes) → Bytes → Prop
  | rest {bs : Bytes}
      (short : bs.length < headerLength ∨
        bs.length < headerLength + Bytes.toNat ((bs.take headerLength).drop 5)) : Framing bs [] bs
  | frame {header payload bs rest : Bytes} {frames : List (Bytes × Bytes)}
      (hheader : header.length = headerLength)
      (hpayload : payload.length = Bytes.toNat (header.drop 5)) (h : Framing bs frames rest) :
      Framing (header ++ payload ++ bs) ((header, payload) :: frames) rest

theorem take_frame {header payload : Bytes} (bs : Bytes) (hheader : header.length = headerLength) :
    (header ++ payload ++ bs).take headerLength = header := by
  rw [List.append_assoc, ← hheader, List.take_left]

/-- A byte string that begins with a complete frame is not too short for one. -/
theorem not_short_of_frame {header payload : Bytes} (bs : Bytes)
    (hheader : header.length = headerLength)
    (hpayload : payload.length = Bytes.toNat (header.drop 5)) :
    ¬((header ++ payload ++ bs).length < headerLength ∨ (header ++ payload ++ bs).length <
      headerLength + Bytes.toNat (((header ++ payload ++ bs).take headerLength).drop 5)) := by
  rw [take_frame bs hheader, ← hpayload, List.length_append, List.length_append, hheader]
  omega

theorem framing_exists (bs : Bytes) : ∃ frames rest, Framing bs frames rest := by
  induction hn : bs.length using Nat.strongRecOn generalizing bs with
  | ind n ih =>
    by_cases short : bs.length < headerLength ∨
        bs.length < headerLength + Bytes.toNat ((bs.take headerLength).drop 5)
    · exact ⟨[], bs, .rest short⟩
    · generalize hlen : Bytes.toNat ((bs.take headerLength).drop 5) = len at short
      have hpos : 0 < headerLength := by decide
      have hheader : (bs.take headerLength).length = headerLength := by
        rw [List.length_take]
        omega
      have hpayload : ((bs.drop headerLength).take len).length = len := by
        rw [List.length_take, List.length_drop]
        omega
      obtain ⟨frames, rest, h⟩ := ih (bs.drop (headerLength + len)).length
        (by rw [List.length_drop]; omega) _ rfl
      have hframe := Framing.frame hheader (hpayload.trans hlen.symm) h
      rw [List.append_assoc, ← List.drop_drop, List.take_append_drop, List.take_append_drop] at hframe
      exact ⟨_, rest, hframe⟩

namespace Framing

variable {bs rest : Bytes} {frames : List (Bytes × Bytes)}

theorem unique {frames' : List (Bytes × Bytes)} {rest' : Bytes} (h : Framing bs frames rest)
    (h' : Framing bs frames' rest') : frames = frames' ∧ rest = rest' := by
  induction h generalizing frames' with
  | rest short =>
    cases h' with
    | rest => exact ⟨rfl, rfl⟩
    | frame hheader hpayload _ => exact absurd short (not_short_of_frame _ hheader hpayload)
  | @frame header payload bs rest frames hheader hpayload h ih =>
    generalize hall : header ++ payload ++ bs = all at h'
    cases h' with
    | rest short =>
      rw [← hall] at short
      exact absurd short (not_short_of_frame bs hheader hpayload)
    | @frame header' payload' bs' _ frames' hheader' hpayload' h' =>
      rw [List.append_assoc, List.append_assoc] at hall
      obtain ⟨rfl, hrest⟩ := List.append_inj hall (hheader.trans hheader'.symm)
      obtain ⟨rfl, rfl⟩ := List.append_inj hrest (hpayload.trans hpayload'.symm)
      obtain ⟨rfl, rfl⟩ := ih h'
      exact ⟨rfl, rfl⟩

theorem append {piece rest' : Bytes} {more : List (Bytes × Bytes)} (h : Framing bs frames rest)
    (h' : Framing (rest ++ piece) more rest') : Framing (bs ++ piece) (frames ++ more) rest' := by
  induction h with
  | rest => exact h'
  | frame hheader hpayload _ ih =>
    rw [List.append_assoc, List.cons_append]
    exact .frame hheader hpayload (ih h')

end Framing

/-! ## What frames amount to -/

namespace Received

/-- What frames amount to, up to the first that ends the session. -/
def ofFrames : List (Bytes × Bytes) → List Received
  | [] => []
  | (header, payload) :: frames =>
    match ofFrame? header payload with
    | none => ofFrames frames
    | some got => if got.isFatal then [got] else got :: ofFrames frames

def endsIn (frames : List (Bytes × Bytes)) : Bool :=
  frames.any fun f => (ofFrame? f.1 f.2).any isFatal

theorem endsIn_cons (header payload : Bytes) (frames : List (Bytes × Bytes)) :
    endsIn ((header, payload) :: frames) =
      ((ofFrame? header payload).any isFatal || endsIn frames) := rfl

theorem ofFrames_append (frames more : List (Bytes × Bytes)) :
    ofFrames (frames ++ more) =
      ofFrames frames ++ if endsIn frames then [] else ofFrames more := by
  induction frames with
  | nil => rfl
  | cons f frames ih =>
    obtain ⟨header, payload⟩ := f
    rw [List.cons_append, ofFrames, ofFrames, ih, endsIn_cons]
    cases ofFrame? header payload with
    | none => rfl
    | some got => cases hfatal : got.isFatal <;> simp [hfatal]

theorem endsIn_append (frames more : List (Bytes × Bytes)) :
    endsIn (frames ++ more) = (endsIn frames || endsIn more) :=
  List.any_append

end Received

/-! ## Readers -/

namespace Reader

/-- A reader that has read some bytes and told what they amount to: it keeps what comes after the complete
frames, unless one of these ended the session. -/
structure HasRead (bs : Bytes) (told : List Received) (r : Reader) : Prop where
  told : ∀ {frames rest}, Framing bs frames rest → told = Received.ofFrames frames
  failed : ∀ {frames rest}, Framing bs frames rest → r.failed = Received.endsIn frames
  kept : ∀ {frames rest}, Framing bs frames rest → r.failed = false → r.buffer.toList = rest

theorem HasRead.of_framing {bs rest : Bytes} {told : List Received} {r : Reader}
    {frames : List (Bytes × Bytes)} (h : Framing bs frames rest)
    (htold : told = Received.ofFrames frames) (hfailed : r.failed = Received.endsIn frames)
    (hkept : r.failed = false → r.buffer.toList = rest) : HasRead bs told r := by
  constructor <;> intro frames' rest' h' <;> obtain ⟨rfl, rfl⟩ := h.unique h'
  · exact htold
  · exact hfailed
  · exact hkept

theorem hasRead_new : HasRead [] [] new :=
  .of_framing (.rest (.inl (by decide))) rfl rfl fun _ => rfl

theorem drain_of_next?_eq_none {r : Reader} {before : Array Received} (h : r.next? = none) :
    r.drain before = (before, r) := by
  unfold drain
  split
  · rfl
  · rename_i hnext
    rw [h] at hnext
    cases hnext

theorem drain_of_next?_eq_some {r s : Reader} {before : Array Received} {got : Option Received}
    (h : r.next? = some (got, s)) : r.drain before = s.drain (got.elim before before.push) := by
  rw [drain]
  split
  · rename_i hnext
    rw [h] at hnext
    cases hnext
  · rename_i hnext
    rw [h] at hnext
    cases hnext
    rfl

theorem next?_of_short {r : Reader} {rest : Bytes} (h : Framing r.buffer.toList [] rest) :
    r.next? = none ∧ r.buffer.toList = rest := by
  generalize hall : r.buffer.toList = bs at h
  cases h with
  | rest short =>
    subst hall
    refine ⟨?_, rfl⟩
    rw [next?, (Buffer.frame?_eq_none_iff r.buffer).2 short, Option.map_none, ite_self]

theorem next?_of_frame {r : Reader} {header payload rest : Bytes} {frames : List (Bytes × Bytes)}
    (hr : r.failed = false) (h : Framing r.buffer.toList ((header, payload) :: frames) rest) :
    ∃ c : Buffer, Framing c.toList frames rest ∧
      r.next? = some (pass (Received.ofFrame? header payload) c) := by
  cases hf : r.buffer.frame? with
  | none =>
    obtain ⟨hnil, -⟩ := h.unique (.rest ((Buffer.frame?_eq_none_iff r.buffer).1 hf))
    cases hnil
  | some x =>
    obtain ⟨header', payload', c⟩ := x
    obtain ⟨hlist, hheader, hpayload⟩ := Buffer.frame?_eq_some hf
    obtain ⟨frames', rest', hc⟩ := framing_exists c.toList
    rw [hlist] at h
    obtain ⟨heq, rfl⟩ := h.unique (.frame hheader hpayload hc)
    obtain ⟨hhead, rfl⟩ := List.cons.inj heq
    obtain ⟨rfl, rfl⟩ := Prod.mk.inj hhead
    refine ⟨c, hc, ?_⟩
    rw [next?, if_neg (by simp [hr]), hf, Option.map_some]

/-- All complete frames are passed over, up to one that ends the session. -/
theorem drain_framing {r : Reader} {frames : List (Bytes × Bytes)} {rest : Bytes}
    (before : Array Received) (hr : r.failed = false) (h : Framing r.buffer.toList frames rest) :
    (r.drain before).1.toList = before.toList ++ Received.ofFrames frames ∧
      (r.drain before).2.failed = Received.endsIn frames ∧
      ((r.drain before).2.failed = false → (r.drain before).2.buffer.toList = rest) := by
  induction frames generalizing r before with
  | nil =>
    obtain ⟨hnext, hrest⟩ := next?_of_short h
    rw [drain_of_next?_eq_none hnext]
    exact ⟨(List.append_nil _).symm, hr, fun _ => hrest⟩
  | cons f frames ih =>
    obtain ⟨header, payload⟩ := f
    obtain ⟨c, hc, hnext⟩ := next?_of_frame hr h
    rw [drain_of_next?_eq_some hnext, Received.ofFrames, Received.endsIn_cons]
    cases hgot : Received.ofFrame? header payload with
    | none => exact ih before rfl hc
    | some got =>
      cases hfatal : got.isFatal with
      | false =>
        have hafter : after (some got) c = ⟨c, false⟩ := by simp [after, hfatal]
        obtain ⟨htold, hfailed, hkept⟩ := ih (before.push got) (r := ⟨c, false⟩) rfl hc
        rw [hafter]
        refine ⟨?_, ?_, hkept⟩
        · simpa [hfatal] using htold
        · simpa [hfatal] using hfailed
      | true =>
        have hafter : after (some got) c = ⟨.empty, true⟩ := by simp [after, hfatal]
        rw [hafter, drain_of_next?_eq_none rfl]
        simp [hfatal]

theorem HasRead.feed {bs : Bytes} {told : List Received} {r : Reader} (h : HasRead bs told r)
    (piece : Bytes) : HasRead (bs ++ piece) (told ++ (r.feed piece).1.toList) (r.feed piece).2 := by
  obtain ⟨frames, rest, hbs⟩ := framing_exists bs
  obtain ⟨more, rest', hmore⟩ := framing_exists (rest ++ piece)
  have hall := hbs.append hmore
  have htold := h.told hbs
  have hfailed := h.failed hbs
  cases hr : r.failed with
  | true =>
    have hfeed : r.feed piece = (#[], r) := by
      rw [Reader.feed, push, if_pos hr]
      exact drain_of_next?_eq_none (by rw [next?, if_pos hr])
    rw [hr] at hfailed
    rw [hfeed]
    refine .of_framing hall ?_ ?_ ?_
    · rw [htold, Received.ofFrames_append, ← hfailed, if_pos rfl]
    · rw [Received.endsIn_append, ← hfailed, hr, Bool.true_or]
    · intro hlive
      rw [hr] at hlive
      cases hlive
  | false =>
    have hpush : (r.push piece).failed = false ∧ (r.push piece).buffer.toList = rest ++ piece := by
      rw [push, if_neg (by simp [hr])]
      exact ⟨hr, by rw [Buffer.toList_append, h.kept hbs hr]⟩
    rw [← hpush.2] at hmore
    obtain ⟨htold', hfailed', hkept'⟩ := drain_framing #[] hpush.1 hmore
    rw [hr] at hfailed
    refine .of_framing hall ?_ ?_ hkept'
    · rw [Reader.feed, htold', htold, Received.ofFrames_append, ← hfailed, if_neg (by simp)]
      rfl
    · rw [Reader.feed, hfailed', Received.endsIn_append, ← hfailed, Bool.false_or]

/-! ## Pieces -/

/-- Takes pieces one after another, and tells what they amount to. -/
def feedAll (r : Reader) : List Bytes → List Received × Reader
  | [] => ([], r)
  | piece :: pieces =>
    let (told, r) := r.feed piece
    let (more, r) := r.feedAll pieces
    (told.toList ++ more, r)

theorem HasRead.feedAll {bs : Bytes} {told : List Received} {r : Reader} (h : HasRead bs told r)
    (pieces : List Bytes) :
    HasRead (bs ++ pieces.flatten) (told ++ (r.feedAll pieces).1) (r.feedAll pieces).2 := by
  induction pieces generalizing bs told r with
  | nil =>
    rw [Reader.feedAll, List.flatten_nil, List.append_nil, List.append_nil]
    exact h
  | cons piece pieces ih =>
    have hall := ih (h.feed piece)
    rw [List.append_assoc, List.append_assoc] at hall
    exact hall

/-- What is read from bytes does not depend on how they are cut into pieces: a new reader tells the same, and
fails or does not, as if it were given all bytes at once. If it has not failed, it keeps the bytes after the
last complete frame. -/
theorem feedAll_eq_feed_flatten (pieces : List Bytes) :
    (new.feedAll pieces).1 = (new.feed pieces.flatten).1.toList ∧
      (new.feedAll pieces).2.failed = (new.feed pieces.flatten).2.failed ∧
      ∃ frames rest, Framing pieces.flatten frames rest ∧
        (new.feedAll pieces).1 = Received.ofFrames frames ∧
        (new.feedAll pieces).2.failed = Received.endsIn frames ∧
        ((new.feedAll pieces).2.failed = false → (new.feedAll pieces).2.buffer.toList = rest) := by
  obtain ⟨frames, rest, h⟩ := framing_exists pieces.flatten
  have hpieces := hasRead_new.feedAll pieces
  have hwhole := hasRead_new.feed pieces.flatten
  rw [List.nil_append, List.nil_append] at hpieces hwhole
  refine ⟨?_, ?_, frames, rest, h, hpieces.told h, hpieces.failed h, hpieces.kept h⟩
  · rw [hpieces.told h, hwhole.told h]
  · rw [hpieces.failed h, hwhole.failed h]

end Reader

end Spdy
