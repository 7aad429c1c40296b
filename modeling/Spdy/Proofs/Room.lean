import Mathlib.Algebra.Ring.Nat
import Spdy.Proofs.Recognition
import Spdy.Proofs.RoundTrip

/-!
# Room in a frame

Counts and lengths are cut to the width of their fields when they are laid out. A control frame is refused exactly
if it does not fit, so nothing is ever cut: what is encoded is a frame of the grammar with every count and length as
it is.

* `HeaderBlock.blockSize`, `Body.size` : how many bytes headers and payloads take (`Body.length_layout`);
* `HeaderBlock.HasRoom`, `Body.HasRoom` : everything fits into its field (`Body.refusal?_eq_none_iff`);
* `HeaderBlock.blockIs_layout`, `Setting.rowsAre_layout`, `Body.written_layout` : what has room is laid out by the
  grammar;
* `ControlFrame.encode_ok_iff` : the condition for acceptance, with `ControlFrame.wire`, the accepted frame;
* `ControlFrame.refused_or_whole` : both together.
-/

namespace Spdy

theorem isNumber_ofNat {k n : Nat} (h : n < Nat.pow 256 k) : IsNumber k (Bytes.ofNat k n) n :=
  ⟨Bytes.length_ofNat k n, toNat_ofNat_of_lt h⟩

theorem id31_layoutId (id : UInt32) : (layoutId id).id31 = low31 id := by
  rw [← low31_word (length_layoutId id), low31_word_layoutId]

theorem priorityIn_priorityByte (v : Version) (p : UInt8) :
    priorityIn v (priorityByte v p) = clipPriority v p := by
  rw [← priorityOfByte_eq, priorityOfByte_priorityByte]

/-! ## Header blocks -/

namespace HeaderBlock

variable {v : Version}

def fieldSize (v : Version) (s : String) : Nat := width v + s.utf8ByteSize

def blockSize (v : Version) (pairs : List (String × String)) : Nat :=
  width v + (pairs.map fun e => fieldSize v e.1 + fieldSize v e.2).sum

/-- The number of headers and the lengths of the texts fit into two bytes; only `SPDY/2` asks for it. -/
def HasRoom (v : Version) (pairs : List (String × String)) : Prop :=
  v = .v2 → pairs.length ≤ 0xffff ∧ ∀ e ∈ pairs, e.1.utf8ByteSize ≤ 0xffff ∧ e.2.utf8ByteSize ≤ 0xffff

theorem mem_fields {h : Headers} {s : String} : s ∈ fields h ↔ ∃ e ∈ h.toList, s = e.1 ∨ s = e.2 := by
  rw [fields, List.mem_flatMap]
  simp only [List.mem_cons, List.not_mem_nil, or_false]

theorem refusal?_eq_none_iff (v : Version) (h : Headers) : refusal? v h = none ↔ HasRoom v h.toList := by
  cases v with
  | v3 => simp [refusal?, HasRoom]
  | v2 =>
    have hfields : (∀ s ∈ fields h, ¬ 0xffff < s.utf8ByteSize) ↔
        ∀ e ∈ h.toList, e.1.utf8ByteSize ≤ 0xffff ∧ e.2.utf8ByteSize ≤ 0xffff := by
      simp only [mem_fields, Nat.not_lt]
      constructor
      · intro hall e he
        exact ⟨hall _ ⟨e, he, .inl rfl⟩, hall _ ⟨e, he, .inr rfl⟩⟩
      · rintro hall s ⟨e, he, rfl | rfl⟩
        · exact (hall e he).1
        · exact (hall e he).2
    have hfind : (fields h).find? (fun s => decide (0xffff < s.utf8ByteSize)) = none ↔
        ∀ s ∈ fields h, ¬ 0xffff < s.utf8ByteSize := by simp only [List.find?_eq_none, decide_eq_true_eq]
    rw [refusal?, HasRoom, Headers.length_toList, ← hfields, ← hfind]
    split
    · next hsize =>
      constructor
      · intro hnone
        cases hnone
      · intro hroom
        have hcount := (hroom rfl).1
        omega
    · next hsize =>
      rw [Option.map_eq_none_iff]
      exact ⟨fun hnone _ => ⟨Nat.not_lt.1 hsize, hnone⟩, fun hroom => (hroom rfl).2⟩

theorem length_layoutField (v : Version) (s : String) : (layoutField v s).length = fieldSize v s := by
  rw [layoutField, List.length_append, Bytes.length_ofNat, length_textBytes, fieldSize]

theorem FieldIs.length_eq {bs : Bytes} {s : String} (h : FieldIs v bs s) : bs.length = fieldSize v s := by
  obtain ⟨hlen⟩ := h
  rw [List.length_append, hlen.length, length_textBytes, fieldSize]

theorem length_layout (v : Version) (h : Headers) : (layout v h).length = blockSize v h.toList := by
  rw [layout_eq, List.length_append, Bytes.length_ofNat, layoutPairs, List.length_flatMap, blockSize]
  simp only [List.length_append, length_layoutField]

theorem PairsAre.length_eq {bs : Bytes} {pairs : List (String × String)} (h : PairsAre v bs pairs) :
    bs.length = (pairs.map fun e => fieldSize v e.1 + fieldSize v e.2).sum := by
  induction h with
  | nil => rfl
  | cons hname hvalue _ ih =>
    simp only [List.length_append, List.map_cons, List.sum_cons, hname.length_eq, hvalue.length_eq, ih]

theorem BlockIs.length_eq {bs : Bytes} {pairs : List (String × String)} (h : BlockIs v bs pairs) :
    bs.length = blockSize v pairs := by
  obtain ⟨hcount, hpairs⟩ := h
  rw [List.length_append, hcount.length, hpairs.length_eq, blockSize]

theorem fieldIs_layoutField {s : String} (h : s.utf8ByteSize < Nat.pow 256 (width v)) :
    FieldIs v (layoutField v s) s := .text (isNumber_ofNat h)

theorem pairsAre_layoutPairs {pairs : List (String × String)} (h : FitPairs v pairs) :
    PairsAre v (layoutPairs v pairs) pairs := by
  induction pairs with
  | nil => exact .nil
  | cons e pairs ih =>
    obtain ⟨hname, hvalue⟩ := h e List.mem_cons_self
    exact .cons (fieldIs_layoutField hname) (fieldIs_layoutField hvalue)
      (ih fun e he => h e (List.mem_cons_of_mem _ he))

/-- A block is laid out with its counts and lengths as they are, if they have room. -/
theorem blockIs_layout {h : Headers} (hfit : Fits v h) : BlockIs v (layout v h) h.toList := by
  rw [layout_eq]
  exact .block (isNumber_ofNat hfit.size) (pairsAre_layoutPairs hfit.pairs)

theorem lowered_toList (h : Headers) : lowered h.toList = h.toList := by
  refine (List.map_congr_left fun e he => ?_).trans (List.map_id _)
  rw [Headers.mem_toList_lowercase he]
  rfl

end HeaderBlock

/-! ## Settings -/

/-- Entries are laid out with their ids as they are, if these have room. -/
theorem Setting.rowsAre_layout {entries : List Setting} (h : ∀ e ∈ entries, e.id.code.toNat ≤ 0xffffff) :
    RowsAre (entries.flatMap layout) (entries.map normal) := by
  induction entries with
  | nil => exact .nil
  | cons e entries ih =>
    have hpow : Nat.pow 256 3 = 0xffffff + 1 := rfl
    have hcode : IsNumber 3 (Bytes.ofNat 3 e.id.code.toNat) e.id.code.toNat :=
      isNumber_ofNat (by have := h e List.mem_cons_self; omega)
    have hvalue : IsNumber 4 (Bytes.ofNat 4 e.value.toNat) e.value.toNat := isNumber_ofNat e.value.toNat_lt
    exact .cons hcode hvalue (ih fun e he => h e (List.mem_cons_of_mem _ he))

/-! ## Payloads -/

namespace Body

open HeaderBlock

variable {v : Version} {b : Body}

def entries : Body → List Setting
  | settings _ entries => entries
  | synStream .. | synReply .. | rstStream .. | noop | ping .. | goAway .. | headers .. | windowUpdate .. => []

/-- How many bytes the payload takes. -/
def size (v : Version) : Body → Nat
  | synStream _ _ _ _ h => 10 + blockSize v h.toList
  | synReply _ _ h => 4 + paddingWidth v + blockSize v h.toList
  | rstStream .. => 8
  | settings _ entries => 4 + 8 * entries.length
  | noop => 0
  | ping _ => 4
  | goAway .. => 4 + statusWidth v
  | headers _ _ h => 4 + paddingWidth v + blockSize v h.toList
  | windowUpdate .. => 8

/-- The payload fits into a frame, its headers into a block, and the ids of its settings into three bytes. -/
structure HasRoom (v : Version) (b : Body) : Prop where
  size : b.size v ≤ 2 ^ 24 - 1
  pairs : HeaderBlock.HasRoom v b.pairs
  entries : ∀ e ∈ b.entries, e.id.code.toNat ≤ 0xffffff

theorem length_blockPadding (v : Version) : (blockPadding v).length = paddingWidth v := by
  cases v <;> rfl

theorem length_layout (v : Version) (b : Body) : (b.layout v).length = b.size v := by
  cases b with
  | synStream flags id associated priority h =>
    simp [layout, size, length_layoutId, HeaderBlock.length_layout]
    omega
  | synReply flags id h =>
    simp [layout, size, length_layoutId, length_blockPadding, HeaderBlock.length_layout, Nat.add_assoc]
  | rstStream id status => simp [layout, size, length_layoutId]
  | settings flags entries =>
    simp only [layout, size, List.length_append, Bytes.length_ofNat, Setting.length_flatMap_layout]
    omega
  | noop => rfl
  | ping id => simp [layout, size]
  | goAway last status => cases v <;> simp [layout, size, statusWidth, length_layoutId]
  | headers flags id h =>
    simp [layout, size, length_layoutId, length_blockPadding, HeaderBlock.length_layout, Nat.add_assoc]
  | windowUpdate id delta => simp [layout, size, length_layoutId]

theorem refusal?_eq_none_iff (v : Version) (b : Body) : b.refusal? v = none ↔
    HeaderBlock.HasRoom v b.pairs ∧ ∀ e ∈ b.entries, e.id.code.toNat ≤ 0xffffff := by
  have hnil : HeaderBlock.HasRoom v [] := fun _ => ⟨by decide, fun e he => absurd he List.not_mem_nil⟩
  cases b with
  | synStream flags id associated priority h => simp [refusal?, pairs, entries, HeaderBlock.refusal?_eq_none_iff]
  | synReply flags id h => simp [refusal?, pairs, entries, HeaderBlock.refusal?_eq_none_iff]
  | headers flags id h => simp [refusal?, pairs, entries, HeaderBlock.refusal?_eq_none_iff]
  | settings flags es =>
    have hcode : ∀ n : UInt32, ¬ 0xffffff < n ↔ n.toNat ≤ 0xffffff := fun n => by
      rw [UInt32.lt_iff_toNat_lt, Nat.not_lt]
      rfl
    simp [refusal?, pairs, entries, hnil, List.find?_eq_none, ← hcode]
  | rstStream | noop | ping | goAway | windowUpdate => simp [refusal?, pairs, entries, hnil]

/-- A payload that is not refused and not too long is laid out by the grammar, with nothing cut. -/
theorem written_layout (hrefusal : b.refusal? v = none) (hlen : (b.layout v).length ≤ maxFrameLength) :
    Written v b.flags (b.layout v) b.pairs (b.normal v) := by
  -- a header block, whatever the fixed fields before it are
  have hblock : ∀ {front : Bytes} {h : Headers}, HeaderBlock.refusal? v h = none →
      b.layout v = front ++ HeaderBlock.layout v h → BlockIs v (HeaderBlock.layout v h) h.toList :=
    fun hh heq => blockIs_layout (fits_of_length hh hlen heq)
  cases b with
  | synStream flags id associated priority h =>
    have hfront : (synStream flags id associated priority h).layout v = layoutId id ++ layoutId associated ++
        priorityByte v priority :: 0 :: HeaderBlock.layout v h := by simp [layout]
    rw [hfront, normal, ← id31_layoutId id, ← id31_layoutId associated, ← priorityIn_priorityByte]
    exact .synStream (length_layoutId id) (length_layoutId associated) (hblock hrefusal rfl) (lowered_toList h).symm
  | synReply flags id h =>
    rw [normal, ← id31_layoutId id]
    exact .synReply (length_layoutId id) (length_blockPadding v) (hblock hrefusal rfl) (lowered_toList h).symm
  | rstStream id status =>
    have hwritten : Written v 0 (layoutId id ++ Bytes.ofNat 4 status.toNat) [] _ :=
      .rstStream (length_layoutId id) (Bytes.length_ofNat 4 status.toNat)
    rw [id31_layoutId, word_ofNat] at hwritten
    exact hwritten
  | settings flags es =>
    have hcount : es.length < Nat.pow 256 4 := by
      have hmax : maxFrameLength = 16777215 := rfl
      have hpow : Nat.pow 256 4 = 4294967296 := rfl
      rw [length_layout, size] at hlen
      omega
    have hnumber : IsNumber 4 (Bytes.ofNat 4 es.length) (es.map Setting.normal).length := by
      rw [List.length_map]
      exact isNumber_ofNat hcount
    exact .settings hnumber (Setting.rowsAre_layout ((refusal?_eq_none_iff v _).1 hrefusal).2)
  | noop => exact .noop
  | ping id =>
    have hwritten : Written v 0 (Bytes.ofNat 4 id.toNat) [] _ := .ping (Bytes.length_ofNat 4 id.toNat)
    rw [word_ofNat] at hwritten
    exact hwritten
  | goAway last status =>
    cases v with
    | v2 =>
      have hwritten : Written .v2 0 (layoutId last ++ []) [] _ := .goAway (length_layoutId last) rfl
      rw [id31_layoutId] at hwritten
      exact hwritten
    | v3 =>
      have hwritten : Written .v3 0 (layoutId last ++ Bytes.ofNat 4 status.toNat) [] _ :=
        .goAway (length_layoutId last) (Bytes.length_ofNat 4 status.toNat)
      rw [id31_layoutId, word_ofNat] at hwritten
      exact hwritten
  | headers flags id h =>
    rw [normal, ← id31_layoutId id]
    exact .headers (length_layoutId id) (length_blockPadding v) (hblock hrefusal rfl) (lowered_toList h).symm
  | windowUpdate id delta =>
    have hwritten : Written v 0 (layoutId id ++ layoutId delta) [] _ :=
      .windowUpdate (length_layoutId id) (length_layoutId delta)
    rw [id31_layoutId, id31_layoutId] at hwritten
    exact hwritten

end Body

/-! ## Frames -/

namespace ControlFrame

variable {f : ControlFrame}

theorem encode_ok_iff (f : ControlFrame) : (∃ out, f.encode = .ok out) ↔ f.body.HasRoom f.version := by
  have hmax : maxFrameLength = 2 ^ 24 - 1 := rfl
  constructor
  · rintro ⟨out, h⟩
    obtain ⟨hrefusal, hlen, -⟩ := accepted_of_encode h
    obtain ⟨hpairs, hentries⟩ := (Body.refusal?_eq_none_iff _ _).1 hrefusal
    rw [Body.length_layout, hmax] at hlen
    exact ⟨hlen, hpairs, hentries⟩
  · rintro ⟨hsize, hpairs, hentries⟩
    have hrefusal := (Body.refusal?_eq_none_iff _ _).2 ⟨hpairs, hentries⟩
    rw [← Body.length_layout, ← hmax] at hsize
    exact ⟨_, by rw [encode, hrefusal]; exact if_neg (Nat.not_lt.2 hsize)⟩

/-- An accepted control frame, field by field. -/
def wire (f : ControlFrame) (h : (f.body.layout f.version).length ≤ maxFrameLength) : WireFrame where
  lead := Bytes.ofNat 2 (0x8000 + f.version.code) ++ Bytes.ofNat 2 f.type.code
  flags := f.body.flags
  length := Bytes.ofNat 3 (f.body.layout f.version).length
  payload := f.body.layout f.version
  length_lead := by simp
  length_length := by simp
  length_payload := (toNat_ofNat_length h).symm

section Wire

variable (h : (f.body.layout f.version).length ≤ maxFrameLength)

theorem bytes_wire : (f.wire h).bytes = f.header (f.body.layout f.version).length ++ f.body.layout f.version := by
  simp [wire, WireFrame.bytes, WireFrame.header, header]

theorem toNat_version (v : Version) : (Bytes.ofNat 2 (0x8000 + v.code)).toNat = 0x8000 + v.code := by
  cases v <;> decide

theorem toNat_type (t : FrameType) : (Bytes.ofNat 2 t.code).toNat = t.code := by cases t <;> decide

theorem isControl_wire : (f.wire h).IsControl := by
  show 2 ^ 31 ≤ (Bytes.ofNat 2 (0x8000 + f.version.code) ++ Bytes.ofNat 2 f.type.code).toNat
  have hpow : Nat.pow 256 2 = 65536 := rfl
  rw [Bytes.toNat_append, Bytes.length_ofNat, toNat_version, hpow]
  omega

theorem codes_wire : (f.wire h).versionCode = f.version.code ∧ (f.wire h).typeCode = f.type.code := by
  constructor
  · show (Bytes.ofNat 2 (0x8000 + f.version.code)).toNat % 2 ^ 15 = _
    rw [toNat_version]
    cases f.version <;> rfl
  · exact toNat_type f.type

end Wire

theorem Accepted.length_eq {bs : Bytes} (h : f.Accepted bs) : bs.length = headerLength + f.body.size f.version := by
  have hsize : (f.wire h.length).payload.length = f.body.size f.version := Body.length_layout _ _
  rw [h.bytes, ← bytes_wire h.length, WireFrame.length_bytes, hsize]

/-- A control frame is refused only if it does not fit into the format: its payload into a frame, the number and the
texts of its headers into a block of `SPDY/2`, or the id of a setting into three bytes. What is accepted becomes one
whole frame of the grammar, eight bytes and a payload: the length field tells how many bytes the payload has, and the
payload spells the frame with each count, length and id as it is. -/
theorem refused_or_whole (cap : Nat) (f : ControlFrame) :
    ((∃ out, (Encoder.standard cap).control f = .ok out) ↔ f.body.HasRoom f.version) ∧
      ∀ out, (Encoder.standard cap).control f = .ok out → ∃ w : WireFrame, out = w.bytes ∧
        out.length = 8 + f.body.size f.version ∧ w.length.toNat = f.body.size f.version ∧
        w.payload.length = f.body.size f.version ∧ w.IsControl ∧ w.versionCode = f.version.code ∧
        w.typeCode = f.type.code ∧ w.flags = f.body.flags ∧
        Body.Written f.version f.body.flags w.payload f.body.pairs (f.body.normal f.version) := by
  refine ⟨encode_ok_iff f, fun out h => ?_⟩
  have haccepted := accepted_of_encode h
  have hlen := haccepted.length
  obtain ⟨hversion, htype⟩ := codes_wire hlen
  have hsize : (f.wire hlen).payload.length = f.body.size f.version := Body.length_layout _ _
  refine ⟨f.wire hlen, haccepted.bytes.trans (bytes_wire hlen).symm, haccepted.length_eq, ?_, hsize,
    isControl_wire hlen, hversion, htype, rfl, Body.written_layout haccepted.refusal hlen⟩
  rw [← (f.wire hlen).length_payload, hsize]

/-- A setting with the largest id that has room. -/
theorem refused_or_whole_settings : ∃ w : WireFrame,
    w.bytes = [0x80, 3, 0, 4, 1, 0, 0, 12, 0, 0, 0, 1, 2, 0xff, 0xff, 0xff, 0, 0, 0, 5] ∧
      Body.Written .v3 1 w.payload [] (.settings 1 [⟨.unknown 0xffffff, 2, 5⟩]) := by
  obtain ⟨w, hbytes, -, -, -, -, -, -, -, hwritten⟩ :=
    (refused_or_whole 100 ⟨.v3, .settings 1 [⟨.unknown 0xffffff, 2, 5⟩]⟩).2 _ rfl
  exact ⟨w, hbytes.symm, hwritten⟩

end ControlFrame

end Spdy
