import Spdy.Proofs.Fields

/-!
# The grammar of frames

The wire format, said by its fields: which bytes are a frame and what the frame says, with neither a reader nor an
encoder.

* `IsNumber`, `Bytes.id31`, `priorityIn` : numbers, ids and priorities as bytes;
* `HeaderBlock.FieldIs`, `HeaderBlock.PairsAre`, `HeaderBlock.BlockIs` : texts, headers and header blocks;
* `Setting.RowsAre` : the entries of a SETTINGS frame;
* `Body.Written` : the payload of a control frame, one constructor for each type;
* `Body.Begins` : a payload begins with a well-formed body, whatever follows it;
* `WireFrame` : a complete frame, of which `WireFrame.bytes` are the bytes.
-/

namespace Spdy

/-! ## Fields -/

/-- A field of `k` bytes that holds a number, most significant byte first. -/
structure IsNumber (k : Nat) (bs : Bytes) (n : Nat) : Prop where
  length : bs.length = k
  value : bs.toNat = n

def Bytes.id31 (bs : Bytes) : UInt32 := .ofNat (bs.toNat % 2 ^ 31)

/-- The priority that a byte tells with its two or three high bits. -/
def priorityIn (v : Version) (b : UInt8) : UInt8 :=
  .ofNat (b.toNat / match v with | .v2 => 64 | .v3 => 32)

namespace HeaderBlock

inductive FieldIs (v : Version) : Bytes → String → Prop
  | text {len : Bytes} {s : String} (hlen : IsNumber (width v) len s.utf8ByteSize) :
    FieldIs v (len ++ textBytes s) s

/-- Headers one after another, each as its name and its value. -/
inductive PairsAre (v : Version) : Bytes → List (String × String) → Prop
  | nil : PairsAre v [] []
  | cons {name value : String} {front back bs : Bytes} {pairs : List (String × String)}
      (hname : FieldIs v front name) (hvalue : FieldIs v back value) (h : PairsAre v bs pairs) :
    PairsAre v (front ++ back ++ bs) ((name, value) :: pairs)

/-- A header block: the number of headers, and then the headers. -/
inductive BlockIs (v : Version) : Bytes → List (String × String) → Prop
  | block {count bs : Bytes} {pairs : List (String × String)}
      (hcount : IsNumber (width v) count pairs.length) (h : PairsAre v bs pairs) :
    BlockIs v (count ++ bs) pairs

def lowered (pairs : List (String × String)) : List (String × String) :=
  pairs.map fun e => (lowercase e.1, e.2)

end HeaderBlock

/-- Entries of a SETTINGS frame one after another, each as its flags, its id of three bytes and its value of four. -/
inductive Setting.RowsAre : Bytes → List Setting → Prop
  | nil : RowsAre [] []
  | cons {flags : UInt8} {code value : UInt32} {front back bs : Bytes} {entries : List Setting}
      (hcode : IsNumber 3 front code.toNat) (hvalue : IsNumber 4 back value.toNat) (h : RowsAre bs entries) :
    RowsAre (flags :: front ++ back ++ bs) (⟨.ofCode code, flags, value⟩ :: entries)

theorem Setting.RowsAre.length_eq {bs : Bytes} {entries : List Setting} (h : RowsAre bs entries) :
    bs.length = entries.length * 8 := by
  induction h with
  | nil => rfl
  | cons hcode hvalue _ ih =>
    simp only [List.cons_append, List.length_cons, List.length_append, hcode.length, hvalue.length, ih]
    omega

/-! ## Payloads -/

namespace Body

open HeaderBlock

/-- How many unused bytes are between a stream id and a header block. -/
def paddingWidth : Version → Nat
  | .v2 => 2
  | .v3 => 0

def statusWidth : Version → Nat
  | .v2 => 0
  | .v3 => 4

/-- The payload of a control frame with a flag byte, and the body that it spells. The headers are listed with
their names as they are written; a body has them in lower case. -/
inductive Written (v : Version) (flags : UInt8) : Bytes → List (String × String) → Body → Prop
  | synStream {id associated block : Bytes} {priority unused : UInt8} {pairs : List (String × String)}
      {h : Headers} (hid : id.length = 4) (hassociated : associated.length = 4)
      (hblock : BlockIs v block pairs) (hh : h.toList = lowered pairs) :
    Written v flags (id ++ associated ++ priority :: unused :: block) pairs
      (.synStream flags id.id31 associated.id31 (priorityIn v priority) h)
  | synReply {id unused block : Bytes} {pairs : List (String × String)} {h : Headers}
      (hid : id.length = 4) (hunused : unused.length = paddingWidth v) (hblock : BlockIs v block pairs)
      (hh : h.toList = lowered pairs) :
    Written v flags (id ++ unused ++ block) pairs (.synReply flags id.id31 h)
  | rstStream {id status : Bytes} (hid : id.length = 4) (hstatus : status.length = 4) :
    Written v flags (id ++ status) [] (.rstStream id.id31 status.word)
  | settings {count bs : Bytes} {entries : List Setting} (hcount : IsNumber 4 count entries.length)
      (h : Setting.RowsAre bs entries) :
    Written v flags (count ++ bs) [] (.settings flags entries)
  | noop : Written v flags [] [] .noop
  | ping {id : Bytes} (hid : id.length = 4) : Written v flags id [] (.ping id.word)
  | goAway {last status : Bytes} (hlast : last.length = 4) (hstatus : status.length = statusWidth v) :
    Written v flags (last ++ status) [] (.goAway last.id31 status.word)
  | headers {id unused block : Bytes} {pairs : List (String × String)} {h : Headers}
      (hid : id.length = 4) (hunused : unused.length = paddingWidth v) (hblock : BlockIs v block pairs)
      (hh : h.toList = lowered pairs) :
    Written v flags (id ++ unused ++ block) pairs (.headers flags id.id31 h)
  | windowUpdate {id delta : Bytes} (hid : id.length = 4) (hdelta : delta.length = 4) :
    Written v flags (id ++ delta) [] (.windowUpdate id.id31 delta.id31)

/-- Bytes are a well-formed body of a type: no header has an empty name. -/
def WellFormed (v : Version) (flags : UInt8) (t : FrameType) (bs : Bytes) (b : Body) : Prop :=
  ∃ pairs, Written v flags bs pairs b ∧ Named pairs ∧ b.type = t

/-- A payload begins with a well-formed body, whatever follows it. -/
def Begins (v : Version) (flags : UInt8) (t : FrameType) (payload : Bytes) (b : Body) : Prop :=
  ∃ front rest, payload = front ++ rest ∧ WellFormed v flags t front b

end Body

/-! ## Frames -/

/-- A complete frame, field by field. The lead has the control bit with a stream id, or with a version and a type, and
the payload has as many bytes as the length tells. -/
structure WireFrame where
  lead : Bytes
  flags : UInt8
  length : Bytes
  payload : Bytes
  length_lead : lead.length = 4
  length_length : length.length = 3
  length_payload : payload.length = length.toNat

namespace WireFrame

def header (w : WireFrame) : Bytes := w.lead ++ w.flags :: w.length

def bytes (w : WireFrame) : Bytes := w.header ++ w.payload

def IsControl (w : WireFrame) : Prop := 2 ^ 31 ≤ w.lead.toNat

def streamId (w : WireFrame) : UInt32 := w.lead.id31

def versionCode (w : WireFrame) : Nat := Bytes.toNat (w.lead.take 2) % 2 ^ 15

def typeCode (w : WireFrame) : Nat := Bytes.toNat (w.lead.drop 2)

theorem length_header (w : WireFrame) : w.header.length = headerLength := by
  simp [header, headerLength, w.length_lead, w.length_length]

theorem length_bytes (w : WireFrame) : w.bytes.length = headerLength + w.payload.length := by
  rw [bytes, List.length_append, length_header]

theorem drop_header (w : WireFrame) : w.header.drop 5 = w.length := by
  have hfront : (w.lead ++ [w.flags]).length = 5 := by simp [w.length_lead]
  have hheader : w.header = (w.lead ++ [w.flags]) ++ w.length := by simp [header]
  rw [hheader, ← hfront, List.drop_left]

theorem length_payload_eq (w : WireFrame) : w.payload.length = Bytes.toNat (w.header.drop 5) := by
  rw [drop_header, w.length_payload]

theorem exists_of_header {header payload : Bytes} (hheader : header.length = headerLength)
    (hpayload : payload.length = Bytes.toNat (header.drop 5)) :
    ∃ w : WireFrame, w.header = header ∧ w.payload = payload := by
  match header, hheader with
  | [a, b, c, d, flags, e, f, g], _ =>
    exact ⟨⟨[a, b, c, d], flags, [e, f, g], payload, rfl, rfl, hpayload⟩, rfl, rfl⟩

end WireFrame

end Spdy
