import Spdy.Proofs.Meaning
import Spdy.Proofs.Room

/-!
# What was read can be sent again

A decoder makes names small, cuts ids to 31 bits and drops what is unused. What it delivers is normal after that: it
has room in a frame, no larger than the one it came from, and is encoded to bytes that are read as the same.

* `utf8ByteSize_lowercase` : a name in lower case is as long as before;
* `HeaderBlock.BlockIs.hasRoom` : counts and lengths that were read have room where they stood;
* `Body.Written.length_eq`, `Body.Written.normal_eq`, `Body.Written.hasRoom` : a body that a payload spells takes as
  many bytes as the payload, is normal and has room;
* `ControlFrame.encoded_of_begins` : a frame that begins with a well-formed body is encoded again;
* `Received.ofFrames_eq_append`, `Framing.split` : the frame that something was told of, among all the frames;
* `resent_unchanged` : whatever a reader delivers.
-/

namespace Spdy

/-! ## Names in lower case -/

theorem utf8Size_toLower (c : Char) : c.toLower.utf8Size = c.utf8Size := by
  by_cases h : c.val ≥ 'A'.val ∧ c.val ≤ 'Z'.val
  · have low : c.toLower.val = c.val + ('a'.val - 'A'.val) := congrArg Char.val (dif_pos h)
    have hle : c.val.toNat ≤ 90 := UInt32.le_iff_toNat_le.1 h.2
    have hsize : c.val ≤ 127 := by
      apply UInt32.le_iff_toNat_le.2
      show c.val.toNat ≤ 127
      omega
    have hlower : c.toLower.val ≤ 127 := by
      rw [low, UInt32.le_iff_toNat_le, UInt32.toNat_add]
      show (c.val.toNat + 32) % 2 ^ 32 ≤ 127
      omega
    rw [Char.utf8Size_eq_one_iff.2 hsize, Char.utf8Size_eq_one_iff.2 hlower]
  · have low : c.toLower = c := dif_neg h
    rw [low]

theorem utf8ByteSize_lowercase (s : String) : (lowercase s).utf8ByteSize = s.utf8ByteSize := by
  have hchars : ∀ cs : List Char,
      (String.ofList (cs.map Char.toLower)).utf8ByteSize = (String.ofList cs).utf8ByteSize := by
    intro cs
    induction cs with
    | nil => rfl
    | cons c cs ih =>
      rw [List.map_cons, String.ofList_cons, String.ofList_cons, String.utf8ByteSize_append,
        String.utf8ByteSize_append, String.utf8ByteSize_singleton, String.utf8ByteSize_singleton,
        utf8Size_toLower, ih]
  have h := hchars s.toList
  rwa [← String.toList_map, String.ofList_toList, String.ofList_toList] at h

/-! ## Fields and header blocks -/

theorem IsNumber.lt {k n : Nat} {bs : Bytes} (h : IsNumber k bs n) : n < Nat.pow 256 k := by
  rw [← h.value, ← h.length]
  exact bs.toNat_lt

namespace HeaderBlock

variable {v : Version}

theorem blockSize_lowered (v : Version) (pairs : List (String × String)) :
    blockSize v (lowered pairs) = blockSize v pairs := by
  rw [blockSize, blockSize, lowered, List.map_map]
  congr 2
  apply List.map_congr_left
  intro e he
  simp only [Function.comp_apply, fieldSize, utf8ByteSize_lowercase]

theorem named_lowered {pairs : List (String × String)} (h : Named pairs) : Named (lowered pairs) := by
  intro e he
  obtain ⟨e', he', rfl⟩ := List.mem_map.1 he
  have hname := h e' he'
  rw [String.isEmpty, beq_eq_false_iff_ne] at hname ⊢
  rwa [utf8ByteSize_lowercase]

theorem HasRoom.lowered {pairs : List (String × String)} (h : HasRoom v pairs) : HasRoom v (lowered pairs) := by
  intro hv
  obtain ⟨hcount, hsizes⟩ := h hv
  refine ⟨by rwa [HeaderBlock.lowered, List.length_map], fun e he => ?_⟩
  obtain ⟨e', he', rfl⟩ := List.mem_map.1 he
  rw [utf8ByteSize_lowercase]
  exact hsizes e' he'

theorem FieldIs.lt {bs : Bytes} {s : String} (h : FieldIs v bs s) : s.utf8ByteSize < Nat.pow 256 (width v) := by
  obtain ⟨hlen⟩ := h
  exact hlen.lt

theorem PairsAre.fitPairs {bs : Bytes} {pairs : List (String × String)} (h : PairsAre v bs pairs) :
    FitPairs v pairs := by
  induction h with
  | nil => exact fun e he => absurd he List.not_mem_nil
  | cons hname hvalue _ ih =>
    intro e he
    rcases List.mem_cons.1 he with rfl | he
    · exact ⟨hname.lt, hvalue.lt⟩
    · exact ih e he

/-- Counts and lengths that were read have room where they stood. -/
theorem BlockIs.hasRoom {bs : Bytes} {pairs : List (String × String)} (h : BlockIs v bs pairs) :
    HasRoom v pairs := by
  rintro rfl
  obtain ⟨hcount, hpairs⟩ := h
  have hpow : Nat.pow 256 (width .v2) = 0xffff + 1 := rfl
  have hcount := hcount.lt
  refine ⟨by omega, fun e he => ?_⟩
  have hsizes := hpairs.fitPairs e he
  omega

end HeaderBlock

namespace Setting

theorem RowsAre.normal_eq {bs : Bytes} {entries : List Setting} (h : RowsAre bs entries) :
    entries.map normal = entries := by
  induction h with
  | nil => rfl
  | @cons flags code value _ _ _ entries _ _ _ ih =>
    have hnormal : normal ⟨.ofCode code, flags, value⟩ = ⟨.ofCode code, flags, value⟩ := by
      rw [normal, SettingId.code_ofCode]
    rw [List.map_cons, hnormal, ih]

theorem RowsAre.code_le {bs : Bytes} {entries : List Setting} (h : RowsAre bs entries) :
    ∀ e ∈ entries, e.id.code.toNat ≤ 0xffffff := by
  induction h with
  | nil => exact fun e he => absurd he List.not_mem_nil
  | cons hcode _ _ ih =>
    intro e he
    rcases List.mem_cons.1 he with rfl | he
    · have hpow : Nat.pow 256 3 = 0xffffff + 1 := rfl
      have hlt := hcode.lt
      rw [SettingId.code_ofCode]
      omega
    · exact ih e he

end Setting

/-! ## Payloads -/

theorem low31_id31 (bs : Bytes) : low31 bs.id31 = bs.id31 := by
  apply UInt32.toNat_inj.1
  rw [toNat_low31, Bytes.id31, UInt32.toNat_ofNat']
  omega

theorem clipPriority_priorityIn (v : Version) (b : UInt8) : clipPriority v (priorityIn v b) = priorityIn v b := by
  have hb := b.toNat_lt
  apply UInt8.toNat_inj.1
  cases v with
  | v2 =>
    show (UInt8.ofNat (b.toNat / 64) &&& 3).toNat = (UInt8.ofNat (b.toNat / 64)).toNat
    rw [toNat_and_three, UInt8.toNat_ofNat']
    omega
  | v3 =>
    show (UInt8.ofNat (b.toNat / 32) &&& 7).toNat = (UInt8.ofNat (b.toNat / 32)).toNat
    rw [toNat_and_seven, UInt8.toNat_ofNat']
    omega

namespace Body

open HeaderBlock

variable {v : Version} {flags : UInt8} {bs : Bytes} {pairs : List (String × String)} {b : Body}

/-- A body has the headers that are written, with their names in lower case. -/
theorem Written.pairs_eq (h : Written v flags bs pairs b) : b.pairs = lowered pairs := by
  cases h with
  | synStream _ _ _ hh => exact hh
  | synReply _ _ _ hh => exact hh
  | headers _ _ _ hh => exact hh
  | rstStream | settings | noop | ping | goAway | windowUpdate => rfl

/-- A body is laid out again in as many bytes as it was read from. -/
theorem Written.length_eq (h : Written v flags bs pairs b) : bs.length = b.size v := by
  have hsize : ∀ {block : Bytes} {h : Headers}, BlockIs v block pairs → h.toList = lowered pairs →
      block.length = blockSize v h.toList := by
    intro block h hblock hh
    rw [hh, blockSize_lowered, hblock.length_eq]
  cases h with
  | synStream hid hassociated hblock hh =>
    simp only [List.length_append, List.length_cons, hid, hassociated, hsize hblock hh, size]
    omega
  | synReply hid hunused hblock hh =>
    simp only [List.length_append, hid, hunused, hsize hblock hh, size]
  | rstStream hid hstatus => simp only [List.length_append, hid, hstatus, size]
  | settings hcount h =>
    rw [List.length_append, hcount.length, h.length_eq, size]
    omega
  | noop => rfl
  | ping hid => exact hid
  | goAway hlast hstatus => simp only [List.length_append, hlast, hstatus, size]
  | headers hid hunused hblock hh =>
    simp only [List.length_append, hid, hunused, hsize hblock hh, size]
  | windowUpdate hid hdelta => simp only [List.length_append, hid, hdelta, size]

/-- Nothing of a body that was read is lost on the wire. -/
theorem Written.normal_eq (h : Written v flags bs pairs b) : b.normal v = b := by
  cases h with
  | synStream => rw [normal, low31_id31, low31_id31, clipPriority_priorityIn]
  | synReply => rw [normal, low31_id31]
  | rstStream => rw [normal, low31_id31]
  | settings _ h => rw [normal, h.normal_eq]
  | noop => rfl
  | ping => rfl
  | @goAway last status _ hstatus =>
    cases v with
    | v2 =>
      obtain rfl := List.length_eq_zero_iff.1 hstatus
      show Body.goAway (low31 last.id31) 0 = _
      rw [low31_id31]
      rfl
    | v3 =>
      show Body.goAway (low31 last.id31) status.word = _
      rw [low31_id31]
  | headers => rw [normal, low31_id31]
  | windowUpdate => rw [normal, low31_id31, low31_id31]

/-- A body that was read from a frame has room in one. -/
theorem Written.hasRoom (h : Written v flags bs pairs b) (hlen : bs.length ≤ 2 ^ 24 - 1) : b.HasRoom v where
  size := by rwa [← h.length_eq]
  pairs := by
    rw [h.pairs_eq]
    apply HeaderBlock.HasRoom.lowered
    cases h with
    | synStream _ _ hblock _ => exact hblock.hasRoom
    | synReply _ _ hblock _ => exact hblock.hasRoom
    | headers _ _ hblock _ => exact hblock.hasRoom
    | rstStream | settings | noop | ping | goAway | windowUpdate =>
      exact fun _ => ⟨by decide, fun e he => absurd he List.not_mem_nil⟩
  entries := by
    cases h with
    | settings _ h => exact h.code_le
    | synStream | synReply | headers | rstStream | noop | ping | goAway | windowUpdate =>
      exact fun e he => absurd he List.not_mem_nil

end Body

/-! ## Frames -/

/-- A frame that begins with a well-formed body is encoded again, to one that is no longer and is read as the same. -/
theorem ControlFrame.encoded_of_begins {v : Version} {flags : UInt8} {t : FrameType} {payload : Bytes} {b : Body}
    (h : Body.Begins v flags t payload b) (hlen : payload.length ≤ 2 ^ 24 - 1) :
    ∃ w : WireFrame, ControlFrame.encode ⟨v, b⟩ = .ok w.bytes ∧ w.payload.length ≤ payload.length ∧
      Received.ofFrame? w.header w.payload = some (.control ⟨v, b⟩) := by
  obtain ⟨front, rest, rfl, pairs, hwritten, hnamed, -⟩ := h
  rw [List.length_append] at hlen ⊢
  obtain ⟨out, hout⟩ := (encode_ok_iff ⟨v, b⟩).2 (hwritten.hasRoom (by omega))
  have haccepted := accepted_of_encode hout
  obtain ⟨header, body, hbytes, hheader, hbody, hread⟩ := ofFrame?_control haccepted
  obtain ⟨w, rfl, rfl⟩ := WireFrame.exists_of_header hheader hbody
  have hout' : out = w.bytes := hbytes
  have hsize : w.bytes.length = headerLength + front.length := by
    rw [← hout', haccepted.length_eq, hwritten.length_eq]
  have hreading : ControlFrame.reading ⟨v, b⟩ = .control ⟨v, b⟩ := by
    have hnamed' : HeaderBlock.Named b.pairs := by
      rw [hwritten.pairs_eq]
      exact HeaderBlock.named_lowered hnamed
    rw [reading, if_pos hnamed', normal, hwritten.normal_eq]
  rw [WireFrame.length_bytes] at hsize
  refine ⟨w, by rw [hout, hout'], by omega, by rw [hread, hreading]⟩

/-- A control frame is only delivered if the payload begins with it. -/
theorem WireFrame.begins_of_ofFrame? {w : WireFrame} {f : ControlFrame}
    (h : Received.ofFrame? w.header w.payload = some (.control f)) :
    ∃ t, Body.Begins f.version w.flags t w.payload f.body := by
  by_cases hcontrol : w.IsControl
  · rw [ofFrame?_of_control hcontrol] at h
    split at h
    · cases h
    · obtain ⟨t, -, hbody⟩ := Option.map_eq_some_iff.1 h
      split at hbody
      · next hd =>
        cases hbody
        exact ⟨t, begins_of_decodeBody hd⟩
      · unfold Received.malformed at hbody
        split at hbody <;> cases hbody
  · rw [ofFrame?_of_data hcontrol] at h
    split at h <;> cases h

theorem WireFrame.length_payload_le (w : WireFrame) : w.payload.length ≤ 2 ^ 24 - 1 := by
  have hpow : Nat.pow 256 3 = 2 ^ 24 := rfl
  have hlt := w.length.toNat_lt
  rw [w.length_length, ← w.length_payload] at hlt
  omega

theorem Reader.feedAll_of_ofFrame? {w : WireFrame} {got : Received} {pieces : List Bytes}
    (hgot : Received.ofFrame? w.header w.payload = some got) (hfatal : got.isFatal = false)
    (hpieces : pieces.flatten = w.bytes) : (new.feedAll pieces).1 = [got] ∧
      (new.feedAll pieces).2.failed = false ∧ (new.feedAll pieces).2.buffer.toList = [] := by
  have hread := hasRead_new.feedAll pieces
  rw [List.nil_append, List.nil_append, hpieces] at hread
  have hlive : (new.feedAll pieces).2.failed = false := by
    rw [hread.failed w.framing_bytes, WireFrame.endsIn_singleton, hgot]
    exact hfatal
  refine ⟨?_, hlive, hread.kept w.framing_bytes hlive⟩
  rw [hread.told w.framing_bytes, WireFrame.ofFrames_singleton, hgot]
  rfl

/-! ## Among other frames -/

/-- What was told of some frames was told of one of them, and before it what its predecessors amount to. -/
theorem Received.ofFrames_eq_append {frames : List (Bytes × Bytes)} {pre post : List Received} {got : Received}
    (h : ofFrames frames = pre ++ got :: post) :
    ∃ before header payload after, frames = before ++ (header, payload) :: after ∧ ofFrames before = pre ∧
      ofFrame? header payload = some got := by
  induction frames generalizing pre with
  | nil => cases pre <;> cases h
  | cons f frames ih =>
    obtain ⟨header, payload⟩ := f
    cases hfirst : ofFrame? header payload with
    | none =>
      rw [ofFrames, hfirst] at h
      obtain ⟨before, header', payload', after, rfl, hpre, hgot⟩ := ih h
      refine ⟨(header, payload) :: before, header', payload', after, rfl, ?_, hgot⟩
      rw [ofFrames, hfirst]
      exact hpre
    | some g =>
      rw [ofFrames_of_some hfirst] at h
      cases pre with
      | nil =>
        obtain ⟨rfl, -⟩ := List.cons.inj h
        exact ⟨[], header, payload, frames, rfl, rfl, hfirst⟩
      | cons p pre =>
        obtain ⟨rfl, hrest⟩ := List.cons.inj h
        cases hfatal : g.isFatal with
        | true => simp [hfatal] at hrest
        | false =>
          rw [hfatal, if_neg (by decide)] at hrest
          obtain ⟨before, header', payload', after, rfl, hpre, hgot⟩ := ih hrest
          refine ⟨(header, payload) :: before, header', payload', after, rfl, ?_, hgot⟩
          rw [ofFrames_of_some hfirst, hfatal, if_neg (by decide), hpre]

/-- One of some frames, with the bytes of the frames before it. -/
theorem Framing.split {bs rest header payload : Bytes} {before after : List (Bytes × Bytes)}
    (h : Framing bs (before ++ (header, payload) :: after) rest) :
    ∃ front back, ∃ w : WireFrame, bs = front ++ w.bytes ++ back ∧ w.header = header ∧ w.payload = payload ∧
      Framing front before [] := by
  induction before generalizing bs with
  | nil =>
    cases h with
    | @frame _ _ back _ _ hheader hpayload _ =>
      obtain ⟨w, rfl, rfl⟩ := WireFrame.exists_of_header hheader hpayload
      exact ⟨[], back, w, rfl, rfl, rfl, .rest (.inl (by decide))⟩
  | cons f before ih =>
    cases h with
    | @frame header' payload' _ _ _ hheader hpayload h =>
      obtain ⟨front, back, w, rfl, hw, hw', hfront⟩ := ih h
      refine ⟨header' ++ payload' ++ front, back, w, ?_, hw, hw', .frame hheader hpayload hfront⟩
      simp only [List.append_assoc]

/-- Whatever control frame a reader delivers, it came from a frame among the bytes, and can be sent again: it is
encoded, to no more bytes than it came from, and these are read as the same control frame and nothing else, however
they are cut into pieces. -/
theorem resent_unchanged {cap : Nat} {pieces : List Bytes} {pre post : List Received} {f : ControlFrame}
    (h : (Reader.new.feedAll pieces).1 = pre ++ .control f :: post) :
    ∃ before after : Bytes, ∃ w : WireFrame, pieces.flatten = before ++ w.bytes ++ after ∧
      (∃ frames, Framing before frames []) ∧ Reader.events before = pre ∧ Reader.events w.bytes = [.control f] ∧
      ∃ out, (Encoder.standard cap).control f = .ok out ∧ out.length ≤ w.bytes.length ∧
        ∀ cut : List Bytes, cut.flatten = out → (Reader.new.feedAll cut).1 = [.control f] ∧
          (Reader.new.feedAll cut).2.failed = false ∧ (Reader.new.feedAll cut).2.buffer.toList = [] := by
  obtain ⟨frames, rest, hframes⟩ := framing_exists pieces.flatten
  have hread := Reader.hasRead_new.feedAll pieces
  rw [List.nil_append, List.nil_append] at hread
  rw [hread.told hframes] at h
  obtain ⟨earlier, header, payload, later, rfl, hpre, hgot⟩ := Received.ofFrames_eq_append h
  obtain ⟨before, after, w, hbytes, rfl, rfl, hbefore⟩ := hframes.split
  obtain ⟨t, hbegins⟩ := WireFrame.begins_of_ofFrame? hgot
  obtain ⟨again, hout, hlen, hagain⟩ := ControlFrame.encoded_of_begins hbegins w.length_payload_le
  refine ⟨before, after, w, hbytes, ⟨earlier, hbefore⟩, ?_, ?_, again.bytes, hout, ?_, fun cut hcut => ?_⟩
  · rw [(Reader.events_of_framing hbefore).1, hpre]
  · rw [(Reader.events_of_framing w.framing_bytes).1, WireFrame.ofFrames_singleton, hgot]
    rfl
  · rw [WireFrame.length_bytes, WireFrame.length_bytes]
    omega
  · exact Reader.feedAll_of_ofFrame? hagain rfl hcut

/-- The last stream with a bit too many and two bytes after it, cut within the ping before it. -/
theorem resent_unchanged_goAway : ∃ out, (Encoder.standard 100).control ⟨.v2, .goAway 1 0⟩ = .ok out ∧
    (Reader.new.feedAll [out.take 3, out.drop 3]).1 = [.control ⟨.v2, .goAway 1 0⟩] := by
  let ping : WireFrame := ⟨[0x80, 2, 0, 6], 0, [0, 0, 4], [0, 0, 0, 9], rfl, rfl, rfl⟩
  let goAway : WireFrame := ⟨[0x80, 2, 0, 7], 0, [0, 0, 6], [0x80, 0, 0, 1, 7, 7], rfl, rfl, rfl⟩
  let bs := ping.bytes ++ goAway.bytes
  have hread := (Reader.hasRead_new.feedAll [bs.take 5, bs.drop 5]).told (ping.framing goAway.framing_bytes)
  have htold : Received.ofFrames [(ping.header, ping.payload), (goAway.header, goAway.payload)] =
    [.control ⟨.v2, .ping 9⟩] ++ .control ⟨.v2, .goAway 1 0⟩ :: [] := by decide +kernel
  obtain ⟨-, -, -, -, -, -, -, out, hout, -, hcut⟩ := @resent_unchanged 100 _ _ _ _ (hread.trans htold)
  exact ⟨out, hout, (hcut [out.take 3, out.drop 3] (by simp)).1⟩

end Spdy
