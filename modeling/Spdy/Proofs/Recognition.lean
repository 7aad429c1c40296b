import Spdy.Proofs.Grammar

/-!
# Decoders read the grammar

Payloads of control frames are read off the front exactly if they begin with a well-formed body, and then as this
body.

* `Decoder.Obeys` : a decoder reads a format and nothing else (`Obeys.bind`, `Obeys.map`, `obeys_takeOr`);
* `HeaderBlock.obeys_decode` : header blocks, from `obeys_decodeField` and `obeys_decodeEntries`;
* `Setting.rowsAre_iff` : the entries of a SETTINGS frame;
* `Body.obeys_decodeBody` : payloads, type by type.
-/

namespace Spdy

/-! ## Single fields -/

theorem Bytes.exists_append {k : Nat} {bs : Bytes} (h : k ≤ bs.length) :
    ∃ front back, bs = front ++ back ∧ front.length = k :=
  ⟨bs.take k, bs.drop k, (List.take_append_drop k bs).symm, List.length_take_of_le h⟩

theorem low31_word {bs : Bytes} (h : bs.length = 4) : low31 bs.word = bs.id31 := by
  have hlt : bs.toNat < Nat.pow 256 4 := by
    rw [← h]
    exact bs.toNat_lt
  have hpow : Nat.pow 256 4 = 4294967296 := rfl
  apply UInt32.toNat_inj.1
  rw [toNat_low31, Bytes.word, Bytes.id31, UInt32.toNat_ofNat', UInt32.toNat_ofNat']
  omega

theorem priorityOfByte_eq (v : Version) (b : UInt8) : priorityOfByte v b = priorityIn v b := by
  have hb := b.toNat_lt
  apply UInt8.toNat_inj.1
  cases v with
  | v2 =>
    show (b >>> 6).toNat = (UInt8.ofNat (b.toNat / 64)).toNat
    rw [UInt8.toNat_shiftRight, UInt8.toNat_ofNat']
    show b.toNat >>> 6 = _
    rw [Nat.shiftRight_eq_div_pow]
    omega
  | v3 =>
    show (b >>> 5).toNat = (UInt8.ofNat (b.toNat / 32)).toNat
    rw [UInt8.toNat_shiftRight, UInt8.toNat_ofNat']
    show b.toNat >>> 5 = _
    rw [Nat.shiftRight_eq_div_pow]
    omega

/-- A field of at most four bytes holds the number that is read from it. -/
theorem isNumber_word {k : Nat} {bs : Bytes} (hk : k ≤ 4) (h : bs.length = k) :
    IsNumber k bs bs.word.toNat := by
  have hlt : bs.toNat < 2 ^ 32 := by
    have hpow : Nat.pow 256 bs.length ≤ 256 ^ 4 := Nat.pow_le_pow_right (by decide) (by omega)
    exact Nat.lt_of_lt_of_le bs.toNat_lt hpow
  refine ⟨h, ?_⟩
  rw [Bytes.word, UInt32.toNat_ofNat', Nat.mod_eq_of_lt hlt]

/-! ## Decoders of a format -/

namespace Decoder

variable {α β : Type}

/-- A decoder reads a format and nothing else: it takes off the front what is written in the format, and tells
the value that is written there. -/
def Obeys (d : Decoder α) (format : Bytes → α → Prop) : Prop :=
  ∀ bs a rest, d bs = .ok (a, rest) ↔ ∃ front, bs = front ++ rest ∧ format front a

variable {d : Decoder α} {format : Bytes → α → Prop}

theorem Obeys.congr {format' : Bytes → α → Prop} (h : Obeys d format)
    (hformat : ∀ bs a, format bs a ↔ format' bs a) : Obeys d format' := by
  intro bs a rest
  rw [h bs a rest]
  simp only [hformat]

theorem obeys_pure (a : α) : Obeys (pure a) fun bs x => bs = [] ∧ x = a := by
  intro bs x rest
  show Except.ok (a, bs) = Except.ok (x, rest) ↔ _
  constructor
  · intro h
    cases h
    exact ⟨[], rfl, rfl, rfl⟩
  · rintro ⟨front, rfl, rfl, rfl⟩
    rfl

theorem obeys_throw (fault : Fault) : Obeys (throw fault : Decoder α) fun _ _ => False := by
  intro bs x rest
  show Except.error fault = Except.ok (x, rest) ↔ _
  simp

theorem Obeys.bind {f : α → Decoder β} {next : α → Bytes → β → Prop} (h : Obeys d format)
    (hf : ∀ a, Obeys (f a) (next a)) :
    Obeys (d >>= f) fun bs b => ∃ front back a, bs = front ++ back ∧ format front a ∧ next a back b := by
  intro bs b rest
  show (d bs >>= fun p => f p.1 p.2) = _ ↔ _
  constructor
  · intro hrun
    cases hd : d bs with
    | error fault =>
      rw [hd] at hrun
      cases hrun
    | ok p =>
      obtain ⟨a, middle⟩ := p
      rw [hd] at hrun
      obtain ⟨front, rfl, hfront⟩ := (h _ _ _).1 hd
      obtain ⟨back, rfl, hback⟩ := (hf a _ _ _).1 hrun
      exact ⟨front ++ back, by rw [List.append_assoc], front, back, a, rfl, hfront, hback⟩
  · rintro ⟨_, rfl, front, back, a, rfl, hfront, hback⟩
    have hd := (h (front ++ back ++ rest) a (back ++ rest)).2 ⟨front, by rw [List.append_assoc], hfront⟩
    rw [hd]
    exact (hf a _ _ _).2 ⟨back, rfl, hback⟩

theorem Obeys.map (f : α → β) (h : Obeys d format) :
    Obeys (f <$> d) fun bs b => ∃ a, format bs a ∧ b = f a := by
  rw [← bind_pure_comp]
  refine (h.bind fun a => obeys_pure (f a)).congr fun bs b => ?_
  constructor
  · rintro ⟨front, _, a, rfl, hfront, rfl, rfl⟩
    exact ⟨a, by rwa [List.append_nil], rfl⟩
  · rintro ⟨a, hfront, rfl⟩
    exact ⟨bs, [], a, by simp, hfront, rfl, rfl⟩

theorem obeys_takeOr (n : Nat) (fault : Nat → Fault) :
    Obeys (takeOr n fault) fun bs b => bs.length = n ∧ b = bs := by
  intro bs b rest
  rw [run_takeOr]
  constructor
  · intro hrun
    split at hrun
    · cases hrun
    · next hlen =>
      cases hrun
      refine ⟨bs.take n, by simp, ?_, rfl⟩
      rw [List.length_take]
      omega
  · rintro ⟨front, rfl, rfl, rfl⟩
    rw [if_neg (by simp), List.take_left, List.drop_left]

theorem obeys_take (n : Nat) : Obeys (take n) fun bs b => bs.length = n ∧ b = bs := obeys_takeOr n _

theorem obeys_word : Obeys word fun bs n => bs.length = 4 ∧ n = bs.word :=
  ((obeys_take 4).map Bytes.word).congr fun bs n => by
    constructor
    · rintro ⟨_, ⟨hlen, rfl⟩, rfl⟩
      exact ⟨hlen, rfl⟩
    · rintro ⟨hlen, rfl⟩
      exact ⟨bs, ⟨hlen, rfl⟩, rfl⟩

end Decoder

open Decoder

theorem obeys_decodeId : Obeys decodeId fun bs id => bs.length = 4 ∧ id = bs.id31 := by
  refine (obeys_word.map low31).congr fun bs id => ?_
  constructor
  · rintro ⟨_, ⟨hlen, rfl⟩, rfl⟩
    exact ⟨hlen, low31_word hlen⟩
  · rintro ⟨hlen, rfl⟩
    exact ⟨_, ⟨hlen, rfl⟩, (low31_word hlen).symm⟩

theorem obeys_skipBlockPadding (v : Version) :
    Obeys (skipBlockPadding v) fun bs _ => bs.length = Body.paddingWidth v := by
  cases v with
  | v2 => exact ((obeys_take 2).map fun _ => ()).congr fun bs _ => by simp [Body.paddingWidth]
  | v3 => exact (obeys_pure ()).congr fun bs _ => by simp [Body.paddingWidth]

/-! ## Header blocks -/

namespace HeaderBlock

variable {v : Version}

theorem obeys_decodeLength (v : Version) : Obeys (decodeLength v) (IsNumber (width v)) := by
  refine ((obeys_takeOr (width v) fun _ => .truncatedBlock).map Bytes.toNat).congr fun bs n => ?_
  constructor
  · rintro ⟨_, ⟨hlen, rfl⟩, rfl⟩
    exact ⟨hlen, rfl⟩
  · rintro ⟨hlen, rfl⟩
    exact ⟨bs, ⟨hlen, rfl⟩, rfl⟩

theorem fromUTF8?_eq_some_iff {b : Bytes} {s : String} :
    String.fromUTF8? ⟨b.toArray⟩ = some s ↔ b = textBytes s := by
  constructor
  · intro h
    unfold String.fromUTF8? at h
    split at h
    · obtain rfl := Option.some.inj h
      rfl
    · cases h
  · rintro rfl
    exact fromUTF8?_textBytes s

def textOf (b : Bytes) : Decoder String :=
  match String.fromUTF8? ⟨b.toArray⟩ with
  | some s => return s
  | none => throw .notUnicode

theorem decodeField_eq (v : Version) :
    decodeField v = decodeLength v >>= fun n => takeOr n (fun _ => .fieldTooLong n) >>= textOf := rfl

theorem obeys_textOf (b : Bytes) : Obeys (textOf b) fun bs s => bs = [] ∧ b = textBytes s := by
  unfold textOf
  cases hb : String.fromUTF8? ⟨b.toArray⟩ with
  | some s =>
    refine (obeys_pure s).congr fun bs x => and_congr_right fun _ => ?_
    rw [← fromUTF8?_eq_some_iff, hb, Option.some_inj]
    exact eq_comm
  | none =>
    refine (obeys_throw .notUnicode).congr fun bs x => ?_
    rw [← fromUTF8?_eq_some_iff, hb]
    simp

theorem obeys_decodeText (n : Nat) : Obeys (takeOr n (fun _ => .fieldTooLong n) >>= textOf) fun bs s =>
    bs.length = n ∧ bs = textBytes s := by
  refine ((obeys_takeOr n fun _ => .fieldTooLong n).bind obeys_textOf).congr fun bs s => ?_
  constructor
  · rintro ⟨front, _, _, rfl, ⟨hlen, rfl⟩, rfl, hs⟩
    rw [List.append_nil]
    exact ⟨hlen, hs⟩
  · rintro ⟨hlen, hs⟩
    exact ⟨bs, [], bs, by simp, ⟨hlen, rfl⟩, rfl, hs⟩

theorem obeys_decodeField (v : Version) : Obeys (decodeField v) (FieldIs v) := by
  rw [decodeField_eq]
  refine ((obeys_decodeLength v).bind obeys_decodeText).congr fun bs s => ?_
  constructor
  · rintro ⟨len, _, n, rfl, hlen, hn, rfl⟩
    rw [← hn] at hlen
    exact .text hlen
  · rintro ⟨hlen⟩
    exact ⟨_, _, _, rfl, hlen, rfl, rfl⟩

theorem named_cons {e : String × String} {pairs : List (String × String)} :
    Named (e :: pairs) ↔ e.1.isEmpty = false ∧ Named pairs := List.forall_mem_cons

theorem obeys_decodeEntries (v : Version) (n : Nat) (h : Headers) :
    Obeys (decodeEntries v n h) fun bs g => ∃ pairs, pairs.length = n ∧ PairsAre v bs pairs ∧ Named pairs ∧
      g.toList = h.toList ++ lowered pairs := by
  induction n generalizing h with
  | zero =>
    refine (obeys_pure h).congr fun bs g => ?_
    constructor
    · rintro ⟨rfl, rfl⟩
      exact ⟨[], rfl, .nil, named_nil, by simp [lowered]⟩
    · rintro ⟨pairs, hlen, hpairs, -, hg⟩
      obtain rfl := List.length_eq_zero_iff.1 hlen
      cases hpairs
      exact ⟨rfl, Headers.ext (by simpa [lowered] using hg)⟩
  | succ n ih =>
    have hrest : ∀ name, Obeys (do
        if name.isEmpty then throw .emptyName
        let value ← decodeField v
        decodeEntries v n (h.add name value)) fun bs g => name.isEmpty = false ∧
          ∃ value front back pairs, bs = front ++ back ∧ FieldIs v front value ∧ pairs.length = n ∧
            PairsAre v back pairs ∧ Named pairs ∧ g.toList = (h.add name value).toList ++ lowered pairs := by
      intro name
      cases hempty : name.isEmpty with
      | true => exact (obeys_throw .emptyName).congr fun bs g => by simp
      | false =>
        refine ((obeys_decodeField v).bind fun value => ih (h.add name value)).congr fun bs g => ?_
        constructor
        · rintro ⟨front, back, value, rfl, hvalue, pairs, hpairs⟩
          exact ⟨rfl, value, front, back, pairs, rfl, hvalue, hpairs⟩
        · rintro ⟨-, value, front, back, pairs, rfl, hvalue, hpairs⟩
          exact ⟨front, back, value, rfl, hvalue, pairs, hpairs⟩
    rw [decodeEntries]
    refine ((obeys_decodeField v).bind hrest).congr fun bs g => ?_
    constructor
    · rintro ⟨front, _, name, rfl, hname, hfilled, value, middle, back, pairs, rfl, hvalue, rfl, hpairs, hnamed, hg⟩
      refine ⟨(name, value) :: pairs, rfl, ?_, named_cons.2 ⟨hfilled, hnamed⟩, ?_⟩
      · rw [← List.append_assoc]
        exact .cons hname hvalue hpairs
      · rw [hg]
        simp [lowered]
    · rintro ⟨pairs, hlen, hpairs, hnamed, hg⟩
      cases hpairs with
      | nil => cases hlen
      | @cons name value front back bs pairs hname hvalue hpairs =>
        obtain ⟨hfilled, hnamed⟩ := named_cons.1 hnamed
        refine ⟨front, back ++ bs, name, by rw [List.append_assoc], hname, hfilled, value, back, bs, pairs, rfl,
          hvalue, Nat.succ.inj hlen, hpairs, hnamed, ?_⟩
        rw [hg]
        simp [lowered]

/-- A header block is read as its headers, if none has an empty name. -/
theorem obeys_decode (v : Version) : Obeys (decode v) fun bs h =>
    ∃ pairs, BlockIs v bs pairs ∧ Named pairs ∧ h.toList = lowered pairs := by
  refine ((obeys_decodeLength v).bind fun n => obeys_decodeEntries v n .empty).congr fun bs h => ?_
  constructor
  · rintro ⟨count, back, _, rfl, hcount, pairs, rfl, hpairs, hnamed, hh⟩
    exact ⟨pairs, .block hcount hpairs, hnamed, hh⟩
  · rintro ⟨pairs, ⟨hcount, hpairs⟩, hnamed, hh⟩
    exact ⟨_, _, _, rfl, hcount, pairs, rfl, hpairs, hnamed, hh⟩

end HeaderBlock

/-! ## Settings -/

namespace Setting

theorem ofBytes_row {flags : UInt8} {code value : UInt32} {front back : Bytes}
    (hcode : IsNumber 3 front code.toNat) (hvalue : IsNumber 4 back value.toNat) :
    ofBytes (flags :: front ++ back) = ⟨.ofCode code, flags, value⟩ := by
  obtain ⟨hlen, hcode⟩ := hcode
  rw [← UInt32.ofNat_toNat (x := code), ← UInt32.ofNat_toNat (x := value), ← hcode, ← hvalue.value]
  match front, hlen with
  | [_, _, _], _ => rfl

/-- Entries of eight bytes each are the rows of a list. -/
theorem rowsAre_iff {n : Nat} {bs : Bytes} {entries : List Setting} (hlen : bs.length = n * 8) :
    entries = listOfBytes n bs ↔ entries.length = n ∧ RowsAre bs entries := by
  induction n generalizing bs entries with
  | zero =>
    obtain rfl := List.length_eq_zero_iff.1 (hlen.trans (Nat.zero_mul 8))
    constructor
    · rintro rfl
      exact ⟨rfl, .nil⟩
    · rintro ⟨h, -⟩
      exact List.length_eq_zero_iff.1 h
  | succ n ih =>
    obtain ⟨flags, code, value, front, back, rest, rfl, hcode, hvalue⟩ : ∃ (flags : UInt8) (code value : UInt32)
        (front back rest : Bytes), bs = flags :: front ++ back ++ rest ∧ IsNumber 3 front code.toNat ∧
          IsNumber 4 back value.toNat := by
      obtain ⟨row, rest, rfl, hrow⟩ := Bytes.exists_append (k := 8) (by omega : 8 ≤ bs.length)
      match row, hrow with
      | [f, a, b, c, w, x, y, z], _ =>
        exact ⟨f, Bytes.word [a, b, c], Bytes.word [w, x, y, z], [a, b, c], [w, x, y, z], rest, rfl,
          isNumber_word (by decide) rfl, isNumber_word (by decide) rfl⟩
    have hrow : (flags :: front ++ back).length = 8 := by simp [hcode.length, hvalue.length]
    have hrest : rest.length = n * 8 := by
      rw [List.length_append, hrow] at hlen
      omega
    rw [listOfBytes, ← hrow, List.take_left, List.drop_left, ofBytes_row hcode hvalue]
    constructor
    · rintro rfl
      obtain ⟨hcount, hrows⟩ := (ih hrest).1 rfl
      exact ⟨congrArg Nat.succ hcount, .cons hcode hvalue hrows⟩
    · rintro ⟨hcount, hrows⟩
      generalize hall : flags :: front ++ back ++ rest = all at hrows
      cases hrows with
      | nil => cases hcount
      | @cons flags' code' value' front' back' rest' entries hcode' hvalue' hrows =>
        obtain ⟨hrow', rfl⟩ := List.append_inj hall
          (by simp [hcode.length, hvalue.length, hcode'.length, hvalue'.length])
        rw [(ih hrest).2 ⟨Nat.succ.inj hcount, hrows⟩, ← ofBytes_row hcode hvalue, hrow', ofBytes_row hcode' hvalue']

end Setting

/-! ## Control frames -/

namespace Body

open HeaderBlock

variable {v : Version} {flags : UInt8}

/-- Headers behind a stream id, as replies and later headers have them. -/
theorem obeys_decodeHead (v : Version) (f : UInt32 → Headers → Body) :
    Obeys (do
        let id ← decodeId
        skipBlockPadding v
        return f id (← HeaderBlock.decode v))
      fun bs b => ∃ id unused block pairs h, bs = id ++ unused ++ block ∧ id.length = 4 ∧
        unused.length = paddingWidth v ∧ BlockIs v block pairs ∧ Named pairs ∧ h.toList = lowered pairs ∧
        b = f id.id31 h := by
  have hhead := obeys_decodeId.bind fun id => (obeys_skipBlockPadding v).bind fun _ =>
    (HeaderBlock.obeys_decode v).map (f id)
  simp only [← bind_pure_comp] at hhead
  refine hhead.congr fun bs b => ?_
  constructor
  · rintro ⟨id, _, _, rfl, ⟨hid, rfl⟩, unused, block, -, rfl, hunused, h, ⟨pairs, hblock, hnamed, hh⟩, rfl⟩
    exact ⟨id, unused, block, pairs, h, by rw [List.append_assoc], hid, hunused, hblock, hnamed, hh, rfl⟩
  · rintro ⟨id, unused, block, pairs, h, rfl, hid, hunused, hblock, hnamed, hh, rfl⟩
    exact ⟨id, unused ++ block, _, by rw [List.append_assoc], ⟨hid, rfl⟩, unused, block, (), rfl, hunused, h,
      ⟨pairs, hblock, hnamed, hh⟩, rfl⟩

theorem exists_synFields {front : Bytes} (h : front.length = 10) : ∃ (id associated : Bytes) (priority unused : UInt8),
    front = id ++ associated ++ [priority, unused] ∧ id.length = 4 ∧ associated.length = 4 := by
  match front, h with
  | [i, j, k, l, a, b, c, d, priority, unused], _ =>
    exact ⟨[i, j, k, l], [a, b, c, d], priority, unused, rfl, rfl, rfl⟩

theorem read_synFields (v : Version) {id associated : Bytes} (priority unused : UInt8) (hid : id.length = 4)
    (hassociated : associated.length = 4) :
    low31 (Bytes.word ((id ++ associated ++ [priority, unused]).take 4)) = id.id31 ∧
      low31 (Bytes.word (((id ++ associated ++ [priority, unused]).drop 4).take 4)) = associated.id31 ∧
      priorityOfByte v ((id ++ associated ++ [priority, unused]).octet 8) = priorityIn v priority := by
  match id, hid, associated, hassociated with
  | [_, _, _, _], hid, [_, _, _, _], hassociated =>
    exact ⟨low31_word hid, low31_word hassociated, priorityOfByte_eq v priority⟩

/-- The fixed fields of a SYN_STREAM frame are taken off as ten bytes. -/
theorem obeys_decodeSyn (v : Version) (flags : UInt8) :
    Obeys (decodeBody v flags .synStream) fun bs b => ∃ (id associated : Bytes) (priority unused : UInt8)
      (block : Bytes) (pairs : List (String × String)) (h : Headers),
      bs = id ++ associated ++ priority :: unused :: block ∧ id.length = 4 ∧ associated.length = 4 ∧
        BlockIs v block pairs ∧ Named pairs ∧ h.toList = lowered pairs ∧
        b = .synStream flags id.id31 associated.id31 (priorityIn v priority) h := by
  have hsyn := (obeys_take 10).bind fun front => (HeaderBlock.obeys_decode v).map fun h =>
    Body.synStream flags (low31 (Bytes.word (front.take 4))) (low31 (Bytes.word ((front.drop 4).take 4)))
      (priorityOfByte v (front.octet 8)) h
  simp only [← bind_pure_comp] at hsyn
  refine hsyn.congr fun bs b => ?_
  constructor
  · rintro ⟨_, block, front, rfl, ⟨hfront, rfl⟩, h, ⟨pairs, hblock, hnamed, hh⟩, rfl⟩
    obtain ⟨id, associated, priority, unused, rfl, hid, hassociated⟩ := exists_synFields hfront
    obtain ⟨hreadId, hreadAssociated, hreadPriority⟩ := read_synFields v priority unused hid hassociated
    rw [hreadId, hreadAssociated, hreadPriority]
    exact ⟨id, associated, priority, unused, block, pairs, h, by simp, hid, hassociated, hblock, hnamed, hh, rfl⟩
  · rintro ⟨id, associated, priority, unused, block, pairs, h, rfl, hid, hassociated, hblock, hnamed, hh, rfl⟩
    obtain ⟨hreadId, hreadAssociated, hreadPriority⟩ := read_synFields v priority unused hid hassociated
    rw [← hreadId, ← hreadAssociated, ← hreadPriority]
    exact ⟨id ++ associated ++ [priority, unused], block, _, by simp, ⟨by simp [hid, hassociated], rfl⟩, h,
      ⟨pairs, hblock, hnamed, hh⟩, rfl⟩

theorem obeys_words (f : UInt32 → Bytes → Body) :
    Obeys ((fun b => f (low31 (Bytes.word (b.take 4))) (b.drop 4)) <$> take 8) fun bs b =>
      ∃ id other : Bytes, bs = id ++ other ∧ id.length = 4 ∧ other.length = 4 ∧ b = f id.id31 other := by
  refine ((obeys_take 8).map _).congr fun bs b => ?_
  constructor
  · rintro ⟨front, ⟨hlen, rfl⟩, rfl⟩
    obtain ⟨id, other, rfl, hid⟩ := Bytes.exists_append (k := 4) (by omega : 4 ≤ front.length)
    rw [List.length_append, hid] at hlen
    refine ⟨id, other, rfl, hid, by omega, ?_⟩
    rw [← low31_word hid, ← hid, List.take_left, List.drop_left]
  · rintro ⟨id, other, rfl, hid, hother, rfl⟩
    refine ⟨_, ⟨by simp [hid, hother], rfl⟩, ?_⟩
    rw [← low31_word hid, ← hid, List.take_left, List.drop_left]

theorem obeys_decodeSettings (v : Version) (flags : UInt8) :
    Obeys (decodeBody v flags .settings) fun bs b => ∃ count rows entries, bs = count ++ rows ∧
      IsNumber 4 count entries.length ∧ Setting.RowsAre rows entries ∧ b = .settings flags entries := by
  have hsettings := ((obeys_take 4).map Bytes.toNat).bind fun n =>
    (obeys_take (n * 8)).map fun b => Body.settings flags (Setting.listOfBytes n b)
  simp only [← bind_pure_comp (f := fun b => Body.settings flags _)] at hsettings
  refine hsettings.congr fun bs b => ?_
  constructor
  · rintro ⟨_, _, n, rfl, ⟨count, ⟨hcount, rfl⟩, rfl⟩, rows, ⟨hrows, rfl⟩, rfl⟩
    obtain ⟨hlen, hare⟩ := (Setting.rowsAre_iff hrows).1 rfl
    exact ⟨count, rows, _, rfl, ⟨hcount, hlen.symm⟩, hare, rfl⟩
  · rintro ⟨count, rows, entries, rfl, ⟨hcount, hn⟩, hrows, rfl⟩
    have hlen := hrows.length_eq
    refine ⟨count, rows, _, rfl, ⟨count, ⟨hcount, rfl⟩, rfl⟩, rows, ⟨by rw [hlen, hn], rfl⟩, ?_⟩
    rw [← (Setting.rowsAre_iff (by rw [hlen, hn])).2 ⟨hn.symm, hrows⟩]

theorem obeys_decodeGoAway (v : Version) (flags : UInt8) :
    Obeys (decodeBody v flags .goAway) fun bs b => ∃ last status : Bytes, bs = last ++ status ∧ last.length = 4 ∧
      status.length = statusWidth v ∧ b = .goAway last.id31 status.word := by
  cases v with
  | v2 =>
    refine (obeys_decodeId.bind fun last => obeys_pure (Body.goAway last 0)).congr fun bs b => ?_
    constructor
    · rintro ⟨last, _, _, rfl, ⟨hlast, rfl⟩, rfl, rfl⟩
      exact ⟨last, [], rfl, hlast, rfl, rfl⟩
    · rintro ⟨last, status, rfl, hlast, hstatus, rfl⟩
      obtain rfl := List.length_eq_zero_iff.1 hstatus
      exact ⟨last, [], _, rfl, ⟨hlast, rfl⟩, rfl, rfl⟩
  | v3 =>
    have hgoAway := obeys_decodeId.bind fun last => obeys_word.map (Body.goAway last)
    simp only [← bind_pure_comp] at hgoAway
    refine hgoAway.congr fun bs b => ?_
    constructor
    · rintro ⟨last, status, _, rfl, ⟨hlast, rfl⟩, _, ⟨hstatus, rfl⟩, rfl⟩
      exact ⟨last, status, rfl, hlast, hstatus, rfl⟩
    · rintro ⟨last, status, rfl, hlast, hstatus, rfl⟩
      exact ⟨last, status, _, rfl, ⟨hlast, rfl⟩, _, ⟨hstatus, rfl⟩, rfl⟩

/-- Payloads of control frames are read as the grammar has them, type by type. -/
theorem obeys_decodeBody (v : Version) (flags : UInt8) (t : FrameType) :
    Obeys (decodeBody v flags t) (WellFormed v flags t) := by
  cases t with
  | synStream =>
    refine (obeys_decodeSyn v flags).congr fun bs b => ?_
    constructor
    · rintro ⟨id, associated, priority, unused, block, pairs, h, rfl, hid, hassociated, hblock, hnamed, hh, rfl⟩
      exact ⟨pairs, .synStream hid hassociated hblock hh, hnamed, rfl⟩
    · rintro ⟨pairs, hwritten, hnamed, ht⟩
      cases hwritten <;> cases ht
      exact ⟨_, _, _, _, _, _, _, rfl, ‹_›, ‹_›, ‹_›, hnamed, ‹_›, rfl⟩
  | synReply =>
    refine (obeys_decodeHead v (synReply flags)).congr fun bs b => ?_
    constructor
    · rintro ⟨id, unused, block, pairs, h, rfl, hid, hunused, hblock, hnamed, hh, rfl⟩
      exact ⟨pairs, .synReply hid hunused hblock hh, hnamed, rfl⟩
    · rintro ⟨pairs, hwritten, hnamed, ht⟩
      cases hwritten <;> cases ht
      exact ⟨_, _, _, _, _, rfl, ‹_›, ‹_›, ‹_›, hnamed, ‹_›, rfl⟩
  | rstStream =>
    refine (obeys_words fun id status => rstStream id status.word).congr fun bs b => ?_
    constructor
    · rintro ⟨id, status, rfl, hid, hstatus, rfl⟩
      exact ⟨[], .rstStream hid hstatus, named_nil, rfl⟩
    · rintro ⟨pairs, hwritten, -, ht⟩
      cases hwritten <;> cases ht
      exact ⟨_, _, rfl, ‹_›, ‹_›, rfl⟩
  | settings =>
    refine (obeys_decodeSettings v flags).congr fun bs b => ?_
    constructor
    · rintro ⟨count, rows, entries, rfl, hcount, hrows, rfl⟩
      exact ⟨[], .settings hcount hrows, named_nil, rfl⟩
    · rintro ⟨pairs, hwritten, -, ht⟩
      cases hwritten <;> cases ht
      exact ⟨_, _, _, rfl, ‹_›, ‹_›, rfl⟩
  | noop =>
    refine (obeys_pure noop).congr fun bs b => ?_
    constructor
    · rintro ⟨rfl, rfl⟩
      exact ⟨[], .noop, named_nil, rfl⟩
    · rintro ⟨pairs, hwritten, -, ht⟩
      cases hwritten <;> cases ht
      exact ⟨rfl, rfl⟩
  | ping =>
    refine (obeys_word.map ping).congr fun bs b => ?_
    constructor
    · rintro ⟨_, ⟨hid, rfl⟩, rfl⟩
      exact ⟨[], .ping hid, named_nil, rfl⟩
    · rintro ⟨pairs, hwritten, -, ht⟩
      cases hwritten <;> cases ht
      exact ⟨_, ⟨‹_›, rfl⟩, rfl⟩
  | goAway =>
    refine (obeys_decodeGoAway v flags).congr fun bs b => ?_
    constructor
    · rintro ⟨last, status, rfl, hlast, hstatus, rfl⟩
      exact ⟨[], .goAway hlast hstatus, named_nil, rfl⟩
    · rintro ⟨pairs, hwritten, -, ht⟩
      cases hwritten <;> cases ht
      exact ⟨_, _, rfl, ‹_›, ‹_›, rfl⟩
  | headers =>
    refine (obeys_decodeHead v (headers flags)).congr fun bs b => ?_
    constructor
    · rintro ⟨id, unused, block, pairs, h, rfl, hid, hunused, hblock, hnamed, hh, rfl⟩
      exact ⟨pairs, .headers hid hunused hblock hh, hnamed, rfl⟩
    · rintro ⟨pairs, hwritten, hnamed, ht⟩
      cases hwritten <;> cases ht
      exact ⟨_, _, _, _, _, rfl, ‹_›, ‹_›, ‹_›, hnamed, ‹_›, rfl⟩
  | windowUpdate =>
    refine (obeys_words fun id delta => windowUpdate id (low31 delta.word)).congr fun bs b => ?_
    constructor
    · rintro ⟨id, delta, rfl, hid, hdelta, rfl⟩
      rw [low31_word hdelta]
      exact ⟨[], .windowUpdate hid hdelta, named_nil, rfl⟩
    · rintro ⟨pairs, hwritten, -, ht⟩
      cases hwritten with
      | windowUpdate hid hdelta => exact ⟨_, _, rfl, hid, hdelta, by rw [low31_word hdelta]⟩
      | _ => cases ht

end Body

end Spdy
