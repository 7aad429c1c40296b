import Mathlib.Algebra.Group.Nat.Defs
import Spdy.Wire.Encoder
import Spdy.Wire.Received

/-!
# Fields read back

What the encoder lays out is read off the front of any bytes that begin with it, and what follows is left.

* `Decoder.Reads`, `Decoder.Stops` : what a decoder does with all bytes that begin in a given way
  (`Reads.bind`, `Reads.stops`, `Stops.bind`);
* `word_ofNat`, `low31_low31`, `priorityOfByte_priorityByte`, `Setting.ofBytes_layout` : single fields;
* `HeaderBlock.Fits` : a header list whose counts and lengths have room in a block (`fits_of_accepted`);
* `HeaderBlock.reads_layout`, `HeaderBlock.stops_layout` : a block is read as the list it was made of, or
  stops at its first empty name.
-/

namespace Spdy

/-! ## Reading off the front -/

namespace Decoder

variable {α β : Type}

def Reads (d : Decoder α) (bs : Bytes) (a : α) : Prop :=
  ∀ rest, d (bs ++ rest) = .ok (a, rest)

def Stops (d : Decoder α) (bs : Bytes) (fault : Fault) : Prop :=
  ∀ rest, d (bs ++ rest) = .error fault

theorem Reads.pure (a : α) : Reads (Pure.pure a) [] a := fun _ => rfl

theorem Reads.bind {d : Decoder α} {f : α → Decoder β} {bs cs : Bytes} {a : α} {b : β}
    (h : Reads d bs a) (hf : Reads (f a) cs b) : Reads (d >>= f) (bs ++ cs) b := by
  intro rest
  have hd := h (cs ++ rest)
  show (d (bs ++ cs ++ rest) >>= fun p => f p.1 p.2) = _
  rw [List.append_assoc, hd]
  exact hf rest

theorem Reads.map {d : Decoder α} {bs : Bytes} {a : α} (f : α → β) (h : Reads d bs a) :
    Reads (f <$> d) bs (f a) := by
  intro rest
  show (d (bs ++ rest) >>= fun p => Pure.pure (f p.1, p.2)) = _
  rw [h rest]
  rfl

theorem Reads.stops {d : Decoder α} {f : α → Decoder β} {bs cs : Bytes} {a : α} {fault : Fault}
    (h : Reads d bs a) (hf : Stops (f a) cs fault) : Stops (d >>= f) (bs ++ cs) fault := by
  intro rest
  have hd := h (cs ++ rest)
  show (d (bs ++ cs ++ rest) >>= fun p => f p.1 p.2) = _
  rw [List.append_assoc, hd]
  exact hf rest

theorem Stops.bind {d : Decoder α} {bs : Bytes} {fault : Fault} (f : α → Decoder β)
    (h : Stops d bs fault) : Stops (d >>= f) bs fault := by
  intro rest
  show (d (bs ++ rest) >>= fun p => f p.1 p.2) = _
  rw [h rest]
  rfl

theorem reads_takeOr {n : Nat} {bs : Bytes} (fault : Nat → Fault) (h : bs.length = n) :
    Reads (takeOr n fault) bs bs := by
  intro rest
  have hlen : ¬ (bs ++ rest).length < n := by
    rw [List.length_append]
    omega
  rw [run_takeOr, if_neg hlen, ← h, List.take_left, List.drop_left]

theorem reads_take {n : Nat} {bs : Bytes} (h : bs.length = n) : Reads (take n) bs bs :=
  reads_takeOr _ h

end Decoder

/-! ## Single fields -/

theorem toNat_ofNat_of_lt {k n : Nat} (h : n < Nat.pow 256 k) : (Bytes.ofNat k n).toNat = n := by
  rw [Bytes.toNat_ofNat, Nat.mod_eq_of_lt h]

theorem word_ofNat (n : UInt32) : Bytes.word (Bytes.ofNat 4 n.toNat) = n := by
  rw [Bytes.word, toNat_ofNat_of_lt n.toNat_lt, UInt32.ofNat_toNat]

theorem toNat_low31 (n : UInt32) : (low31 n).toNat = n.toNat % 2 ^ 31 := by
  rw [low31, UInt32.toNat_and]
  exact Nat.and_two_pow_sub_one_eq_mod n.toNat 31

@[simp] theorem low31_low31 (n : UInt32) : low31 (low31 n) = low31 n := by
  apply UInt32.toNat_inj.1
  rw [toNat_low31, toNat_low31, Nat.mod_mod]

theorem length_layoutId (id : UInt32) : (layoutId id).length = 4 := Bytes.length_ofNat 4 _

theorem low31_word_layoutId (id : UInt32) : low31 (Bytes.word (layoutId id)) = low31 id := by
  rw [layoutId, word_ofNat, low31_low31]

open Decoder in
theorem reads_word (n : UInt32) : Reads word (Bytes.ofNat 4 n.toNat) n := by
  have h := (reads_take (Bytes.length_ofNat 4 n.toNat)).map Bytes.word
  rw [word_ofNat] at h
  exact h

open Decoder in
theorem reads_decodeId (id : UInt32) : Reads decodeId (layoutId id) (low31 id) := by
  have h := (reads_word (low31 id)).map low31
  rw [low31_low31] at h
  exact h

open Decoder in
theorem reads_skipBlockPadding (v : Version) : Reads (skipBlockPadding v) (blockPadding v) () := by
  cases v with
  | v2 => exact (reads_take (n := 2) rfl).map fun _ => ()
  | v3 => exact Reads.pure ()

def clipPriority : Version → UInt8 → UInt8
  | .v2, p => p &&& 3
  | .v3, p => p &&& 7

theorem toNat_and_three (p : UInt8) : (p &&& 3).toNat = p.toNat % 4 := by
  rw [UInt8.toNat_and]
  exact Nat.and_two_pow_sub_one_eq_mod p.toNat 2

theorem toNat_and_seven (p : UInt8) : (p &&& 7).toNat = p.toNat % 8 := by
  rw [UInt8.toNat_and]
  exact Nat.and_two_pow_sub_one_eq_mod p.toNat 3

theorem priorityOfByte_priorityByte (v : Version) (p : UInt8) :
    priorityOfByte v (priorityByte v p) = clipPriority v p := by
  apply UInt8.toNat_inj.1
  cases v with
  | v2 =>
    show (((p &&& 3) <<< 6) >>> 6).toNat = (p &&& 3).toNat
    rw [UInt8.toNat_shiftRight, UInt8.toNat_shiftLeft, toNat_and_three]
    show ((p.toNat % 4) <<< 6 % 2 ^ 8) >>> 6 = _
    rw [Nat.shiftLeft_eq, Nat.shiftRight_eq_div_pow]
    omega
  | v3 =>
    show (((p &&& 7) <<< 5) >>> 5).toNat = (p &&& 7).toNat
    rw [UInt8.toNat_shiftRight, UInt8.toNat_shiftLeft, toNat_and_seven]
    show ((p.toNat % 8) <<< 5 % 2 ^ 8) >>> 5 = _
    rw [Nat.shiftLeft_eq, Nat.shiftRight_eq_div_pow]
    omega

namespace Setting

/-- A setting with the known id of its number, if there is one. -/
def normal (e : Setting) : Setting := { e with id := .ofCode e.id.code }

theorem length_layout (e : Setting) : e.layout.length = 8 := by
  simp [layout]

theorem ofBytes_layout {e : Setting} (h : e.id.code ≤ 0xffffff) : ofBytes e.layout = e.normal := by
  have hcode : e.id.code.toNat < Nat.pow 256 3 := by
    have hle : e.id.code.toNat ≤ 16777215 := UInt32.le_iff_toNat_le.1 h
    have hpow : Nat.pow 256 3 = 16777216 := rfl
    omega
  have hid : Bytes.word (Bytes.ofNat 3 e.id.code.toNat) = e.id.code := by
    rw [Bytes.word, toNat_ofNat_of_lt hcode, UInt32.ofNat_toNat]
  have hvalue : Bytes.word (Bytes.ofNat 4 e.value.toNat) = e.value := word_ofNat e.value
  show (⟨.ofCode (Bytes.word (Bytes.ofNat 3 e.id.code.toNat)), e.flags,
    Bytes.word (Bytes.ofNat 4 e.value.toNat)⟩ : Setting) = _
  rw [hid, hvalue]
  rfl

theorem length_flatMap_layout (entries : List Setting) :
    (entries.flatMap layout).length = entries.length * 8 := by
  induction entries with
  | nil => rfl
  | cons e entries ih =>
    rw [List.flatMap_cons, List.length_append, length_layout, ih, List.length_cons]
    omega

theorem listOfBytes_flatMap_layout {entries : List Setting}
    (h : ∀ e ∈ entries, e.id.code ≤ 0xffffff) :
    listOfBytes entries.length (entries.flatMap layout) = entries.map normal := by
  induction entries with
  | nil => rfl
  | cons e entries ih =>
    have htake : (e.layout ++ entries.flatMap layout).take 8 = e.layout := by
      rw [← e.length_layout, List.take_left]
    have hdrop : (e.layout ++ entries.flatMap layout).drop 8 = entries.flatMap layout := by
      rw [← e.length_layout, List.drop_left]
    rw [List.flatMap_cons, List.length_cons, listOfBytes, htake, hdrop,
      ofBytes_layout (h e List.mem_cons_self), ih fun e he => h e (List.mem_cons_of_mem _ he),
      List.map_cons]

end Setting

/-! ## Header blocks -/

namespace HeaderBlock

open Decoder

variable {v : Version}

theorem length_textBytes (s : String) : (textBytes s).length = s.utf8ByteSize := rfl

theorem fromUTF8?_textBytes (s : String) : String.fromUTF8? ⟨(textBytes s).toArray⟩ = some s := by
  have htext : (⟨(textBytes s).toArray⟩ : ByteArray) = s.toUTF8 := rfl
  rw [htext]
  simp only [String.fromUTF8?, String.toUTF8_eq_toByteArray, dif_pos s.isValidUTF8]
  rfl

theorem reads_decodeLength {n : Nat} (h : n < Nat.pow 256 (width v)) :
    Reads (decodeLength v) (Bytes.ofNat (width v) n) n := by
  have hread := (reads_takeOr (fun _ => .truncatedBlock) (Bytes.length_ofNat (width v) n)).map Bytes.toNat
  rw [toNat_ofNat_of_lt h] at hread
  exact hread

theorem reads_layoutField {s : String} (h : s.utf8ByteSize < Nat.pow 256 (width v)) :
    Reads (decodeField v) (layoutField v s) s := by
  have htext : Reads (takeOr s.utf8ByteSize fun _ => .fieldTooLong s.utf8ByteSize) (textBytes s)
      (textBytes s) := reads_takeOr _ rfl
  refine (reads_decodeLength h).bind ?_
  rw [← List.append_nil (textBytes s)]
  refine htext.bind ?_
  rw [fromUTF8?_textBytes]
  exact Reads.pure s

def layoutPairs (v : Version) (pairs : List (String × String)) : Bytes :=
  pairs.flatMap fun e => layoutField v e.1 ++ layoutField v e.2

theorem layout_eq (v : Version) (h : Headers) :
    layout v h = Bytes.ofNat (width v) h.size ++ layoutPairs v h.toList := by
  have hfields : ∀ pairs : List (String × String),
      (pairs.flatMap fun e => [e.1, e.2]).flatMap (layoutField v) = layoutPairs v pairs := by
    intro pairs
    rw [layoutPairs, List.flatMap_assoc]
    simp
  rw [layout, fields, hfields]

def FitPairs (v : Version) (pairs : List (String × String)) : Prop :=
  ∀ e ∈ pairs, e.1.utf8ByteSize < Nat.pow 256 (width v) ∧ e.2.utf8ByteSize < Nat.pow 256 (width v)

/-- The number of headers and their texts have room in a block. -/
structure Fits (v : Version) (h : Headers) : Prop where
  size : h.size < Nat.pow 256 (width v)
  pairs : FitPairs v h.toList

def Named (pairs : List (String × String)) : Prop := ∀ e ∈ pairs, e.1.isEmpty = false

instance (pairs : List (String × String)) : Decidable (Named pairs) := List.decidableBAll _ pairs

theorem named_nil : Named [] := fun _ he => absurd he List.not_mem_nil

theorem reads_layoutPairs {pairs : List (String × String)} {h g : Headers} (hfit : FitPairs v pairs)
    (hnamed : Named pairs) (hlower : ∀ e ∈ pairs, lowercase e.1 = e.1)
    (hg : g.toList = h.toList ++ pairs) :
    Reads (decodeEntries v pairs.length h) (layoutPairs v pairs) g := by
  induction pairs generalizing h with
  | nil =>
    have hsame : g = h := Headers.ext (hg.trans (List.append_nil _))
    rw [hsame]
    exact Reads.pure h
  | cons e pairs ih =>
    obtain ⟨name, value⟩ := e
    have hname := reads_layoutField (hfit _ List.mem_cons_self).1
    have hvalue := reads_layoutField (hfit _ List.mem_cons_self).2
    have hfilled : name.isEmpty = false := hnamed _ List.mem_cons_self
    have hrest : Reads (decodeEntries v pairs.length (h.add name value)) (layoutPairs v pairs) g := by
      apply ih (fun e he => hfit e (List.mem_cons_of_mem _ he))
        (fun e he => hnamed e (List.mem_cons_of_mem _ he))
        (fun e he => hlower e (List.mem_cons_of_mem _ he))
      have hl : lowercase name = name := hlower _ List.mem_cons_self
      rw [hg, Headers.toList_add, hl, List.append_assoc]
      rfl
    show Reads _ (layoutField v name ++ layoutField v value ++ layoutPairs v pairs) _
    rw [List.append_assoc, List.length_cons, decodeEntries]
    refine hname.bind ?_
    rw [hfilled]
    exact hvalue.bind hrest

theorem stops_layoutPairs {pairs : List (String × String)} {h : Headers} (hfit : FitPairs v pairs)
    (hnamed : ¬ Named pairs) :
    Stops (decodeEntries v pairs.length h) (layoutPairs v pairs) .emptyName := by
  induction pairs generalizing h with
  | nil => exact absurd named_nil hnamed
  | cons e pairs ih =>
    obtain ⟨name, value⟩ := e
    have hname := reads_layoutField (hfit _ List.mem_cons_self).1
    have hvalue := reads_layoutField (hfit _ List.mem_cons_self).2
    show Stops _ (layoutField v name ++ layoutField v value ++ layoutPairs v pairs) _
    rw [List.append_assoc, List.length_cons, decodeEntries]
    refine hname.stops ?_
    cases hempty : name.isEmpty with
    | true => exact fun _ => rfl
    | false =>
      have hlater : ¬ Named pairs := by
        intro hrest
        apply hnamed
        intro e he
        rcases List.mem_cons.1 he with rfl | he
        · exact hempty
        · exact hrest e he
      exact hvalue.stops (ih (fun e he => hfit e (List.mem_cons_of_mem _ he)) hlater)

/-- A block without an empty name is read as the header list it was made of. -/
theorem reads_layout {h : Headers} (hfit : Fits v h) (hnamed : Named h.toList) :
    Reads (decode v) (layout v h) h := by
  rw [layout_eq]
  refine (reads_decodeLength hfit.size).bind ?_
  exact reads_layoutPairs hfit.pairs hnamed (fun _ => Headers.mem_toList_lowercase) rfl

theorem stops_layout {h : Headers} (hfit : Fits v h) (hnamed : ¬ Named h.toList) :
    Stops (decode v) (layout v h) .emptyName := by
  rw [layout_eq]
  refine (reads_decodeLength hfit.size).stops ?_
  exact stops_layoutPairs hfit.pairs hnamed

/-! ### Room in a block -/

theorem length_layoutPairs (v : Version) (pairs : List (String × String)) :
    pairs.length ≤ (layoutPairs v pairs).length ∧
      ∀ e ∈ pairs, e.1.utf8ByteSize ≤ (layoutPairs v pairs).length ∧
        e.2.utf8ByteSize ≤ (layoutPairs v pairs).length := by
  have hwidth : 0 < width v := by cases v <;> decide
  induction pairs with
  | nil => exact ⟨Nat.le_refl 0, fun e he => absurd he List.not_mem_nil⟩
  | cons e pairs ih =>
    obtain ⟨hcount, hsizes⟩ := ih
    have hlen : (layoutPairs v (e :: pairs)).length =
        width v + e.1.utf8ByteSize + (width v + e.2.utf8ByteSize) + (layoutPairs v pairs).length := by
      simp only [layoutPairs, List.flatMap_cons, List.length_append, layoutField, Bytes.length_ofNat,
        length_textBytes]
    rw [hlen, List.length_cons]
    refine ⟨by omega, ?_⟩
    intro e' he
    rcases List.mem_cons.1 he with rfl | he
    · omega
    · have := hsizes e' he
      omega

/-- A block that is accepted has room for all it holds: in `SPDY/2` because nothing too wide is accepted, in
`SPDY/3` because lengths of four bytes have room for whatever fits in a frame. -/
theorem fits_of_accepted {h : Headers} (hrefusal : refusal? v h = none)
    (hlen : (layout v h).length ≤ maxFrameLength) : Fits v h := by
  cases v with
  | v2 =>
    have hpow : Nat.pow 256 (width .v2) = 0xffff + 1 := rfl
    rw [refusal?] at hrefusal
    split at hrefusal
    · cases hrefusal
    next hsize =>
    have hfind := List.find?_eq_none.1 (Option.map_eq_none_iff.1 hrefusal)
    have hfield : ∀ s ∈ fields h, s.utf8ByteSize < Nat.pow 256 (width .v2) := by
      intro s hs
      have := hfind s hs
      rw [decide_eq_true_eq] at this
      omega
    refine ⟨by omega, fun e he => ⟨hfield _ ?_, hfield _ ?_⟩⟩ <;>
      exact List.mem_flatMap.2 ⟨e, he, by simp⟩
  | v3 =>
    have hpow : Nat.pow 256 (width .v3) = 4294967296 := rfl
    have hmax : maxFrameLength = 16777215 := rfl
    obtain ⟨hcount, hsizes⟩ := length_layoutPairs .v3 h.toList
    rw [layout_eq, List.length_append] at hlen
    rw [Headers.length_toList] at hcount
    refine ⟨by omega, fun e he => ?_⟩
    have := hsizes e he
    omega

end HeaderBlock

end Spdy
