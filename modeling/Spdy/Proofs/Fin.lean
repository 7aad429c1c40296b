import Mathlib.Data.List.Basic
import Spdy.Proofs.Passage

/-!
# FIN

* `carriesFin` : whether a frame says that nothing follows on its stream;
* `OnlyLast` : nothing but the last is true;
* `framesOf`, `headFramesOf` : the frames that were handed over for a stream, and the control frames among
  them;
* `sentFins`, `sentHeadFins`, `Session.restFins`, `Session.queuedFins`, `Session.queuedHeadFins` : which of
  the frames that were handed over and of the parcels to come say that nothing follows.
-/

namespace Spdy

/-! ## FIN on the wire -/

/-- Whether a frame says that nothing follows on its stream. -/
def carriesFin (frame : Bytes) : Bool := Flag.has (frame.getD 4 0) Flag.fin

theorem getD_flags (a b : Bytes) (flags : UInt8) (h : a.length = 4) :
    (a ++ flags :: b).getD 4 0 = flags := by
  rw [List.getD_eq_getElem?_getD, List.getElem?_append_right (Nat.le_of_eq h), h]
  rfl

theorem carriesFin_of_encode {f : ControlFrame} {bytes : Bytes} (hf : f.body.isHead)
    (h : f.encode = .ok bytes) : carriesFin bytes = f.body.closes := by
  have hflags : f.body.closes = Flag.has f.body.flags Flag.fin := by
    cases hb : f.body <;> simp_all [Body.isHead, Body.closes, Body.flags]
  unfold ControlFrame.encode at h
  split at h
  · cases h
  · dsimp only at h
    split at h
    · cases h
    · cases h
      rw [carriesFin, hflags, ControlFrame.header, List.append_assoc, List.cons_append, getD_flags]
      simp

theorem DataFrame.carriesFin_encode (f : DataFrame) : carriesFin f.encode = f.closes := by
  rw [carriesFin, DataFrame.encode, List.append_assoc, List.cons_append, getD_flags]
  · rfl
  · simp [layoutId]

/-- The frame of a parcel's data carries FIN if it takes the last byte of data that closes. -/
theorem carriesFin_chunk {cap : Nat} {id : UInt32} {window : Int} {payload rest : Payload}
    {frame : DataFrame} (h : payload.chunk cap id window = (frame, rest)) :
    carriesFin frame.encode = (rest.isEmpty && payload.close) ∧ rest.close = payload.close := by
  obtain ⟨rfl, rfl⟩ := Prod.mk.inj h
  refine ⟨?_, rfl⟩
  rw [DataFrame.carriesFin_encode, DataFrame.closes, Flag.has_when_fin]

/-! ## Nothing but the last -/

def OnlyLast (l : List Bool) : Prop := l.Pairwise fun a _ => a = false

namespace OnlyLast

variable {l x y : List Bool} {b : Bool}

theorem of_false (h : ∀ a ∈ l, a = false) : OnlyLast l := by
  induction l with
  | nil => exact .nil
  | cons a l ih =>
    refine List.pairwise_cons.2 ⟨fun _ _ => h a List.mem_cons_self, ih fun b hb => ?_⟩
    exact h b (List.mem_cons_of_mem a hb)

theorem append_cons_iff : OnlyLast (x ++ b :: y) ↔ (∀ a ∈ x, a = false) ∧ OnlyLast (b :: y) := by
  rw [OnlyLast, List.pairwise_append]
  constructor
  · rintro ⟨-, hy, h⟩
    exact ⟨fun a ha => h a ha b List.mem_cons_self, hy⟩
  · rintro ⟨hx, hy⟩
    exact ⟨of_false hx, hy, fun a ha _ _ => hx a ha⟩

theorem cons_false_iff : OnlyLast (false :: y) ↔ OnlyLast y := by
  rw [OnlyLast, List.pairwise_cons]
  exact ⟨fun h => h.2, fun h => ⟨fun _ _ => rfl, h⟩⟩

theorem eq_nil_of_cons_true (h : OnlyLast (true :: y)) : y = [] := by
  cases y with
  | nil => rfl
  | cons c y => cases (List.pairwise_cons.1 h).1 c List.mem_cons_self

theorem append_of_false (hx : ∀ a ∈ x, a = false) (hy : OnlyLast y) : OnlyLast (x ++ y) :=
  List.pairwise_append.2 ⟨of_false hx, hy, fun a ha _ _ => hx a ha⟩

theorem append_singleton (hx : ∀ a ∈ x, a = false) (b : Bool) : OnlyLast (x ++ [b]) :=
  append_of_false hx (List.pairwise_singleton _ b)

theorem advance (h : OnlyLast (l ++ (x ++ false :: y))) : OnlyLast (l ++ false :: (x ++ y)) := by
  rw [← List.append_assoc] at h
  obtain ⟨hlx, hy⟩ := append_cons_iff.1 h
  refine append_cons_iff.2 ⟨fun a ha => hlx a (List.mem_append_left _ ha), ?_⟩
  refine cons_false_iff.2 (append_of_false (fun a ha => hlx a (List.mem_append_right _ ha)) ?_)
  exact cons_false_iff.1 hy

/-- What says nothing last may come later, if nothing that it lets pass does. -/
theorem retreat (hx : ∀ a ∈ x, a = false) (h : OnlyLast (l ++ false :: (x ++ y))) :
    OnlyLast (l ++ (x ++ false :: y)) := by
  obtain ⟨hl, hxy⟩ := append_cons_iff.1 h
  refine append_of_false hl (append_of_false hx ?_)
  exact cons_false_iff.2 ((cons_false_iff.1 hxy).sublist (List.sublist_append_right x y))

end OnlyLast

/-! ## Frames of a stream -/

/-- The frames that were handed over for a stream, with their handlers. -/
def framesOf (r : StreamRef) (past : List Moment) : List (Bytes × Handler) :=
  (past.filterMap Moment.handed?).filter fun f => f.2.parcel.stream? = some r

/-- The control frames among them: they open the stream or carry headers. -/
def headFramesOf (r : StreamRef) (past : List Moment) : List (Bytes × Handler) :=
  (framesOf r past).filter fun f => f.2.parcel.dataOf?.isNone

/-- Which of the frames that were handed over for a stream carry FIN. -/
def sentFins (r : StreamRef) (past : List Moment) : List Bool :=
  (framesOf r past).map fun f => carriesFin f.1

/-- Which of the control frames that were handed over for a stream carry FIN. -/
def sentHeadFins (r : StreamRef) (past : List Moment) : List Bool :=
  (headFramesOf r past).map fun f => carriesFin f.1

namespace Parcel

/-- Whether a parcel is to close a stream, if it speaks for the stream. -/
def fin? (r : StreamRef) : Parcel → Option Bool
  | .control _ bytes r' => if r' = some r then some (carriesFin bytes) else none
  | .data r' payload _ => if r' = r then some payload.close else none

def headFin? (r : StreamRef) : Parcel → Option Bool
  | .control _ bytes r' => if r' = some r then some (carriesFin bytes) else none
  | .data .. => none

def restFin? (r : StreamRef) : Parcel → Option Bool
  | .control .. => none
  | .data r' payload _ => if r' = r ∧ payload.bytes ≠ [] then some payload.close else none

variable {r : StreamRef} {q : Parcel}

theorem fin?_of_ne (h : q.stream? ≠ some r) : q.fin? r = none := by
  cases q <;> simp_all [fin?, stream?]

theorem headFin?_of_ne (h : q.stream? ≠ some r) : q.headFin? r = none := by
  cases q <;> simp_all [headFin?, stream?]

theorem restFin?_of_ne (h : q.stream? ≠ some r) : q.restFin? r = none := by
  cases q <;> simp_all [restFin?, stream?]

theorem fin?_eq_headFin? (h : q.dataOf? ≠ some r) : q.fin? r = q.headFin? r := by
  cases q with
  | control => rfl
  | data r' payload written => exact if_neg fun he => h (congrArg some he)

/-- Where there is no data of a stream, only control frames are to close it. -/
theorem filterMap_fin?_of_clear {l : List Parcel} (h : ∀ q ∈ l, q.dataOf? ≠ some r) :
    l.filterMap (·.fin? r) = l.filterMap (·.headFin? r) :=
  List.filterMap_congr fun q hq => fin?_eq_headFin? (h q hq)

end Parcel

namespace Session

def queuedFins (s : Session) (r : StreamRef) : List Bool := s.outbox.parcels.filterMap (·.fin? r)

/-- Which of the control frames that wait for a stream are to close it. -/
def queuedHeadFins (s : Session) (r : StreamRef) : List Bool :=
  s.outbox.parcels.filterMap (·.headFin? r)

/-- Whether the rest of data that is being written is to close its stream. -/
def restFins (s : Session) (r : StreamRef) : List Bool :=
  s.outstanding.filterMap (·.parcel.restFin? r)

end Session

section Frames

variable {r : StreamRef} {past : List Moment} {mo : Moment}

theorem framesOf_append_of_none (h : mo.handed? = none) :
    framesOf r (past ++ [mo]) = framesOf r past := by
  simp [framesOf, List.filterMap_append, h]

theorem framesOf_append_of_some {bytes : Bytes} {x : Handler} (h : mo.handed? = some (bytes, x)) :
    framesOf r (past ++ [mo]) =
      framesOf r past ++ if x.parcel.stream? = some r then [(bytes, x)] else [] := by
  rw [framesOf, List.filterMap_append, List.filter_append, ← framesOf]
  by_cases hr : x.parcel.stream? = some r <;> simp [h, hr]

theorem sentFins_append_of_none (h : mo.handed? = none) :
    sentFins r (past ++ [mo]) = sentFins r past := by
  rw [sentFins, framesOf_append_of_none h, sentFins]

theorem sentFins_append_of_some (r : StreamRef) (past : List Moment) {bytes : Bytes} {x : Handler}
    (h : mo.handed? = some (bytes, x)) :
    sentFins r (past ++ [mo]) =
      sentFins r past ++ if x.parcel.stream? = some r then [carriesFin bytes] else [] := by
  rw [sentFins, framesOf_append_of_some h, List.map_append, ← sentFins]
  by_cases hr : x.parcel.stream? = some r <;> simp [hr]

theorem sentHeadFins_append_of_none (h : mo.handed? = none) :
    sentHeadFins r (past ++ [mo]) = sentHeadFins r past := by
  rw [sentHeadFins, headFramesOf, framesOf_append_of_none h, ← headFramesOf, ← sentHeadFins]

theorem sentHeadFins_append_of_data {bytes : Bytes} {x : Handler} {r' : StreamRef} {payload : Payload}
    {written : Nat} (h : mo.handed? = some (bytes, x)) (hx : x.parcel = .data r' payload written) :
    sentHeadFins r (past ++ [mo]) = sentHeadFins r past := by
  rw [sentHeadFins, headFramesOf, framesOf_append_of_some h, List.filter_append, ← headFramesOf,
    List.map_append, ← sentHeadFins]
  by_cases hr : x.parcel.stream? = some r <;> simp [hx, Parcel.dataOf?]

theorem sentHeadFins_append_of_control {bytes bytes' : Bytes} {x : Handler} {type : FrameType}
    {r' : Option StreamRef} (h : mo.handed? = some (bytes, x))
    (hx : x.parcel = .control type bytes' r') :
    sentHeadFins r (past ++ [mo]) =
      sentHeadFins r past ++ if r' = some r then [carriesFin bytes] else [] := by
  rw [sentHeadFins, headFramesOf, framesOf_append_of_some h, List.filter_append, ← headFramesOf,
    List.map_append, ← sentHeadFins]
  by_cases hr : r' = some r <;> simp [hr, hx, Parcel.dataOf?, Parcel.stream?]

end Frames

end Spdy
