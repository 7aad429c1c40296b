import Mathlib.Data.List.Forall2
import Spdy.Headers

/-!
# Headers are a multimap

Names are looked up whatever their case, entries are kept in the order in which they are made, and a name may have more
than one. Entries are made and dropped by calls; an entry is there as long as no later call drops what its name has.

* `SameName` : texts that differ in the case of ASCII letters only (`lowercase_eq_iff`);
* `Headers.Change` : a call that changes headers; `Headers.toList_apply` : what it does to the entries;
* `Headers.surviving` : the entries that calls make and no later call drops (`Headers.toList_ofChanges`), and there are no
  headers but of calls (`Headers.exists_ofChanges`);
* `Headers.ordered_multimap` : what headers are after any calls, and what one more call does.
-/

namespace Spdy

/-! ## Names in any case -/

/-- Two characters are the same, or one ASCII letter in both cases. -/
def SameLetter (c d : Char) : Prop :=
  c = d ∨ (c.isUpper ∧ d.toNat = c.toNat + 32) ∨ (d.isUpper ∧ c.toNat = d.toNat + 32)

/-- Two texts differ in the case of ASCII letters only. -/
def SameName (a b : String) : Prop := List.Forall₂ SameLetter a.toList b.toList

instance : DecidableRel SameLetter := fun c d => inferInstanceAs (Decidable (c = d ∨ _ ∨ _))

instance : DecidableRel SameName := fun a b => inferInstanceAs (Decidable (List.Forall₂ _ a.toList b.toList))

theorem isUpper_iff (c : Char) : c.isUpper ↔ 65 ≤ c.toNat ∧ c.toNat ≤ 90 := by
  have hcode : c.isUpper = decide ((65 : UInt32) ≤ c.val ∧ c.val ≤ (90 : UInt32)) := rfl
  rw [hcode, decide_eq_true_eq, UInt32.le_iff_toNat_le, UInt32.le_iff_toNat_le]
  rfl

theorem toNat_toLower (c : Char) : c.toLower.toNat = if c.isUpper then c.toNat + 32 else c.toNat := by
  split
  · next h =>
    obtain ⟨low, high⟩ := (isUpper_iff c).1 h
    have hlower : c.toLower.val = c.val + 32 :=
      congrArg Char.val (dif_pos ⟨UInt32.le_iff_toNat_le.2 low, UInt32.le_iff_toNat_le.2 high⟩)
    have hadd : c.toLower.toNat = (c.toNat + 32) % 2 ^ 32 :=
      (congrArg UInt32.toNat hlower).trans (UInt32.toNat_add _ _)
    omega
  · next h =>
    refine congrArg Char.toNat (dif_neg fun hrange => h ((isUpper_iff c).2 ?_))
    exact ⟨UInt32.le_iff_toNat_le.1 hrange.1, UInt32.le_iff_toNat_le.1 hrange.2⟩

theorem toLower_eq_iff (c d : Char) : c.toLower = d.toLower ↔ SameLetter c d := by
  simp only [SameLetter, ← Char.toNat_inj, toNat_toLower, isUpper_iff]
  split <;> split <;> omega

theorem lowercase_eq_iff (a b : String) : lowercase a = lowercase b ↔ SameName a b := by
  rw [SameName, ← String.toList_inj, lowercase, lowercase, String.toList_map, String.toList_map,
    ← List.forall₂_eq_eq_eq, List.forall₂_map_left_iff, List.forall₂_map_right_iff]
  simp only [toLower_eq_iff]

theorem sameName_lowercase (a b : String) : SameName a (lowercase b) ↔ SameName a b := by
  rw [← lowercase_eq_iff, ← lowercase_eq_iff, lowercase_lowercase]

theorem isUpper_of_lowercase_eq {s : String} (h : lowercase s = s) : ∀ c ∈ s.toList, c.isUpper = false := by
  intro c hc
  have hmap : s.toList.map Char.toLower = s.toList := by
    rw [← String.toList_map]
    exact congrArg String.toList h
  have hsame : c.toLower = c := List.map_inj_left.1 (hmap.trans (List.map_id _).symm) c hc
  refine Bool.eq_false_iff.2 fun hup => ?_
  have hnat := toNat_toLower c
  rw [hsame, if_pos hup] at hnat
  omega

namespace Headers

/-! ## Calls -/

/-- A call that changes headers. -/
inductive Change
  | add (name value : String)
  | put (name value : String)
  | remove (name : String)
deriving DecidableEq

namespace Change

def apply (h : Headers) : Change → Headers
  | add name value => h.add name value
  | put name value => h.put name value
  | remove name => (h.remove name).2

def name : Change → String
  | add name _ | put name _ | remove name => name

/-- The entry that a call makes, with the name as the call has it. -/
def entry? : Change → Option (String × String)
  | add name value | put name value => some (name, value)
  | remove _ => none

/-- Whether a call drops the entries of a name. -/
def drops (c : Change) (name : String) : Bool :=
  match c with
  | add .. => false
  | put own _ | remove own => decide (SameName own name)

theorem drops_lowercase (c : Change) (name : String) : c.drops (lowercase name) = c.drops name := by
  cases c with
  | add => rfl
  | put own _ | remove own => exact decide_eq_decide.2 (sameName_lowercase own name)

end Change

def ofChanges (calls : List Change) : Headers := calls.foldl Change.apply empty

/-- The entries that calls make and no later call drops, in order, with names as the calls have them. -/
def surviving : List Change → List (String × String)
  | [] => []
  | c :: later => (c.entry?.filter fun e => !later.any (·.drops e.1)).toList ++ surviving later

def stored (e : String × String) : String × String := (lowercase e.1, e.2)

/-! ## What calls do to the entries -/

variable (h : Headers)

/-- Dropping compares names as they are stored, which is to compare them whatever their case. -/
theorem filter_bne_lowercase (name : String) :
    h.toList.filter (·.1 != lowercase name) = h.toList.filter fun e => !decide (SameName name e.1) := by
  apply List.filter_congr
  intro e he
  have hiff : e.1 = lowercase name ↔ SameName name e.1 := by
    rw [← lowercase_eq_iff, mem_toList_lowercase he, eq_comm]
  rw [bne, Bool.not_inj_iff, beq_eq_decide]
  exact decide_eq_decide.2 hiff

theorem toList_apply (c : Change) :
    (c.apply h).toList = (h.toList.filter fun e => !c.drops e.1) ++ c.entry?.toList.map stored := by
  cases c with
  | add name value => simp [Change.apply, Change.drops, Change.entry?, stored]
  | put name value => simp [Change.apply, Change.drops, Change.entry?, stored, toList_put, filter_bne_lowercase]
  | remove name =>
    have hlower : ∀ e ∈ h.toList, (lowercase e.1 != lowercase name) = (e.1 != lowercase name) := fun e he => by
      rw [mem_toList_lowercase he]
    simp [Change.apply, Change.drops, Change.entry?, toList_remove, List.filter_congr hlower, filter_bne_lowercase]

/-- The entries after some calls: those that no call drops, and those of the calls that no later one drops. -/
theorem toList_foldl (calls : List Change) :
    (calls.foldl Change.apply h).toList =
      (h.toList.filter fun e => !calls.any (·.drops e.1)) ++ (surviving calls).map stored := by
  induction calls generalizing h with
  | nil => simp [surviving]
  | cons c later ih =>
    have hentry : (c.entry?.toList.map stored).filter (fun e => !later.any (·.drops e.1)) =
        (c.entry?.filter fun e => !later.any (·.drops e.1)).toList.map stored := by
      cases c.entry? with
      | none => rfl
      | some e =>
        have hdrops : later.any (·.drops (stored e).1) = later.any (·.drops e.1) := by
          simp only [stored, Change.drops_lowercase]
        rw [Option.toList_some, List.map_singleton, List.filter_cons, List.filter_nil, hdrops, Option.filter_some]
        split <;> rfl
    rw [List.foldl_cons, ih, toList_apply, List.filter_append, List.filter_filter, hentry, surviving, List.map_append,
      List.append_assoc]
    simp only [List.any_cons, Bool.not_or, Bool.and_comm]

theorem toList_ofChanges (calls : List Change) : (ofChanges calls).toList = (surviving calls).map stored := by
  rw [ofChanges, toList_foldl, toList_empty, List.filter_nil, List.nil_append]

theorem exists_ofChanges : ∃ calls, h = ofChanges calls := by
  refine ⟨h.toList.map fun e => .add e.1 e.2, ext ?_⟩
  have hsurviving : ∀ entries : List (String × String),
      surviving (entries.map fun e => .add e.1 e.2) = entries := by
    intro entries
    induction entries with
    | nil => rfl
    | cons e rest ih =>
      have hany : ((rest.map fun e => Change.add e.1 e.2).any (·.drops e.1)) = false := by simp [Change.drops]
      simp only [List.map_cons, surviving, Change.entry?, Option.filter_some, hany, ih]
      rfl
  have hstored : ∀ e ∈ h.toList, stored e = e := fun e he => Prod.ext (mem_toList_lowercase he) rfl
  rw [toList_ofChanges, hsurviving, List.map_congr_left hstored, List.map_id']

/-! ## Looking up -/

theorem get?_eq_find? (name : String) :
    h.get? name = (h.toList.find? fun e => SameName e.1 name).map Prod.snd := by
  rw [get?_eq]
  congr 2
  funext e
  rw [beq_eq_decide]
  exact decide_eq_decide.2 (lowercase_eq_iff e.1 name)

theorem put_eq_add_remove (name value : String) : h.put name value = (h.remove name).2.add name value := by
  apply ext
  have hput := h.toList_apply (.put name value)
  have hremove := h.toList_apply (.remove name)
  simp only [Change.apply, Change.entry?, Option.toList_none, List.map_nil, List.append_nil] at hput hremove
  rw [hput, toList_add, hremove]
  rfl

/-- A call does not change what is found under a name other than its own. -/
theorem get?_apply_of_not_sameName (c : Change) {name : String} (other : ¬SameName c.name name) :
    (c.apply h).get? name = h.get? name := by
  have hkept : ∀ e : String × String, SameName e.1 name → c.drops e.1 = false := by
    intro e he
    cases c with
    | add => rfl
    | put own _ | remove own =>
      refine decide_eq_false fun hown => other ?_
      rw [← lowercase_eq_iff] at hown he ⊢
      exact hown.trans he
  have hnew : ∀ e ∈ c.entry?.toList.map stored, ¬SameName e.1 name := by
    intro e he
    cases c with
    | add own value | put own value =>
      obtain rfl := List.mem_singleton.1 he
      rwa [← lowercase_eq_iff, stored, lowercase_lowercase, lowercase_eq_iff]
    | remove own => cases he
  have hnone : (c.entry?.toList.map stored).find? (fun e => decide (SameName e.1 name)) = none :=
    List.find?_eq_none.2 fun e he => by simpa using hnew e he
  rw [get?_eq_find?, get?_eq_find?, toList_apply, List.find?_append, List.find?_filter, hnone, Option.or_none]
  congr 2
  funext e
  by_cases he : SameName e.1 name
  · simp [he, hkept e he]
  · simp [he]

theorem remove_iff_size (name : String) : (h.remove name).1 ↔ (h.remove name).2.size ≠ h.size := bne_iff_ne

/-- There are less entries afterwards if something is found before. -/
theorem remove_iff_isSome (name : String) : (h.remove name).1 ↔ (h.get? name).isSome := by
  rw [remove_iff_size, ← length_toList, ← length_toList, toList_remove, Ne, List.length_filter_eq_length_iff, get?_eq,
    Option.isSome_map, List.find?_isSome]
  simp

/-- Headers after any calls, and what one more call does. No stored name has an ASCII capital. The entries are those
that calls made and no later call dropped, in the order in which they were made, and what is found under a name is the
value of the first of them whose call had this name in any case. A call keeps the entries of other names in their order
and adds its own at the end, so that what is found under other names stays. To put an entry is to remove those of its
name and to add it, though the one compares names as they are and the other does not; and removing tells whether
something was found before, which is whether there are fewer entries afterwards. -/
theorem ordered_multimap (calls : List Change) :
    (∀ e ∈ (ofChanges calls).toList, ∀ c ∈ e.1.toList, c.isUpper = false) ∧
      (ofChanges calls).toList = (surviving calls).map (fun e => (lowercase e.1, e.2)) ∧
      (∀ name, (ofChanges calls).get? name =
        ((surviving calls).find? fun e => SameName e.1 name).map Prod.snd) ∧
      (∀ c : Change, (c.apply (ofChanges calls)).toList =
        ((ofChanges calls).toList.filter fun e => !c.drops e.1) ++
          c.entry?.toList.map fun e => (lowercase e.1, e.2)) ∧
      (∀ (c : Change) (name : String), ¬SameName c.name name →
        (c.apply (ofChanges calls)).get? name = (ofChanges calls).get? name) ∧
      (∀ name value, (ofChanges calls).put name value = ((ofChanges calls).remove name).2.add name value) ∧
      ∀ name, (((ofChanges calls).remove name).1 ↔ ((ofChanges calls).get? name).isSome) ∧
        (((ofChanges calls).remove name).1 ↔ ((ofChanges calls).remove name).2.size ≠ (ofChanges calls).size) := by
  refine ⟨fun e he => isUpper_of_lowercase_eq (mem_toList_lowercase he), toList_ofChanges calls, fun name => ?_,
    toList_apply _, fun c name => get?_apply_of_not_sameName _ c, put_eq_add_remove _,
    fun name => ⟨remove_iff_isSome _ name, remove_iff_size _ name⟩⟩
  have hname : ((fun e => decide (SameName e.1 name)) ∘ stored) = fun e => decide (SameName e.1 name) := by
    funext e
    exact decide_eq_decide.2 (by rw [stored, ← lowercase_eq_iff, lowercase_lowercase, lowercase_eq_iff])
  rw [get?_eq_find?, toList_ofChanges, List.find?_map, hname, Option.map_map]
  rfl

/-- Two names that differ in a letter beyond ASCII are different, and the empty name is one like any other. -/
theorem ordered_multimap_beyond_ascii : ∃ calls : List Change,
    calls = [.add "Host" "a", .add "É" "b", .add "HOST" "c", .add "" "d", .put "é" "e", .add "hOst" "f", .remove "x"] ∧
      surviving calls = [("Host", "a"), ("É", "b"), ("HOST", "c"), ("", "d"), ("é", "e"), ("hOst", "f")] ∧
      (ofChanges calls).get? "hosT" = some "a" ∧ ¬SameName (Change.put "HOST" "g").name "É" ∧
      ((ofChanges calls).put "HOST" "g").get? "É" = (ofChanges calls).get? "É" ∧
      ((ofChanges calls).put "HOST" "g").toList = [("É", "b"), ("", "d"), ("é", "e"), ("host", "g")] := by
  refine ⟨_, rfl, by decide, ?_, by decide, ?_, ?_⟩
  · rw [(ordered_multimap _).2.2.1]
    decide
  · exact (ordered_multimap _).2.2.2.2.1 (.put "HOST" "g") "É" (by decide)
  · refine ((ordered_multimap _).2.2.2.1 (.put "HOST" "g")).trans ?_
    rw [(ordered_multimap _).2.1]
    decide +kernel

end Headers

end Spdy
