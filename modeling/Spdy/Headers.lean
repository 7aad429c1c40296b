/-!
# Header lists

* `lowercase` : a text with its ASCII capitals made small (`lowercase_lowercase`);
* `Headers` : name and value pairs in order of insertion, names in lower case; a name may occur
  more than once;
* `Headers.add`, `Headers.put`, `Headers.remove`, `Headers.get?` : `put` replaces the entries of
  its name, `add` joins them (`toList_add`, `toList_put`, `toList_remove`).
-/

namespace Spdy

/-! ## Case -/

/-- The text with its ASCII capitals made small; other characters stay. -/
def lowercase (s : String) : String := s.map Char.toLower

theorem toLower_toLower (c : Char) : c.toLower.toLower = c.toLower := by
  by_cases h : c.val ≥ 'A'.val ∧ c.val ≤ 'Z'.val
  · have low : c.toLower.val = c.val + ('a'.val - 'A'.val) := congrArg Char.val (dif_pos h)
    have not_upper : ¬ (c.toLower.val ≥ 'A'.val ∧ c.toLower.val ≤ 'Z'.val) := by
      rw [low]
      have h1 : (65 : Nat) ≤ c.val.toNat := UInt32.le_iff_toNat_le.1 h.1
      have h2 : c.val.toNat ≤ 90 := UInt32.le_iff_toNat_le.1 h.2
      rintro ⟨-, h3⟩
      have h4 : (c.val + 32).toNat ≤ 90 := UInt32.le_iff_toNat_le.1 h3
      rw [UInt32.toNat_add] at h4
      have h5 : (32 : UInt32).toNat = 32 := rfl
      omega
    exact dif_neg not_upper
  · have low : c.toLower = c := dif_neg h
    rw [low, low]

@[simp] theorem lowercase_lowercase (s : String) : lowercase (lowercase s) = lowercase s := by
  simp only [lowercase, String.map_map, Function.comp_def, toLower_toLower]

/-! ## The list -/

/-- Name and value pairs in order of insertion. Names are kept in lower case. -/
structure Headers where
  entries : Array (String × String)
  lowercase_name : ∀ e ∈ entries, lowercase e.1 = e.1
deriving DecidableEq

namespace Headers

def empty : Headers := ⟨#[], by simp⟩

instance : Inhabited Headers := ⟨empty⟩

def toList (h : Headers) : List (String × String) := h.entries.toList

def size (h : Headers) : Nat := h.entries.size

def isEmpty (h : Headers) : Bool := h.entries.isEmpty

/-- Append a pair, beside those that the name may already have. -/
def add (h : Headers) (name value : String) : Headers where
  entries := h.entries.push (lowercase name, value)
  lowercase_name e he := by
    rcases Array.mem_push.1 he with he | rfl
    · exact h.lowercase_name e he
    · simp

/-- Keep the pairs whose name passes a test. -/
def filter (p : String → Bool) (h : Headers) : Headers where
  entries := h.entries.filter fun e => p e.1
  lowercase_name e he := h.lowercase_name e (Array.mem_filter.1 he).1

/-- Replace the pairs of a name by one, at the end. -/
def put (h : Headers) (name value : String) : Headers :=
  (h.filter (· != lowercase name)).add name value

/-- Drop the pairs of a name, whatever its case, and tell whether there were any. -/
def remove (h : Headers) (name : String) : Bool × Headers :=
  let rest := h.filter (lowercase · != lowercase name)
  (rest.size != h.size, rest)

/-- The oldest value of a name, whatever its case. -/
def get? (h : Headers) (name : String) : Option String :=
  (h.entries.find? (lowercase ·.1 == lowercase name)).map Prod.snd

def ofList (pairs : List (String × String)) : Headers :=
  pairs.foldl (fun h e => h.add e.1 e.2) empty

/-! ## What each operation does to the pairs -/

@[ext] theorem ext {g h : Headers} (e : g.toList = h.toList) : g = h := by
  cases g with | mk a _ => cases h with | mk b _ =>
  cases Array.toList_inj.1 e
  rfl

@[simp] theorem toList_empty : empty.toList = [] := rfl

@[simp] theorem length_toList (h : Headers) : h.toList.length = h.size := rfl

theorem mem_toList_lowercase {h : Headers} {e : String × String} (he : e ∈ h.toList) :
    lowercase e.1 = e.1 := h.lowercase_name e (Array.mem_toList_iff.1 he)

@[simp] theorem toList_add (h : Headers) (name value : String) :
    (h.add name value).toList = h.toList ++ [(lowercase name, value)] := by
  simp [toList, add]

@[simp] theorem toList_filter (p : String → Bool) (h : Headers) :
    (h.filter p).toList = h.toList.filter fun e => p e.1 := by
  simp [toList, filter]

theorem toList_put (h : Headers) (name value : String) :
    (h.put name value).toList =
      h.toList.filter (·.1 != lowercase name) ++ [(lowercase name, value)] := by
  simp [put]

theorem toList_remove (h : Headers) (name : String) :
    (h.remove name).2.toList = h.toList.filter (lowercase ·.1 != lowercase name) := by
  simp [remove]

theorem get?_eq (h : Headers) (name : String) :
    h.get? name = (h.toList.find? (lowercase ·.1 == lowercase name)).map Prod.snd := by
  simp [get?, toList]

end Headers

end Spdy
