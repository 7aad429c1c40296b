/-!
# Protocol versions

* `Version` : the two versions a session speaks, `SPDY/2` and `SPDY/3`;
* `Version.code`, `Version.ofCode?` : the number in a control frame's header;
* `Version.text` : the name on the wire's documents, `Version.tag` : the short name.
-/

namespace Spdy

/-- A version of the protocol. -/
inductive Version
  | v2
  | v3
deriving DecidableEq, Inhabited

namespace Version

/-- The number that stands for the version in a control frame. -/
def code : Version → Nat
  | v2 => 2
  | v3 => 3

def ofCode? : Nat → Option Version
  | 2 => some v2
  | 3 => some v3
  | _ => none

def text : Version → String
  | v2 => "SPDY/2"
  | v3 => "SPDY/3"

def tag : Version → String
  | v2 => "V2"
  | v3 => "V3"

def lowest : Version := v2

def preferred : Version := v3

instance : LT Version := ⟨fun a b => a.code < b.code⟩

instance (a b : Version) : Decidable (a < b) := inferInstanceAs (Decidable (a.code < b.code))

theorem ofCode?_eq_some_iff {n : Nat} {v : Version} : ofCode? n = some v ↔ v.code = n := by
  constructor
  · intro h
    unfold ofCode? at h
    split at h <;> cases h <;> rfl
  · rintro rfl
    cases v <;> rfl

end Version

end Spdy
