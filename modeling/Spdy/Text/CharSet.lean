/-!
# Sets of characters

* `CharSet` : a set of characters, as ranges of code points;
* `CharSet.contains` : whether a character is in a set.
-/

namespace Spdy

/-- A set of characters: the first and the last code point of each range. -/
abbrev CharSet := List (Nat × Nat)

def CharSet.contains (s : CharSet) (c : Char) : Bool := s.any fun r => r.1 ≤ c.toNat && c.toNat ≤ r.2

end Spdy
