import Spdy.Text.Invisible
import Spdy.Text.Mark
import Spdy.Text.Unassigned

/-!
# Quoted texts

* `Quoted.encode` : a text between quotation marks, with all that would not show for itself
  escaped.
-/

namespace Spdy

namespace Quoted

/-- Whether a character does not show for itself: it is invisible, is drawn on the character before
it, or is none. -/
def isUnseen (c : Char) : Bool :=
  CharSet.controls.contains c || CharSet.ignorable.contains c || CharSet.marks.contains c ||
    CharSet.unassigned.contains c

def escape (c : Char) : String :=
  match c with
  | '"' => "\\\""
  | '\\' => "\\\\"
  | '\n' => "\\n"
  | '\r' => "\\r"
  | '\t' => "\\t"
  | '\x00' => "\\0"
  | c =>
    if isUnseen c then "\\u\x7b" ++ String.ofList (Nat.toDigits 16 c.toNat) ++ "\x7d"
    else c.toString

/-- A text between quotation marks. -/
def encode (s : String) : String := "\"" ++ String.join (s.toList.map escape) ++ "\""

end Quoted

end Spdy
