import Spdy.Frame

/-!
# Messages

What an application hands to a session to send, and what a session hands to its listeners.

* `Opening` : the request to open a stream;
* `Head` : headers that follow on an open stream, in a reply or later;
* `SettingsMessage` : a list of settings;
* `Payload` : data, of which a prefix can be taken (`Payload.take`, `Payload.drop`).
-/

namespace Spdy

/-- The request to open a stream. Nothing follows from the side that opens if `close`, nothing is to follow from the
other side if `unidirectional`. The stream may belong to another one (`associatedId`, or 0); priority 0 is the most
urgent. -/
structure Opening where
  headers : Headers
  close : Bool
  unidirectional : Bool
  associatedId : UInt32
  priority : UInt8
deriving DecidableEq, Inhabited

namespace Opening

/-- A stream of the highest priority, on its own and open in both directions for answers. -/
def plain (headers : Headers) (close : Bool) : Opening :=
  { headers, close, unidirectional := false, associatedId := 0, priority := 0 }

def withPriority (o : Opening) (priority : UInt8) : Opening := { o with priority }

/-- The flag byte of the frame that carries the request. -/
def flags (o : Opening) : UInt8 :=
  Flag.when o.close Flag.fin ||| Flag.when o.unidirectional Flag.unidirectional

end Opening

/-- Headers that follow on an open stream; nothing follows after them if `close`. -/
structure Head where
  headers : Headers
  close : Bool
deriving DecidableEq, Inhabited

namespace Head

/-- The flag byte of the frame that carries the headers. -/
def flags (h : Head) : UInt8 := Flag.when h.close Flag.fin

end Head

/-- A list of settings. The receiver is to forget what it kept before if `clear`. -/
structure SettingsMessage where
  entries : List Setting
  clear : Bool
deriving DecidableEq, Inhabited

namespace SettingsMessage

/-- The flag byte of the frame that carries the settings. -/
def flags (m : SettingsMessage) : UInt8 := Flag.when m.clear Flag.clearSettings

def get? (m : SettingsMessage) (id : SettingId) : Option UInt32 := Setting.lookup m.entries id

end SettingsMessage

/-- Data to send, or as much of it as is still unsent; nothing follows after it if `close`. -/
structure Payload where
  bytes : Bytes
  close : Bool
deriving DecidableEq, Inhabited

namespace Payload

def available (p : Payload) : Nat := p.bytes.length

def isEmpty (p : Payload) : Bool := p.bytes.isEmpty

/-- The first `n` bytes, or all if there are fewer. -/
def take (p : Payload) (n : Nat) : Bytes := p.bytes.take n

/-- What remains without the first `n` bytes. -/
def drop (p : Payload) (n : Nat) : Payload := { p with bytes := p.bytes.drop n }

theorem take_append_drop (p : Payload) (n : Nat) : p.take n ++ (p.drop n).bytes = p.bytes :=
  List.take_append_drop n p.bytes

end Payload

end Spdy
