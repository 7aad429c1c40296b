import Spdy.Version

/-!
# Status codes

* `StreamStatus` : why a stream is reset, with the code it has in each version
  (`StreamStatus.code?`, `StreamStatus.ofCode?`);
* `SessionStatus` : why a session ends.
-/

namespace Spdy

/-- Why a stream is reset. -/
inductive StreamStatus
  | protocolError
  | invalidStream
  | refusedStream
  | unsupportedVersion
  | cancel
  | internalError
  | flowControlError
  | streamInUse
  | streamAlreadyClosed
  | invalidCredentials
  | frameTooLarge
deriving DecidableEq, Inhabited

namespace StreamStatus

/-- The name of the status. -/
def name : StreamStatus → String
  | protocolError => "ProtocolError"
  | invalidStream => "InvalidStream"
  | refusedStream => "RefusedStream"
  | unsupportedVersion => "UnsupportedVersion"
  | cancel => "Cancel"
  | internalError => "InternalError"
  | flowControlError => "FlowControlError"
  | streamInUse => "StreamInUse"
  | streamAlreadyClosed => "StreamAlreadyClosed"
  | invalidCredentials => "InvalidCredentials"
  | frameTooLarge => "FrameTooLarge"

/-- The code of the status in the latest version. -/
def number : StreamStatus → Nat
  | protocolError => 1
  | invalidStream => 2
  | refusedStream => 3
  | unsupportedVersion => 4
  | cancel => 5
  | internalError => 6
  | flowControlError => 7
  | streamInUse => 8
  | streamAlreadyClosed => 9
  | invalidCredentials => 10
  | frameTooLarge => 11

def all : List StreamStatus :=
  [protocolError, invalidStream, refusedStream, unsupportedVersion, cancel, internalError,
    flowControlError, streamInUse, streamAlreadyClosed, invalidCredentials, frameTooLarge]

def highest : Version → Nat
  | .v2 => 7
  | .v3 => 11

/-- The code of the status in a version; the later statuses are missing from `SPDY/2`. -/
def code? (s : StreamStatus) (v : Version) : Option Nat :=
  if s.number ≤ highest v then some s.number else none

def ofCode? (v : Version) (n : Nat) : Option StreamStatus :=
  all.find? fun s => s.code? v == some n

theorem ofCode?_eq_some_iff {v : Version} {n : Nat} {s : StreamStatus} :
    ofCode? v n = some s ↔ s.code? v = some n := by
  constructor
  · intro h
    have := List.find?_some h
    simpa using this
  · intro h
    cases s <;> cases v <;> simp [code?, number, highest] at h <;> subst h <;> rfl

end StreamStatus

inductive SessionStatus
  | ok
  | protocolError
  | internalError
deriving DecidableEq, Inhabited

namespace SessionStatus

def name : SessionStatus → String
  | ok => "Ok"
  | protocolError => "ProtocolError"
  | internalError => "InternalError"

def code : SessionStatus → Nat
  | ok => 0
  | protocolError => 1
  | internalError => 2

def ofCode? : Nat → Option SessionStatus
  | 0 => some ok
  | 1 => some protocolError
  | 2 => some internalError
  | _ => none

theorem ofCode?_eq_some_iff {n : Nat} {s : SessionStatus} : ofCode? n = some s ↔ s.code = n := by
  constructor
  · intro h
    unfold ofCode? at h
    split at h <;> cases h <;> rfl
  · rintro rfl
    cases s <;> rfl

end SessionStatus

end Spdy
