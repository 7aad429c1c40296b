import Spdy.Error

/-!
# Configuration of a session

* `Config` : version, ids and sizes, with the presets `Config.client` and `Config.server`;
* `Config.fault?` : the first rule that a configuration breaks, if it breaks one;
* `Config.isLocal` : which stream ids the session's own side opens.
-/

namespace Spdy

/-- How a session is set up: the version of the frames that it sends on its own account, the id of the first stream
of this side (1 for a client, 2 for a server), the send window of a new stream and the most data one frame carries. -/
structure Config where
  version : Version
  initialStreamId : UInt32
  initialWindow : Int
  maxDataFrame : Nat
deriving DecidableEq, Inhabited

namespace Config

/-- The send window of a new stream unless told otherwise. -/
def defaultWindow : Nat := 65536

/-- The most data that one frame carries unless told otherwise. -/
def defaultMaxDataFrame : Nat := 16384

/-- The side that opens the connection. -/
def client : Config where
  version := .preferred
  initialStreamId := 1
  initialWindow := defaultWindow
  maxDataFrame := defaultMaxDataFrame

/-- The side that accepts the connection. -/
def server : Config := { client with initialStreamId := 2 }

def fault? (c : Config) : Option ConfigFault :=
  if c.initialStreamId ≠ 1 ∧ c.initialStreamId ≠ 2 then some (.initialStreamId c.initialStreamId)
  else if c.initialWindow ≤ 0 then some (.initialWindow c.initialWindow)
  else if c.maxDataFrame = 0 ∨ maxFrameLength < c.maxDataFrame then
    some (.maxDataFrame c.maxDataFrame)
  else none

/-- Whether a stream id is one that this side gives out. -/
def isLocal (c : Config) (id : UInt32) : Bool := id % 2 == c.initialStreamId % 2

end Config

end Spdy
