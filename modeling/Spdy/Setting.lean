/-!
# Settings

* `SettingId` : the known settings and every other number (`SettingId.code`, `SettingId.ofCode`);
* `Setting` : an entry of a SETTINGS frame;
* `Setting.lookup` : the value of a setting in a list, the last entry deciding.
-/

namespace Spdy

/-- What a setting is about. A number without a name is `unknown`; the number of a known setting
may also be given as `unknown`, which is a different id with the same code. -/
inductive SettingId
  | uploadBandwidth
  | downloadBandwidth
  | roundTripTime
  | maxConcurrentStreams
  | currentCwnd
  | downloadRetransRate
  | initialWindowSize
  | clientCertificateVectorSize
  | unknown (n : UInt32)
deriving DecidableEq, Inhabited

namespace SettingId

/-- The name of the setting, with the number of one that has none. -/
def name : SettingId → String
  | uploadBandwidth => "UploadBandwidth"
  | downloadBandwidth => "DownloadBandwidth"
  | roundTripTime => "RoundTripTime"
  | maxConcurrentStreams => "MaxConcurrentStreams"
  | currentCwnd => "CurrentCwnd"
  | downloadRetransRate => "DownloadRetransRate"
  | initialWindowSize => "InitialWindowSize"
  | clientCertificateVectorSize => "ClientCertificateVectorSize"
  | unknown n => s!"Unknown({n})"

/-- The number of the setting. -/
def code : SettingId → UInt32
  | uploadBandwidth => 1
  | downloadBandwidth => 2
  | roundTripTime => 3
  | maxConcurrentStreams => 4
  | currentCwnd => 5
  | downloadRetransRate => 6
  | initialWindowSize => 7
  | clientCertificateVectorSize => 8
  | unknown n => n

def ofCode (n : UInt32) : SettingId :=
  if n = 1 then uploadBandwidth
  else if n = 2 then downloadBandwidth
  else if n = 3 then roundTripTime
  else if n = 4 then maxConcurrentStreams
  else if n = 5 then currentCwnd
  else if n = 6 then downloadRetransRate
  else if n = 7 then initialWindowSize
  else if n = 8 then clientCertificateVectorSize
  else unknown n

@[simp] theorem code_ofCode (n : UInt32) : (ofCode n).code = n := by
  unfold ofCode
  repeat' split
  all_goals first | rfl | simp_all [code]

end SettingId

/-- An entry of a SETTINGS frame. The flags tell how long the value is to be kept. -/
structure Setting where
  id : SettingId
  flags : UInt8
  value : UInt32
deriving DecidableEq, Inhabited

namespace Setting

def persistValue : UInt8 := 1

/-- Tells that the value was kept from an earlier session. -/
def persisted : UInt8 := 2

/-- The value of a setting in a list; of several entries the last one decides. -/
def lookup (entries : List Setting) (id : SettingId) : Option UInt32 :=
  (entries.reverse.find? (·.id == id)).map Setting.value

end Setting

end Spdy
