import Mathlib.Algebra.Order.Field.Rat
import Montr.Lib.JsonTree

namespace Montr.Client.Protocol

open Wire

/-!
# Messages of the player

`ClientMessage` with its payloads, what `serde_json` writes for them, and the messages that the
player builds.

* `Numeral`, `RustNumber` — numbers as they are written, and as the player has them;
* `ClientMessage.tree`, `ClientMessage.toJson` — the derived encoding;
* `ClientConfig` — the configuration that `load` and `apply_overrides` let through;
* `Built` — every place that builds a message.
-/

/-! ### Numbers -/

/-- A numeral of the text: the digits of an integer, or the shortest ones that read back as the
    float. A finite float is given by its value. -/
inductive Numeral
  | int (n : Int)
  | f32 (x : ℚ)
  | f64 (x : ℚ)
  deriving DecidableEq

/-- An `f32` or an `f64`. -/
inductive RustFloat
  | finite (x : ℚ)
  | infinite (negative : Bool)
  | nan
  deriving DecidableEq

inductive RustNumber
  | numeral (n : Numeral)
  | infinite (negative : Bool)
  | nan
  deriving DecidableEq

/-- What `serde_json` writes for a number: `null` where there is no numeral. -/
def RustNumber.write : RustNumber → Json Numeral
  | .numeral n => .number n
  | .infinite _ | .nan => .null

/-- A serialized integer. -/
def integer (n : Nat) : Json RustNumber := .number (.numeral (.int n))

def RustFloat.toNumber (precision : ℚ → Numeral) : RustFloat → RustNumber
  | .finite x => .numeral (precision x)
  | .infinite negative => .infinite negative
  | .nan => .nan

def RustFloat.f32 (x : RustFloat) : Json RustNumber := .number (x.toNumber .f32)

def RustFloat.f64 (x : RustFloat) : Json RustNumber := .number (x.toNumber .f64)

/-- A `serde_json::Value`, whose numbers are finite. -/
abbrev Value := Json Numeral

def valueTree (v : Value) : Json RustNumber := v.subst fun n => .number (.numeral n)

/-- A `HashMap<String, Value>`. -/
structure ValueMap where
  entries : List (String × Value)
  keys_nodup : (entries.map (·.1)).Nodup

def ValueMap.tree (map : ValueMap) : Json RustNumber :=
  .object (map.entries.map fun e => (e.1, valueTree e.2))

/-- An `Option` that serde writes as `null`. -/
def orNull (o : Option (Json RustNumber)) : Option (Json RustNumber) := some (o.getD .null)

/-! ### The payloads -/

structure ClientCapabilities where
  video : Bool
  image : Bool
  deriving DecidableEq

def ClientCapabilities.tree (c : ClientCapabilities) : Json RustNumber :=
  .struct [("video", some (.bool c.video)), ("image", some (.bool c.image))]

structure RegisterMessage where
  clientId : String
  version : String
  capabilities : ClientCapabilities
  name : Option String
  deriving DecidableEq

/-- The fields as serde names them; one without a value is skipped. -/
def RegisterMessage.fields (m : RegisterMessage) : List (String × Option (Json RustNumber)) :=
  [("clientId", some (.string m.clientId)),
    ("version", some (.string m.version)),
    ("capabilities", some m.capabilities.tree),
    ("name", m.name.map .string)]

structure CurrentMediaInfo where
  id : UInt32
  filename : String
  deriving DecidableEq

def CurrentMediaInfo.tree (c : CurrentMediaInfo) : Json RustNumber :=
  .struct [("id", some (integer c.id.toNat)), ("filename", some (.string c.filename))]

structure StatusUpdateMessage where
  clientId : String
  currentMedia : Option CurrentMediaInfo
  position : Option RustFloat
  isPlaying : Bool
  timestamp : UInt64
  deriving DecidableEq

def StatusUpdateMessage.fields (m : StatusUpdateMessage) :
    List (String × Option (Json RustNumber)) :=
  [("clientId", some (.string m.clientId)),
    ("currentMedia", orNull (m.currentMedia.map (·.tree))),
    ("position", orNull (m.position.map (·.f64))),
    ("isPlaying", some (.bool m.isPlaying)),
    ("timestamp", some (integer m.timestamp.toNat))]

structure HeartbeatMessage where
  clientId : String
  timestamp : UInt64
  deriving DecidableEq

def HeartbeatMessage.fields (m : HeartbeatMessage) : List (String × Option (Json RustNumber)) :=
  [("clientId", some (.string m.clientId)), ("timestamp", some (integer m.timestamp.toNat))]

inductive ErrorSeverity
  | warn
  | error
  | fatal
  deriving DecidableEq

def ErrorSeverity.text : ErrorSeverity → String
  | .warn => "warn"
  | .error => "error"
  | .fatal => "fatal"

structure ErrorMessage where
  clientId : String
  error : String
  context : Option ValueMap
  source : Option String
  severity : Option ErrorSeverity
  timestamp : UInt64

def ErrorMessage.fields (m : ErrorMessage) : List (String × Option (Json RustNumber)) :=
  [("clientId", some (.string m.clientId)),
    ("error", some (.string m.error)),
    ("context", m.context.map (·.tree)),
    ("source", m.source.map .string),
    ("severity", m.severity.map fun s => .string s.text),
    ("timestamp", some (integer m.timestamp.toNat))]

structure TelemetryDiskSample where
  mount : String
  usedBytes : UInt64
  totalBytes : UInt64
  deriving DecidableEq

def TelemetryDiskSample.tree (s : TelemetryDiskSample) : Json RustNumber :=
  .struct [("mount", some (.string s.mount)), ("used_bytes", some (integer s.usedBytes.toNat)),
    ("total_bytes", some (integer s.totalBytes.toNat))]

structure TelemetryTempSample where
  label : String
  celsius : RustFloat
  deriving DecidableEq

def TelemetryTempSample.tree (s : TelemetryTempSample) : Json RustNumber :=
  .struct [("label", some (.string s.label)), ("celsius", some s.celsius.f32)]

structure TelemetryNetSample where
  wsReconnects : UInt32
  lastRttMs : Option UInt32
  bytesDlTotal : UInt64
  deriving DecidableEq

def TelemetryNetSample.tree (s : TelemetryNetSample) : Json RustNumber :=
  .struct [("ws_reconnects", some (integer s.wsReconnects.toNat)),
    ("last_rtt_ms", orNull (s.lastRttMs.map fun n => integer n.toNat)),
    ("bytes_dl_total", some (integer s.bytesDlTotal.toNat))]

structure TelemetryMpvSample where
  alive : Bool
  droppedFrames : UInt64
  lastDecoderError : Option String
  deriving DecidableEq

def TelemetryMpvSample.tree (s : TelemetryMpvSample) : Json RustNumber :=
  .struct [("alive", some (.bool s.alive)),
    ("dropped_frames", some (integer s.droppedFrames.toNat)),
    ("last_decoder_error", orNull (s.lastDecoderError.map .string))]

structure TelemetryProcessSample where
  clientUptimeS : UInt64
  mpvUptimeS : UInt64
  restartCount : UInt32
  deriving DecidableEq

def TelemetryProcessSample.tree (s : TelemetryProcessSample) : Json RustNumber :=
  .struct [("client_uptime_s", some (integer s.clientUptimeS.toNat)),
    ("mpv_uptime_s", some (integer s.mpvUptimeS.toNat)),
    ("restart_count", some (integer s.restartCount.toNat))]

structure TelemetryMessage where
  clientId : String
  cpuPct : RustFloat
  memUsedMb : UInt64
  memTotalMb : UInt64
  disks : List TelemetryDiskSample
  temps : List TelemetryTempSample
  net : TelemetryNetSample
  mpv : TelemetryMpvSample
  process : TelemetryProcessSample
  timestamp : UInt64
  deriving DecidableEq

def TelemetryMessage.fields (m : TelemetryMessage) : List (String × Option (Json RustNumber)) :=
  [("clientId", some (.string m.clientId)),
    ("cpu_pct", some m.cpuPct.f32),
    ("mem_used_mb", some (integer m.memUsedMb.toNat)),
    ("mem_total_mb", some (integer m.memTotalMb.toNat)),
    ("disks", some (.array (m.disks.map (·.tree)))),
    ("temps", some (.array (m.temps.map (·.tree)))),
    ("net", some m.net.tree),
    ("mpv", some m.mpv.tree),
    ("process", some m.process.tree),
    ("timestamp", some (integer m.timestamp.toNat))]

structure LogEventMessage where
  clientId : String
  level : String
  target : String
  message : String
  timestamp : UInt64
  deriving DecidableEq

def LogEventMessage.fields (m : LogEventMessage) : List (String × Option (Json RustNumber)) :=
  [("clientId", some (.string m.clientId)),
    ("level", some (.string m.level)),
    ("target", some (.string m.target)),
    ("message", some (.string m.message)),
    ("timestamp", some (integer m.timestamp.toNat))]

/-! ### Messages -/

inductive ClientMessage
  | register (m : RegisterMessage)
  | statusUpdate (m : StatusUpdateMessage)
  | heartbeat (m : HeartbeatMessage)
  | error (m : ErrorMessage)
  | telemetry (m : TelemetryMessage)
  | logEvent (m : LogEventMessage)

namespace ClientMessage

/-- The variant in snake case. -/
def type : ClientMessage → String
  | .register _ => "register"
  | .statusUpdate _ => "status_update"
  | .heartbeat _ => "heartbeat"
  | .error _ => "error"
  | .telemetry _ => "telemetry"
  | .logEvent _ => "log_event"

def fields : ClientMessage → List (String × Option (Json RustNumber))
  | .register m => m.fields
  | .statusUpdate m => m.fields
  | .heartbeat m => m.fields
  | .error m => m.fields
  | .telemetry m => m.fields
  | .logEvent m => m.fields

def clientId : ClientMessage → String
  | .register m => m.clientId
  | .statusUpdate m => m.clientId
  | .heartbeat m => m.clientId
  | .error m => m.clientId
  | .telemetry m => m.clientId
  | .logEvent m => m.clientId

/-- The message as serde sees it: `#[serde(tag = "type")]`. -/
def tree (m : ClientMessage) : Json RustNumber :=
  .struct (("type", some (.string m.type)) :: m.fields)

def toJson (m : ClientMessage) : Json Numeral := m.tree.subst RustNumber.write

end ClientMessage

/-! ### What the player builds -/

/-- `client.id` and `client.name` of a configuration that was let through. -/
structure ClientConfig where
  id : String
  name : String
  name_ne_empty : name ≠ ""
  deriving DecidableEq

/-- `validate`, as far as the name. -/
def ClientConfig.validate (id name : String) : Option ClientConfig :=
  if h : name ≠ "" then some ⟨id, name, h⟩ else none

/-- `ensure_client_id`: a new UUID, or one that `Uuid::parse_str` reads. -/
def ensureClientId (parsesUuid : String → Bool) (newId id : String) : Option String :=
  if id = "" then some newId else if parsesUuid id then some id else none

/-- `apply_platform_defaults`: the host's name for an empty one. -/
def defaultName (hostName : Option String) (id name : String) : String :=
  if name = "" then
    hostName.getD
      (if 8 ≤ id.utf8ByteSize then "Client-" ++ (id.take 8).toString else "montr-client")
  else name

/-- `load`, and `apply_overrides` with the name of the command line. -/
def ClientConfig.load (parsesUuid : String → Bool) (newId : String) (hostName : Option String)
    (id name : String) (clientName : Option String) : Option ClientConfig := do
  let id ← ensureClientId parsesUuid newId id
  let config ← validate id (defaultName hostName id name)
  validate config.id (clientName.getD config.name)

/-- The id of a loaded configuration is new, or one that the parser reads. -/
theorem ClientConfig.id_of_load {parsesUuid : String → Bool} {newId : String}
    {hostName : Option String} {id name : String} {clientName : Option String}
    {config : ClientConfig}
    (h : ClientConfig.load parsesUuid newId hostName id name clientName = some config) :
    config.id = newId ∨ parsesUuid config.id = true := by
  have hvalidate : ∀ {id name : String} {config : ClientConfig},
      ClientConfig.validate id name = some config → config.id = id := by
    intro id name config h
    rw [ClientConfig.validate] at h
    split at h
    · exact congrArg ClientConfig.id (Option.some.inj h).symm
    · cases h
  simp only [ClientConfig.load, Option.bind_eq_bind, Option.bind_eq_some_iff] at h
  obtain ⟨ensured, hensured, loaded, hloaded, hconfig⟩ := h
  rw [hvalidate hconfig, hvalidate hloaded]
  rw [ensureClientId] at hensured
  split at hensured
  · exact .inl (Option.some.inj hensured).symm
  · obtain ⟨hparses, heq⟩ := Option.ite_none_right_eq_some.mp hensured
    exact .inr (Option.some.inj heq ▸ hparses)

def VERSION : String := "1.1.1"

/-- The sources that `report_error` and the tasks of `main` name. -/
def errorSources : List String := ["server", "playback", "cache", "preload", "connection"]

/-- **The messages that the player builds**, from its configuration and whatever it measures. -/
inductive Built (config : ClientConfig) : ClientMessage → Prop
  | register : Built config (.register ⟨config.id, VERSION, ⟨true, true⟩, some config.name⟩)
  | statusUpdate (media : Option CurrentMediaInfo) (position : Option RustFloat) (isPlaying : Bool)
      (now : UInt64) : Built config (.statusUpdate ⟨config.id, media, position, isPlaying, now⟩)
  | heartbeat (now : UInt64) : Built config (.heartbeat ⟨config.id, now⟩)
  /-- `send_error` -/
  | error (error : String) (context : Option ValueMap) (now : UInt64) :
      Built config (.error ⟨config.id, error, context, none, none, now⟩)
  /-- `report_error` and the tasks -/
  | errorDetailed {source : String} (hsource : source ∈ errorSources) (severity : ErrorSeverity)
      (error : String) (context : Option ValueMap) (now : UInt64) :
      Built config (.error ⟨config.id, error, context, some source, some severity, now⟩)
  | telemetry (cpuPct : RustFloat) (memUsedMb memTotalMb : UInt64)
      (disks : List TelemetryDiskSample) (temps : List TelemetryTempSample)
      (net : TelemetryNetSample) (mpv : TelemetryMpvSample) (process : TelemetryProcessSample)
      (now : UInt64) :
      Built config (.telemetry
        ⟨config.id, cpuPct, memUsedMb, memTotalMb, disks, temps, net, mpv, process, now⟩)
  /-- the level of a captured event is one of two -/
  | logEvent {level : String} (hlevel : level ∈ ["error", "warn"]) (target message : String)
      (now : UInt64) : Built config (.logEvent ⟨config.id, level, target, message, now⟩)

/-- Every message has the id of the configuration. -/
theorem Built.clientId {config : ClientConfig} {m : ClientMessage} (built : Built config m) :
    m.clientId = config.id := by
  cases built <;> rfl

end Montr.Client.Protocol
