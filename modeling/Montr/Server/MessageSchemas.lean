import Mathlib.Algebra.Order.Field.Rat
import Montr.Lib.Schemas

namespace Montr.Server

open Wire Wire.Schema

/-!
# Schemas of client messages

The schemas of `types.ts`, for values whose numbers are those of JavaScript, and
`parseClientMessage`. What Zod takes for a UUID is a parameter.
-/

/-- `.min(1)` on a text. -/
def nonEmpty (s : String) : Bool := s ≠ ""

/-- The length of a text in UTF-16 units. -/
def utf16Length (s : String) : Nat := (s.toList.map fun c => if c.val < 0x10000 then 1 else 2).sum

/-- `.min(0)`. -/
def nonNegative (x : ℚ) : Bool := 0 ≤ x

def anyText (_ : String) : Bool := true

def anyNumber (_ : ℚ) : Bool := true

def clientCapabilitiesSchema : Schema ℚ :=
  object [required "video" boolean, required "image" boolean]

def currentMediaInfoSchema : Schema ℚ :=
  object [required "id" (Schema.number anyNumber), required "filename" (string anyText)]

section

variable (uuid : String → Bool)

def registerMessageSchema : Schema ℚ :=
  object [required "type" (literal "register"),
    required "clientId" (string uuid),
    required "version" (string nonEmpty),
    required "capabilities" clientCapabilitiesSchema,
    optional "name" (string nonEmpty)]

def statusUpdateMessageSchema : Schema ℚ :=
  object [required "type" (literal "status_update"),
    required "clientId" (string uuid),
    required "currentMedia" (nullable currentMediaInfoSchema),
    required "position" (nullable (Schema.number nonNegative)),
    required "isPlaying" boolean,
    required "timestamp" (Schema.number anyNumber)]

def heartbeatMessageSchema : Schema ℚ :=
  object [required "type" (literal "heartbeat"),
    required "clientId" (string uuid),
    required "timestamp" (Schema.number anyNumber)]

def errorMessageSchema : Schema ℚ :=
  object [required "type" (literal "error"),
    required "clientId" (string uuid),
    required "error" (string nonEmpty),
    optional "context" (record unknown),
    optional "source" (string fun s => nonEmpty s && utf16Length s ≤ 64),
    optional "severity" (enum ["warn", "error", "fatal"]),
    optional "timestamp" (Schema.number anyNumber)]

def telemetryDiskSchema : Schema ℚ :=
  object [required "mount" (string anyText),
    required "used_bytes" (Schema.number nonNegative),
    required "total_bytes" (Schema.number nonNegative)]

def telemetryTempSchema : Schema ℚ :=
  object [required "label" (string anyText), required "celsius" (Schema.number anyNumber)]

def telemetryNetSchema : Schema ℚ :=
  object [required "ws_reconnects" (Schema.number nonNegative),
    required "last_rtt_ms" (nullable (Schema.number nonNegative)),
    required "bytes_dl_total" (Schema.number nonNegative)]

def telemetryMpvSchema : Schema ℚ :=
  object [required "alive" boolean,
    required "dropped_frames" (Schema.number nonNegative),
    required "last_decoder_error" (nullable (string anyText))]

def telemetryProcessSchema : Schema ℚ :=
  object [required "client_uptime_s" (Schema.number nonNegative),
    required "mpv_uptime_s" (Schema.number nonNegative),
    required "restart_count" (Schema.number nonNegative)]

def telemetryMessageSchema : Schema ℚ :=
  object [required "type" (literal "telemetry"),
    required "clientId" (string uuid),
    required "cpu_pct" (Schema.number fun x => nonNegative x && x ≤ 100),
    required "mem_used_mb" (Schema.number nonNegative),
    required "mem_total_mb" (Schema.number nonNegative),
    required "disks" (array telemetryDiskSchema),
    required "temps" (array telemetryTempSchema),
    required "net" telemetryNetSchema,
    required "mpv" telemetryMpvSchema,
    required "process" telemetryProcessSchema,
    required "timestamp" (Schema.number anyNumber)]

def logEventMessageSchema : Schema ℚ :=
  object [required "type" (literal "log_event"),
    required "clientId" (string uuid),
    required "level" (enum ["warn", "error"]),
    required "target" (string anyText),
    required "message" (string anyText),
    required "timestamp" (Schema.number anyNumber)]

def clientMessageSchema : Schema ℚ :=
  discriminatedUnion "type" [("register", registerMessageSchema uuid),
    ("status_update", statusUpdateMessageSchema uuid),
    ("heartbeat", heartbeatMessageSchema uuid),
    ("error", errorMessageSchema uuid),
    ("telemetry", telemetryMessageSchema uuid),
    ("log_event", logEventMessageSchema uuid)]

/-- The message, or the validation fails. -/
def parseClientMessage (data : Wire.Json ℚ) : Option (Wire.Json ℚ) := clientMessageSchema uuid data

end

end Montr.Server
