import Mathlib.Algebra.Order.Field.Rat
import Montr.Lib.Schemas
import Montr.Server.PlaylistSync

namespace Montr.Server

/-!
# Messages as JavaScript values

The messages that carry playlists and schedules, as the objects that `sendToClient` writes with
`JSON.stringify`. A property that is `undefined` is left out.

* `JsScalar` — what a leaf may be besides `null`, a boolean and a text;
* `ServerMessage.toJson` — playlist messages;
* `ScheduleRow` — a row of `schedules`, and its entry in a `schedule_definitions` message;
* `updatePlaylistItemSchema` — what the API asks of the order index of an item.
-/

/-- A leaf of a JavaScript value. The texts of a tree are Unicode; a text with half a surrogate
    pair, or an object with such a key, is a leaf of its own. -/
inductive JsScalar
  | finite (x : ℚ)
  | infinite (negative : Bool)
  | loneSurrogate
  deriving DecidableEq

def jsNumber (x : ℚ) : Wire.Json JsScalar := .number (.finite x)

/-- A value or `null`. -/
def nullOr (o : Option (Wire.Json JsScalar)) : Option (Wire.Json JsScalar) := some (o.getD .null)

/-! ### Playlist messages -/

def SubtitleKind.text : SubtitleKind → String
  | .external => "external"
  | .embedded => "embedded"

def MediaType.text : MediaType → String
  | .video => "video"
  | .image => "image"

def SubtitleTrackPayload.fields (t : SubtitleTrackPayload) :
    List (String × Option (Wire.Json JsScalar)) :=
  [("id", some (jsNumber t.id)),
    ("kind", some (.string t.kind.text)),
    ("language", nullOr (t.language.map .string)),
    ("label", nullOr (t.label.map .string)),
    ("isDefault", some (.bool t.isDefault)),
    ("isForced", some (.bool t.isForced)),
    ("downloadUrl", t.downloadUrl.map .string),
    ("filename", t.filename.map .string),
    ("format", t.format.map .string),
    ("checksum", t.checksum.map .string),
    ("streamIndex", t.streamIndex.map fun n : Nat => jsNumber n),
    ("codec", t.codec.map .string)]

def SubtitleTrackPayload.toJson (t : SubtitleTrackPayload) : Wire.Json JsScalar := .struct t.fields

def PlaylistMediaItem.fields (t : PlaylistMediaItem) :
    List (String × Option (Wire.Json JsScalar)) :=
  [("id", some (jsNumber t.id)),
    ("mediaId", some (jsNumber t.mediaId)),
    ("filename", some (.string t.filename)),
    ("downloadUrl", some (.string t.downloadUrl)),
    ("type", some (.string t.type.text)),
    ("duration", some (jsNumber t.duration)),
    ("checksum", nullOr (t.checksum.map .string)),
    ("orderIndex", some (jsNumber t.orderIndex)),
    ("imageDuration", some (jsNumber t.imageDuration)),
    ("subtitles", some (.array (t.subtitles.map SubtitleTrackPayload.toJson))),
    ("fileSize", t.fileSize.map fun n : Nat => jsNumber n)]

def PlaylistMediaItem.toJson (t : PlaylistMediaItem) : Wire.Json JsScalar := .struct t.fields

/-- A number or `null`. -/
def Field.ofOption : Option Nat → Field Nat
  | none => .null
  | some n => .value n

def Field.toJson : Field Nat → Option (Wire.Json JsScalar)
  | .undefined => none
  | .null => some .null
  | .value n => some (jsNumber n)

theorem Field.toJson_ofOption (o : Option Nat) :
    (ofOption o).toJson = nullOr (o.map fun n : Nat => jsNumber n) := by
  cases o <;> rfl

def ServerMessage.fields : ServerMessage → List (String × Option (Wire.Json JsScalar))
  | .playlistAssigned playlistId playlistName loopPlaylist items =>
    [("type", some (.string "playlist_assigned")),
      ("playlistId", some (jsNumber playlistId)),
      ("playlistName", some (.string playlistName)),
      ("loopPlaylist", some (.bool loopPlaylist)),
      ("items", some (.array (items.map PlaylistMediaItem.toJson)))]
  | .playlistUpdated playlistId loopPlaylist items =>
    [("type", some (.string "playlist_updated")),
      ("playlistId", some (jsNumber playlistId)),
      ("loopPlaylist", some (.bool loopPlaylist)),
      ("items", some (.array (items.map PlaylistMediaItem.toJson)))]
  | .playlistInterrupt playlistId playlistName loopPlaylist items previousPlaylistId =>
    [("type", some (.string "playlist_interrupt")),
      ("playlistId", some (jsNumber playlistId)),
      ("playlistName", some (.string playlistName)),
      ("loopPlaylist", some (.bool loopPlaylist)),
      ("items", some (.array (items.map PlaylistMediaItem.toJson))),
      ("previousPlaylistId", previousPlaylistId.toJson)]
  | .playlistResume playlistId playlistName loopPlaylist items =>
    [("type", some (.string "playlist_resume")),
      ("playlistId", playlistId.toJson),
      ("playlistName", nullOr (playlistName.map .string)),
      ("loopPlaylist", some (.bool loopPlaylist)),
      ("items", some (.array (items.map PlaylistMediaItem.toJson)))]
  | .errorResponse error =>
    [("type", some (.string "error_response")), ("error", some (.string error))]

def ServerMessage.toJson (m : ServerMessage) : Wire.Json JsScalar := .struct m.fields

/-! ### Schedules -/

/-- What SQLite has in an `INTEGER` column: it keeps a fraction, an infinity, and a text that is no
    number as they are. -/
inductive Cell
  | null
  | number (x : ℚ)
  | infinite (negative : Bool)
  | text (s : String)
  deriving DecidableEq

def Cell.toJson : Cell → Wire.Json JsScalar
  | .null => .null
  | .number x => jsNumber x
  | .infinite negative => .number (.infinite negative)
  | .text s => .string s

/-- A row of `schedules`. The overrides of a template come in without a check, so that a number may
    be anything; the ids are those of rows, and the other columns hold texts. -/
structure ScheduleRow where
  id : Nat
  name : String
  playlistId : Nat
  clientId : Option String
  groupId : Option Nat
  startTime : Option String
  endTime : Option String
  daysOfWeek : Option String
  priority : Cell
  enabled : Bool
  cronExpression : Option String
  timezone : Option String
  /-- `JSON.parse` of the column, if it holds a value -/
  conditions : Option (Wire.Json JsScalar)
  interruptMode : Option String
  durationSeconds : Cell

namespace ScheduleRow

/-- `row.priority ?? 50`. -/
def priorityOrDefault (row : ScheduleRow) : Cell :=
  match row.priority with
  | .null => .number 50
  | cell => cell

/-- `(row.interrupt_mode ?? 'assign') === 'interrupt' ? 'interrupt' : 'assign'`. -/
def interruptModeOrDefault (row : ScheduleRow) : String :=
  if row.interruptMode.getD "assign" = "interrupt" then "interrupt" else "assign"

/-- `scheduleRowToObj`, and the entry of `sendSchedulesToClient` that is made of it. -/
def fields (row : ScheduleRow) : List (String × Option (Wire.Json JsScalar)) :=
  [("id", some (jsNumber row.id)),
    ("name", some (.string row.name)),
    ("playlistId", some (jsNumber row.playlistId)),
    ("clientId", nullOr (row.clientId.map .string)),
    ("groupId", nullOr (row.groupId.map fun n : Nat => jsNumber n)),
    ("startTime", nullOr (row.startTime.map .string)),
    ("endTime", nullOr (row.endTime.map .string)),
    ("daysOfWeek", some (.string (row.daysOfWeek.getD "0,1,2,3,4,5,6"))),
    ("priority", some row.priorityOrDefault.toJson),
    ("enabled", some (.bool row.enabled)),
    ("cronExpression", nullOr (row.cronExpression.map .string)),
    ("timezone", nullOr (row.timezone.map .string)),
    ("conditions", nullOr row.conditions),
    ("interruptMode", some (.string row.interruptModeOrDefault)),
    ("durationSeconds", some row.durationSeconds.toJson)]

def toJson (row : ScheduleRow) : Wire.Json JsScalar := .struct row.fields

end ScheduleRow

/-- The message of `sendSchedulesToClient`. -/
def scheduleDefinitions (rows : List ScheduleRow) : Wire.Json JsScalar :=
  .struct [("type", some (.string "schedule_definitions")),
    ("schedules", some (.array (rows.map ScheduleRow.toJson)))]

/-! ### The check of an item -/

/-- `.int()` of an integer that a double has exactly, with its bounds. -/
def intBetween (low high : ℚ) (x : ℚ) : Bool := x.den = 1 && low ≤ x && x ≤ high

def hasEntry : Wire.Json ℚ → Bool
  | .object entries => !entries.isEmpty
  | _ => false

/-- The largest integer of `.int()`. -/
def maxSafeInteger : ℚ := 9007199254740991

/-- `updatePlaylistItemSchema` of `validation.ts`. -/
def updatePlaylistItemSchema : Wire.Schema ℚ := fun v =>
  (Wire.Schema.object
    [Wire.Schema.optional "order_index" (Wire.Schema.number (intBetween 0 maxSafeInteger)),
      Wire.Schema.optional "image_duration" (Wire.Schema.number (intBetween 1 3600))] v).filter
    hasEntry

end Montr.Server
