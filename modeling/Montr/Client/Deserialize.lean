import Mathlib.Algebra.Order.Field.Rat
import Montr.Client.Coordinator
import Montr.Lib.Readers

namespace Montr.Client

open Wire

/-!
# Messages that the player reads

`ServerMessage::from_json` for the messages that carry playlists and schedules: what serde derives
for the types of `protocol.rs`, where a struct is read from an object.

* `SerdeNumbers` — what `serde_json` makes of the numerals that `JSON.stringify` writes;
* `PushedMessage.fromJson` — a message, or a deserialization error;
* `PushedMessage.tree` — the fields of a message, to compare it with what was sent.
-/

/-! ### Numbers -/

/-- What stands in a text where a value has a number: the numeral of a double, or a text with an
    escape for half a surrogate pair, which `serde_json` refuses wherever it reads it. -/
inductive JsonToken
  | numeral (x : ℚ)
  | loneSurrogate
  deriving DecidableEq

/-- How the numeral of a double is read as an `f64`, as a `u64`, and as a number of a
    `serde_json::Value`: integers of at most 53 bits are read as they are. -/
structure SerdeNumbers where
  f64 : ℚ → ℚ
  u64 : ℚ → Option Nat
  value : ℚ → ℚ
  f64_natCast : ∀ n : Nat, n < 2 ^ 53 → f64 n = n
  u64_natCast : ∀ n : Nat, n < 2 ^ 53 → u64 n = some n
  value_intCast : ∀ n : Int, n.natAbs < 2 ^ 53 → value n = n

def readU32 : Json JsonToken → Option Nat :=
  readNumber fun
    | .numeral x => if x.den = 1 ∧ 0 ≤ x.num ∧ x.num < 2 ^ 32 then some x.num.toNat else none
    | .loneSurrogate => none

def readI32 : Json JsonToken → Option Int :=
  readNumber fun
    | .numeral x => if x.den = 1 ∧ -2 ^ 31 ≤ x.num ∧ x.num < 2 ^ 31 then some x.num else none
    | .loneSurrogate => none

def readU64 (numbers : SerdeNumbers) : Json JsonToken → Option Nat :=
  readNumber fun
    | .numeral x => numbers.u64 x
    | .loneSurrogate => none

def readF64 (numbers : SerdeNumbers) : Json JsonToken → Option ℚ :=
  readNumber fun
    | .numeral x => some (numbers.f64 x)
    | .loneSurrogate => none

/-- A number of a `serde_json::Value`. -/
def SerdeNumbers.read (numbers : SerdeNumbers) : JsonToken → Option ℚ
  | .numeral x => some (numbers.value x)
  | .loneSurrogate => none

/-! ### Playlist items -/

def SubtitleKind.read : Json JsonToken → Option SubtitleKind
  | .string "external" => some .external
  | .string "embedded" => some .embedded
  | _ => none

def SubtitleKind.tree : SubtitleKind → Json ℚ
  | .external => .string "external"
  | .embedded => .string "embedded"

def SubtitleTrack.readFields (es : List (String × Json JsonToken)) : Option SubtitleTrack := do
  let id ← requiredEntry readU32 (es.lookup "id")
  let kind ← requiredEntry SubtitleKind.read (es.lookup "kind")
  let language ← optionalEntry readString (es.lookup "language")
  let label ← optionalEntry readString (es.lookup "label")
  let isDefault ← requiredEntry readBool (es.lookup "isDefault")
  let isForced ← requiredEntry readBool (es.lookup "isForced")
  let downloadUrl ← optionalEntry readString (es.lookup "downloadUrl")
  let filename ← optionalEntry readString (es.lookup "filename")
  let format ← optionalEntry readString (es.lookup "format")
  let checksum ← optionalEntry readString (es.lookup "checksum")
  let streamIndex ← optionalEntry readU32 (es.lookup "streamIndex")
  let codec ← optionalEntry readString (es.lookup "codec")
  some { id, kind, language, label, isDefault, isForced, downloadUrl, filename, format, checksum,
         streamIndex, codec }

def SubtitleTrack.read : Json JsonToken → Option SubtitleTrack :=
  readStruct SubtitleTrack.readFields

/-- The fields as the server names them, without those that it leaves out. -/
def SubtitleTrack.fields (t : SubtitleTrack) : List (String × Option (Json ℚ)) :=
  [("id", some (.number t.id)),
    ("kind", some t.kind.tree),
    ("language", some ((t.language.map .string).getD .null)),
    ("label", some ((t.label.map .string).getD .null)),
    ("isDefault", some (.bool t.isDefault)),
    ("isForced", some (.bool t.isForced)),
    ("downloadUrl", t.downloadUrl.map .string),
    ("filename", t.filename.map .string),
    ("format", t.format.map .string),
    ("checksum", t.checksum.map .string),
    ("streamIndex", t.streamIndex.map fun n : Nat => .number n),
    ("codec", t.codec.map .string)]

def SubtitleTrack.tree (t : SubtitleTrack) : Json ℚ := .struct t.fields

def PlaylistItem.readFields (numbers : SerdeNumbers) (es : List (String × Json JsonToken)) :
    Option PlaylistItem := do
  let id ← requiredEntry readU32 (es.lookup "id")
  let mediaId ← requiredEntry readU32 (es.lookup "mediaId")
  let filename ← requiredEntry readString (es.lookup "filename")
  let downloadUrl ← requiredEntry readString (es.lookup "downloadUrl")
  let mediaType ← requiredEntry readString (es.lookup "type")
  let duration ← optionalEntry (readF64 numbers) (es.lookup "duration")
  let checksum ← optionalEntry readString (es.lookup "checksum")
  let orderIndex ← requiredEntry readU32 (es.lookup "orderIndex")
  let imageDuration ← requiredEntry readU32 (es.lookup "imageDuration")
  let subtitles ← defaultEntry [] (readVec SubtitleTrack.read) (es.lookup "subtitles")
  let fileSize ← optionalEntry (readU64 numbers) (es.lookup "fileSize")
  some { id, mediaId, filename, downloadUrl, mediaType, duration, checksum, orderIndex,
         imageDuration, subtitles, fileSize }

def PlaylistItem.read (numbers : SerdeNumbers) : Json JsonToken → Option PlaylistItem :=
  readStruct (PlaylistItem.readFields numbers)

def PlaylistItem.fields (t : PlaylistItem) : List (String × Option (Json ℚ)) :=
  [("id", some (.number t.id)),
    ("mediaId", some (.number t.mediaId)),
    ("filename", some (.string t.filename)),
    ("downloadUrl", some (.string t.downloadUrl)),
    ("type", some (.string t.mediaType)),
    ("duration", t.duration.map .number),
    ("checksum", some ((t.checksum.map .string).getD .null)),
    ("orderIndex", some (.number t.orderIndex)),
    ("imageDuration", some (.number t.imageDuration)),
    ("subtitles", some (.array (t.subtitles.map SubtitleTrack.tree))),
    ("fileSize", t.fileSize.map fun n : Nat => .number n)]

def PlaylistItem.tree (t : PlaylistItem) : Json ℚ := .struct t.fields

/-! ### Schedules -/

/-- One schedule of a `schedule_definitions` message. -/
structure ScheduleEntry where
  id : Nat
  name : String
  playlistId : Nat
  clientId : Option String
  groupId : Option Nat
  startTime : Option String
  endTime : Option String
  daysOfWeek : String
  priority : Int
  enabled : Bool
  cronExpression : Option String
  timezone : Option String
  conditions : Option (Json ℚ)
  interruptMode : String
  durationSeconds : Option Nat

def ScheduleEntry.readFields (numbers : SerdeNumbers) (es : List (String × Json JsonToken)) :
    Option ScheduleEntry := do
  let id ← requiredEntry readU32 (es.lookup "id")
  let name ← requiredEntry readString (es.lookup "name")
  let playlistId ← requiredEntry readU32 (es.lookup "playlistId")
  let clientId ← optionalEntry readString (es.lookup "clientId")
  let groupId ← optionalEntry readU32 (es.lookup "groupId")
  let startTime ← optionalEntry readString (es.lookup "startTime")
  let endTime ← optionalEntry readString (es.lookup "endTime")
  let daysOfWeek ← defaultEntry "0,1,2,3,4,5,6" readString (es.lookup "daysOfWeek")
  let priority ← defaultEntry 0 readI32 (es.lookup "priority")
  let enabled ← defaultEntry true readBool (es.lookup "enabled")
  let cronExpression ← optionalEntry readString (es.lookup "cronExpression")
  let timezone ← optionalEntry readString (es.lookup "timezone")
  let conditions ← optionalEntry (readValue numbers.read) (es.lookup "conditions")
  let interruptMode ← defaultEntry "assign" readString (es.lookup "interruptMode")
  let durationSeconds ← optionalEntry readU32 (es.lookup "durationSeconds")
  some { id, name, playlistId, clientId, groupId, startTime, endTime, daysOfWeek, priority,
         enabled, cronExpression, timezone, conditions, interruptMode, durationSeconds }

def ScheduleEntry.read (numbers : SerdeNumbers) : Json JsonToken → Option ScheduleEntry :=
  readStruct (ScheduleEntry.readFields numbers)

def ScheduleEntry.fields (t : ScheduleEntry) : List (String × Option (Json ℚ)) :=
  [("id", some (.number t.id)),
    ("name", some (.string t.name)),
    ("playlistId", some (.number t.playlistId)),
    ("clientId", some ((t.clientId.map .string).getD .null)),
    ("groupId", some ((t.groupId.map fun n : Nat => .number n).getD .null)),
    ("startTime", some ((t.startTime.map .string).getD .null)),
    ("endTime", some ((t.endTime.map .string).getD .null)),
    ("daysOfWeek", some (.string t.daysOfWeek)),
    ("priority", some (.number t.priority)),
    ("enabled", some (.bool t.enabled)),
    ("cronExpression", some ((t.cronExpression.map .string).getD .null)),
    ("timezone", some ((t.timezone.map .string).getD .null)),
    ("conditions", some ((t.conditions.map fun v => v).getD .null)),
    ("interruptMode", some (.string t.interruptMode)),
    ("durationSeconds", some ((t.durationSeconds.map fun n : Nat => .number n).getD .null))]

def ScheduleEntry.tree (t : ScheduleEntry) : Json ℚ := .struct t.fields

/-! ### Messages -/

structure PlaylistAssignedMessage where
  playlistId : Nat
  playlistName : String
  items : List PlaylistItem
  loopPlaylist : Bool

structure PlaylistUpdatedMessage where
  playlistId : Nat
  items : List PlaylistItem
  loopPlaylist : Bool

structure PlaylistInterruptMessage where
  playlistId : Nat
  playlistName : String
  items : List PlaylistItem
  loopPlaylist : Bool
  previousPlaylistId : Option Nat

structure ScheduleDefinitionsMessage where
  schedules : List ScheduleEntry

section

variable (numbers : SerdeNumbers) (es : List (String × Json JsonToken))

def PlaylistAssignedMessage.readFields : Option PlaylistAssignedMessage := do
  let playlistId ← requiredEntry readU32 (es.lookup "playlistId")
  let playlistName ← requiredEntry readString (es.lookup "playlistName")
  let items ← requiredEntry (readVec (PlaylistItem.read numbers)) (es.lookup "items")
  let loopPlaylist ← requiredEntry readBool (es.lookup "loopPlaylist")
  some { playlistId, playlistName, items, loopPlaylist }

def PlaylistUpdatedMessage.readFields : Option PlaylistUpdatedMessage := do
  let playlistId ← requiredEntry readU32 (es.lookup "playlistId")
  let items ← requiredEntry (readVec (PlaylistItem.read numbers)) (es.lookup "items")
  let loopPlaylist ← requiredEntry readBool (es.lookup "loopPlaylist")
  some { playlistId, items, loopPlaylist }

def PlaylistInterruptMessage.readFields : Option PlaylistInterruptMessage := do
  let playlistId ← requiredEntry readU32 (es.lookup "playlistId")
  let playlistName ← requiredEntry readString (es.lookup "playlistName")
  let items ← requiredEntry (readVec (PlaylistItem.read numbers)) (es.lookup "items")
  let loopPlaylist ← requiredEntry readBool (es.lookup "loopPlaylist")
  let previousPlaylistId ← optionalEntry readU32 (es.lookup "previousPlaylistId")
  some { playlistId, playlistName, items, loopPlaylist, previousPlaylistId }

def PlaylistResumeMessage.readFields : Option PlaylistResumeMessage := do
  let playlistId ← optionalEntry readU32 (es.lookup "playlistId")
  let playlistName ← optionalEntry readString (es.lookup "playlistName")
  let items ← requiredEntry (readVec (PlaylistItem.read numbers)) (es.lookup "items")
  let loopPlaylist ← requiredEntry readBool (es.lookup "loopPlaylist")
  some { playlistId, playlistName, items, loopPlaylist }

def ScheduleDefinitionsMessage.readFields : Option ScheduleDefinitionsMessage := do
  let schedules ← defaultEntry [] (readVec (ScheduleEntry.read numbers)) (es.lookup "schedules")
  some { schedules }

end

/-- The messages of the server that carry a playlist or schedules. -/
inductive PushedMessage
  | playlistAssigned (m : PlaylistAssignedMessage)
  | playlistUpdated (m : PlaylistUpdatedMessage)
  | playlistInterrupt (m : PlaylistInterruptMessage)
  | playlistResume (m : PlaylistResumeMessage)
  | scheduleDefinitions (m : ScheduleDefinitionsMessage)

namespace PushedMessage

/-- The variant that the tag names. -/
def readVariant (numbers : SerdeNumbers) (es : List (String × Json JsonToken)) :
    String → Option PushedMessage
  | "playlist_assigned" =>
    (PlaylistAssignedMessage.readFields numbers es).map .playlistAssigned
  | "playlist_updated" => (PlaylistUpdatedMessage.readFields numbers es).map .playlistUpdated
  | "playlist_interrupt" =>
    (PlaylistInterruptMessage.readFields numbers es).map .playlistInterrupt
  | "playlist_resume" => (PlaylistResumeMessage.readFields numbers es).map .playlistResume
  | "schedule_definitions" =>
    (ScheduleDefinitionsMessage.readFields numbers es).map .scheduleDefinitions
  | _ => none

/-- `#[serde(tag = "type")]`. -/
def readTagged (numbers : SerdeNumbers) (es : List (String × Json JsonToken)) :
    Option PushedMessage :=
  (requiredEntry readString (es.lookup "type")).bind (readVariant numbers es)

/-- `ServerMessage::from_json`; `serde_json` goes down 127 levels. -/
def fromJson (numbers : SerdeNumbers) (data : Json JsonToken) : Option PushedMessage :=
  if data.nestsWithin 127 then readStruct (readTagged numbers) data else none

/-- The fields of a message in the order in which the server names them. -/
def fields : PushedMessage → List (String × Option (Json ℚ))
  | playlistAssigned m =>
    [("type", some (.string "playlist_assigned")),
      ("playlistId", some (.number m.playlistId)),
      ("playlistName", some (.string m.playlistName)),
      ("loopPlaylist", some (.bool m.loopPlaylist)),
      ("items", some (.array (m.items.map PlaylistItem.tree)))]
  | playlistUpdated m =>
    [("type", some (.string "playlist_updated")),
      ("playlistId", some (.number m.playlistId)),
      ("loopPlaylist", some (.bool m.loopPlaylist)),
      ("items", some (.array (m.items.map PlaylistItem.tree)))]
  | playlistInterrupt m =>
    [("type", some (.string "playlist_interrupt")),
      ("playlistId", some (.number m.playlistId)),
      ("playlistName", some (.string m.playlistName)),
      ("loopPlaylist", some (.bool m.loopPlaylist)),
      ("items", some (.array (m.items.map PlaylistItem.tree))),
      ("previousPlaylistId", some ((m.previousPlaylistId.map fun n : Nat => .number n).getD .null))]
  | playlistResume m =>
    [("type", some (.string "playlist_resume")),
      ("playlistId", some ((m.playlistId.map fun n : Nat => .number n).getD .null)),
      ("playlistName", some ((m.playlistName.map .string).getD .null)),
      ("loopPlaylist", some (.bool m.loopPlaylist)),
      ("items", some (.array (m.items.map PlaylistItem.tree)))]
  | scheduleDefinitions m =>
    [("type", some (.string "schedule_definitions")),
      ("schedules", some (.array (m.schedules.map ScheduleEntry.tree)))]

def tree (m : PushedMessage) : Json ℚ := .struct m.fields

end PushedMessage

end Montr.Client
