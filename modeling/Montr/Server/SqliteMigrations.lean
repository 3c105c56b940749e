import Montr.Lib.SqlTables
import Montr.Server.MigrationRunner
import Mathlib.Order.Lattice

namespace Montr.Server.Sqlite

open Sql Migrations

/-!
# The migrations on SQLite

The registry of `migrations/index.ts` with the statements of the SQLite adapter, and `run` and
`rollback` of `migrations/runner.ts` on a whole database.

* `m001` … `m018` — what `up` and `down` execute, statement by statement;
* `run`, `rollback` — the runner, with the rows of `schema_migrations` as a list of versions.

Indexes, triggers, `CHECK`, `NOT NULL` and `UNIQUE` are left out.
-/

/-! ### Tables -/

/-- The tables, and those that are there during a rebuild. -/
inductive TableName
  | mediaFiles | playlists | playlistItems | clients | clientStatus | systemState
  | mediaFilesBackup
  | clientGroups | clientGroupMembers
  | schedules
  | clientPlaylists
  | playbackLogs
  | notificationRules | notificationHistory
  | approvalLogs
  | users
  | clientTelemetry | clientLogEvents
  | notificationRulesNew
  | schedulesNew | scheduleTemplates
  | mediaFolders
  | subtitleTracks
  | thumbnailJobs
  | uploadCompletionJobs
  deriving Repr

namespace TableName

def all : List TableName :=
  [mediaFiles, playlists, playlistItems, clients, clientStatus, systemState, mediaFilesBackup,
    clientGroups, clientGroupMembers, schedules, clientPlaylists, playbackLogs, notificationRules,
    notificationHistory, approvalLogs, users, clientTelemetry, clientLogEvents,
    notificationRulesNew, schedulesNew, scheduleTemplates, mediaFolders, subtitleTracks,
    thumbnailJobs, uploadCompletionJobs]

theorem ctorIdx_injective : Function.Injective TableName.ctorIdx := by
  have hall : ∀ t : TableName, all[t.ctorIdx]? = some t := by
    intro t
    cases t <;> rfl
  intro a b h
  have hb := hall b
  rw [← h, hall a] at hb
  exact Option.some.inj hb

instance : LinearOrder TableName := LinearOrder.lift' TableName.ctorIdx ctorIdx_injective

end TableName

abbrev Table := TableSchema TableName String
abbrev SqliteStatement := Statement TableName String

def column (name : String) : Column String := { name := name }

def withDefault (name : String) (v : Value) : Column String := { name := name, default := .const v }

/-- `DEFAULT CURRENT_TIMESTAMP`. -/
def timestamp (name : String) : Column String := { name := name, default := .now }

def cascades (column : String) (target : TableName) : ForeignKey TableName String :=
  ⟨column, target, .cascade⟩

def setsNull (column : String) (target : TableName) : ForeignKey TableName String :=
  ⟨column, target, .setNull⟩

namespace Tables

def mediaFiles : Table where
  columns := [column "id", column "filename", column "original_filename", column "filepath",
    column "type", column "mime_type", column "file_size", column "duration", column "width",
    column "height", column "checksum", timestamp "created_at", timestamp "updated_at"]
  primaryKey := some "id"
  autoincrement := true

def playlists : Table where
  columns := [column "id", column "name", column "description", timestamp "created_at",
    timestamp "updated_at"]
  primaryKey := some "id"
  autoincrement := true

def playlistItems : Table where
  columns := [column "id", column "playlist_id", column "media_id", column "order_index",
    withDefault "image_duration" (.integer 5), timestamp "created_at"]
  primaryKey := some "id"
  autoincrement := true
  foreignKeys := [cascades "playlist_id" .playlists, cascades "media_id" .mediaFiles]

def clients : Table where
  columns := [column "id", column "name", column "assigned_playlist_id",
    withDefault "status" (.text "offline"), column "last_seen", column "version",
    column "capabilities", timestamp "created_at", timestamp "updated_at"]
  primaryKey := some "id"
  foreignKeys := [setsNull "assigned_playlist_id" .playlists]

def clientStatus : Table where
  columns := [column "id", column "client_id", column "current_media_id", column "position",
    withDefault "is_playing" (.integer 0), column "error_message", timestamp "timestamp"]
  primaryKey := some "id"
  autoincrement := true
  foreignKeys := [cascades "client_id" .clients, setsNull "current_media_id" .mediaFiles]

def systemState : Table where
  columns := [column "key", column "value", timestamp "updated_at"]
  primaryKey := some "key"

def clientGroups : Table where
  columns := [column "id", column "name", column "description", timestamp "created_at",
    timestamp "updated_at"]
  primaryKey := some "id"
  autoincrement := true

def clientGroupMembers : Table where
  columns := [column "id", column "group_id", column "client_id", timestamp "added_at"]
  primaryKey := some "id"
  autoincrement := true
  foreignKeys := [cascades "group_id" .clientGroups, cascades "client_id" .clients]

/-- `schedules` of migration 004. -/
def schedules : Table where
  columns := [column "id", column "name", column "playlist_id", column "client_id",
    column "group_id", column "start_time", column "end_time",
    withDefault "days_of_week" (.text "0,1,2,3,4,5,6"), withDefault "priority" (.integer 50),
    withDefault "enabled" (.integer 1), timestamp "created_at", timestamp "updated_at"]
  primaryKey := some "id"
  autoincrement := true
  foreignKeys := [cascades "playlist_id" .playlists, cascades "client_id" .clients,
    cascades "group_id" .clientGroups]

def clientPlaylists : Table where
  columns := [column "id", column "client_id", column "playlist_id",
    withDefault "priority" (.integer 50), timestamp "assigned_at"]
  primaryKey := some "id"
  autoincrement := true
  foreignKeys := [cascades "client_id" .clients, cascades "playlist_id" .playlists]

/-- The default of a `REAL` column is stored as the real 0. -/
def playbackLogs : Table where
  columns := [column "id", column "client_id", column "media_id", timestamp "started_at",
    column "ended_at", withDefault "duration_watched" (.real 0),
    withDefault "completed" (.integer 0)]
  primaryKey := some "id"
  autoincrement := true
  foreignKeys := [cascades "client_id" .clients, cascades "media_id" .mediaFiles]

/-- `notification_rules` of migration 008, and `notification_rules_new` of migration 012. -/
def notificationRules : Table where
  columns := [column "id", column "name", column "event_type", column "channel",
    column "destination", withDefault "enabled" (.integer 1), timestamp "created_at"]
  primaryKey := some "id"
  autoincrement := true

def notificationHistory : Table where
  columns := [column "id", column "rule_id", column "event_type", column "channel",
    column "destination", column "payload", column "status", column "error_message",
    timestamp "sent_at"]
  primaryKey := some "id"
  autoincrement := true
  foreignKeys := [cascades "rule_id" .notificationRules]

def approvalLogs : Table where
  columns := [column "id", column "media_id", column "action", column "comment",
    timestamp "timestamp"]
  primaryKey := some "id"
  autoincrement := true
  foreignKeys := [cascades "media_id" .mediaFiles]

def users : Table where
  columns := [column "id", column "username", column "email", column "password_hash",
    withDefault "role" (.text "viewer"), timestamp "created_at"]
  primaryKey := some "id"
  autoincrement := true

def clientTelemetry : Table where
  columns := [column "id", column "client_id", column "cpu_pct", column "mem_used_mb",
    column "mem_total_mb", column "disks_json", column "temps_json", column "net_json",
    column "mpv_json", column "process_json", timestamp "recorded_at"]
  primaryKey := some "id"
  autoincrement := true
  foreignKeys := [cascades "client_id" .clients]

def clientLogEvents : Table where
  columns := [column "id", column "client_id", column "level", column "target",
    column "message", timestamp "recorded_at"]
  primaryKey := some "id"
  autoincrement := true
  foreignKeys := [cascades "client_id" .clients]

/-- `schedules_new` of migration 013. -/
def schedulesNew : Table where
  columns := [column "id", column "name", column "playlist_id", column "client_id",
    column "group_id", column "start_time", column "end_time",
    withDefault "days_of_week" (.text "0,1,2,3,4,5,6"), withDefault "priority" (.integer 50),
    withDefault "enabled" (.integer 1), column "cron_expression", column "duration_seconds",
    column "timezone", column "conditions", withDefault "interrupt_mode" (.text "assign"),
    column "template_id", timestamp "created_at", timestamp "updated_at"]
  primaryKey := some "id"
  autoincrement := true
  foreignKeys := [cascades "playlist_id" .playlists, cascades "client_id" .clients,
    cascades "group_id" .clientGroups]

def scheduleTemplates : Table where
  columns := [column "id", column "name", column "description", column "definition_json",
    withDefault "is_builtin" (.integer 0), timestamp "created_at"]
  primaryKey := some "id"
  autoincrement := true

def mediaFolders : Table where
  columns := [column "id", column "name", column "parent_id", withDefault "path" (.text "/"),
    column "created_by", timestamp "created_at", timestamp "updated_at"]
  primaryKey := some "id"
  autoincrement := true
  foreignKeys := [cascades "parent_id" .mediaFolders]

def subtitleTracks : Table where
  columns := [column "id", column "media_file_id", column "kind", column "storage_filename",
    column "original_filename", column "format", column "size_bytes", column "checksum",
    column "stream_index", column "codec", column "language", column "label",
    withDefault "is_default" (.integer 0), withDefault "is_forced" (.integer 0),
    timestamp "created_at"]
  primaryKey := some "id"
  autoincrement := true
  foreignKeys := [cascades "media_file_id" .mediaFiles]

def thumbnailJobs : Table where
  columns := [column "id", column "media_id", withDefault "state" (.text "queued"),
    withDefault "attempts" (.integer 0), column "last_error", timestamp "created_at",
    timestamp "updated_at"]
  primaryKey := some "id"
  autoincrement := true
  foreignKeys := [cascades "media_id" .mediaFiles]

def uploadCompletionJobs : Table where
  columns := [column "id", column "upload_id", column "storage_backend", column "storage_key",
    column "original_filename", column "mime_type", column "total_size", column "folder_id",
    withDefault "state" (.text "queued"), withDefault "attempts" (.integer 0),
    column "last_error", column "media_id", column "existing_media_id", timestamp "created_at",
    timestamp "updated_at"]
  primaryKey := some "id"
  autoincrement := true

end Tables

/-! ### Migrations -/

/-- A migration: what its `up` and `down` execute on SQLite. -/
structure SqliteMigration where
  version : Version
  up : List SqliteStatement
  down : List SqliteStatement

def createIfMissing (t : TableName) (s : Table) : SqliteStatement := .createTable true t s

def drop (t : TableName) : SqliteStatement := .dropTable true t

/-- Initial schema. -/
def m001 : SqliteMigration where
  version := [1, 0, 0]
  up := [
    createIfMissing .mediaFiles Tables.mediaFiles,
    createIfMissing .playlists Tables.playlists,
    createIfMissing .playlistItems Tables.playlistItems,
    createIfMissing .clients Tables.clients,
    createIfMissing .clientStatus Tables.clientStatus,
    createIfMissing .systemState Tables.systemState,
    .createIndex .mediaFiles ["type"],
    .createIndex .mediaFiles ["created_at"],
    .createIndex .mediaFiles ["checksum"],
    .createIndex .playlistItems ["playlist_id", "order_index"],
    .createIndex .playlistItems ["media_id"],
    .createIndex .clients ["status"],
    .createIndex .clients ["last_seen"],
    .createIndex .clients ["assigned_playlist_id"],
    .createIndex .clientStatus ["client_id"],
    .createIndex .clientStatus ["timestamp"],
    .createTrigger .mediaFiles,
    .createTrigger .playlists,
    .createTrigger .playlistItems,
    .createTrigger .playlistItems,
    .createTrigger .playlistItems,
    .createTrigger .clients,
    .createView "playlists_with_counts" [.playlists, .playlistItems, .mediaFiles],
    .createView "clients_latest_status" [.clients, .clientStatus, .mediaFiles, .playlists],
    .createView "media_usage_stats" [.mediaFiles, .playlistItems, .clientStatus],
    .insertOrIgnore .systemState
      [("key", .const (.text "schema_version")), ("value", .const (.text "1.0.0"))],
    .insertOrIgnore .systemState [("key", .const (.text "initialized_at")), ("value", .now)]]
  down := [
    .dropView "media_usage_stats",
    .dropView "clients_latest_status",
    .dropView "playlists_with_counts",
    drop .clientStatus,
    drop .clients,
    drop .playlistItems,
    drop .playlists,
    drop .mediaFiles,
    drop .systemState]

/-- `media_files.thumbnail_status`. -/
def m002 : SqliteMigration where
  version := [1, 1, 0]
  up := [.addColumn .mediaFiles (withDefault "thumbnail_status" (.text "pending")) none]
  down := [
    .createTableAs .mediaFilesBackup ["id", "filename", "original_filename", "filepath", "type",
      "mime_type", "file_size", "duration", "width", "height", "checksum", "created_at",
      "updated_at"] .mediaFiles,
    .dropTable false .mediaFiles,
    .renameTable .mediaFilesBackup .mediaFiles]

/-- Client groups. -/
def m003 : SqliteMigration where
  version := [1, 2, 0]
  up := [
    createIfMissing .clientGroups Tables.clientGroups,
    createIfMissing .clientGroupMembers Tables.clientGroupMembers,
    .createIndex .clientGroupMembers ["group_id"],
    .createIndex .clientGroupMembers ["client_id"],
    .createTrigger .clientGroups]
  down := [drop .clientGroupMembers, drop .clientGroups, .dropOther]

/-- Schedules, and `playlists.loop`. -/
def m004 : SqliteMigration where
  version := [1, 3, 0]
  up := [
    createIfMissing .schedules Tables.schedules,
    .createIndex .schedules ["playlist_id"],
    .createIndex .schedules ["client_id"],
    .createIndex .schedules ["group_id"],
    .createIndex .schedules ["enabled"],
    .createTrigger .schedules,
    .addColumn .playlists (withDefault "loop" (.integer 1)) none]
  -- the column is left in place
  down := [drop .schedules, .dropOther]

/-- Playlists of clients. -/
def m005 : SqliteMigration where
  version := [1, 4, 0]
  up := [
    createIfMissing .clientPlaylists Tables.clientPlaylists,
    .createIndex .clientPlaylists ["client_id"],
    .createIndex .clientPlaylists ["playlist_id"],
    .createIndex .clientPlaylists ["client_id", "priority"]]
  down := [drop .clientPlaylists]

/-- `clients.interrupted_from_playlist_id`. -/
def m006 : SqliteMigration where
  version := [1, 5, 0]
  up := [.addColumn .clients (column "interrupted_from_playlist_id")
    (some (.playlists, .setNull))]
  -- left in place
  down := []

/-- Playback logs. -/
def m007 : SqliteMigration where
  version := [1, 6, 0]
  up := [
    createIfMissing .playbackLogs Tables.playbackLogs,
    .createIndex .playbackLogs ["client_id"],
    .createIndex .playbackLogs ["media_id"],
    .createIndex .playbackLogs ["started_at"]]
  down := [drop .playbackLogs]

/-- Notifications. -/
def m008 : SqliteMigration where
  version := [1, 7, 0]
  up := [
    createIfMissing .notificationRules Tables.notificationRules,
    createIfMissing .notificationHistory Tables.notificationHistory,
    .createIndex .notificationRules ["event_type", "enabled"],
    .createIndex .notificationHistory ["sent_at"]]
  down := [drop .notificationHistory, drop .notificationRules]

/-- Content approval. -/
def m009 : SqliteMigration where
  version := [1, 8, 0]
  up := [
    .addColumn .mediaFiles (withDefault "approval_status" (.text "pending")) none,
    createIfMissing .approvalLogs Tables.approvalLogs,
    .createIndex .approvalLogs ["media_id"],
    .createIndex .mediaFiles ["approval_status"]]
  -- the column is dropped by the other adapters only
  down := [drop .approvalLogs]

/-- Users. -/
def m010 : SqliteMigration where
  version := [1, 9, 0]
  up := [
    createIfMissing .users Tables.users,
    .createIndex .users ["username"],
    .createIndex .users ["email"]]
  down := [drop .users]

/-- Telemetry and log events of clients. -/
def m011 : SqliteMigration where
  version := [1, 10, 0]
  up := [
    createIfMissing .clientTelemetry Tables.clientTelemetry,
    createIfMissing .clientLogEvents Tables.clientLogEvents,
    .createIndex .clientTelemetry ["client_id", "recorded_at"],
    .createIndex .clientTelemetry ["recorded_at"],
    .createIndex .clientLogEvents ["client_id", "recorded_at"],
    .createIndex .clientLogEvents ["level", "recorded_at"]]
  down := [drop .clientTelemetry, drop .clientLogEvents]

/-- The columns that `SQLITE_REBUILD` copies. -/
def ruleColumns : List String :=
  ["id", "name", "event_type", "channel", "destination", "enabled", "created_at"]

/-- `SQLITE_REBUILD`: a wider `CHECK` on `notification_rules.event_type`. -/
def m012 : SqliteMigration where
  version := [1, 11, 0]
  up := [
    .createTable false .notificationRulesNew Tables.notificationRules,
    .insertSelect .notificationRulesNew ruleColumns .notificationRules,
    .dropTable false .notificationRules,
    .renameTable .notificationRulesNew .notificationRules,
    .createIndex .notificationRules ["event_type", "enabled"]]
  down := []

/-- `BUILTIN_TEMPLATES`: name, description and definition. -/
def builtinTemplates : List (String × String × String) := [
  ("Business hours (9-5 weekdays)", "Triggers at 09:00 Monday–Friday, runs 8 hours",
    "\x7b\"mode\":\"advanced\",\"cron_expression\":\"0 9 * * 1-5\",\"duration_seconds\":28800," ++
      "\"interrupt_mode\":\"assign\"\x7d"),
  ("Weekends only", "All day Saturday and Sunday",
    "\x7b\"mode\":\"simple\",\"start_time\":\"00:00\",\"end_time\":\"23:59\"," ++
      "\"days_of_week\":\"0,6\",\"interrupt_mode\":\"assign\"\x7d"),
  ("Holiday hours", "Plays only on public holidays",
    "\x7b\"mode\":\"advanced\",\"cron_expression\":\"0 10 * * *\",\"duration_seconds\":21600," ++
      "\"conditions\":\x7b\"holidays\":\x7b\"country\":\"US\",\"match\":\"on\"\x7d\x7d," ++
      "\"interrupt_mode\":\"assign\"\x7d"),
  ("Evenings & weekends", "Triggers at 17:00 weekdays plus all day weekends",
    "\x7b\"mode\":\"advanced\",\"cron_expression\":\"0 17 * * 1-5\"," ++
      "\"duration_seconds\":57600,\"interrupt_mode\":\"assign\"\x7d"),
  ("Offline emergency", "Fires whenever a client_offline event is emitted",
    "\x7b\"mode\":\"advanced\",\"duration_seconds\":900," ++
      "\"conditions\":\x7b\"event_trigger\":\x7b\"event_type\":\"client_offline\"\x7d\x7d," ++
      "\"interrupt_mode\":\"interrupt\"\x7d")]

/-- An insertion of `seedTemplatesSql`. -/
def insertTemplate (t : String × String × String) : SqliteStatement :=
  .insert .scheduleTemplates [("name", .const (.text t.1)), ("description", .const (.text t.2.1)),
    ("definition_json", .const (.text t.2.2)), ("is_builtin", .const (.integer 1))]

/-- The columns that migration 013 copies. -/
def scheduleColumns : List String :=
  ["id", "name", "playlist_id", "client_id", "group_id", "start_time", "end_time",
    "days_of_week", "priority", "enabled", "created_at", "updated_at"]

/-- Advanced scheduling. -/
def m013 : SqliteMigration where
  version := [2, 0, 0]
  up := [
    .createTable false .schedulesNew Tables.schedulesNew,
    .insertSelect .schedulesNew scheduleColumns .schedules,
    .dropTable false .schedules,
    .renameTable .schedulesNew .schedules,
    .createIndex .schedules ["playlist_id"],
    .createIndex .schedules ["client_id"],
    .createIndex .schedules ["group_id"],
    .createIndex .schedules ["enabled"],
    .createTrigger .schedules,
    createIfMissing .scheduleTemplates Tables.scheduleTemplates,
    .deleteWhere .scheduleTemplates "is_builtin" (.integer 1)]
    ++ builtinTemplates.map insertTemplate
  -- the columns are not removed
  down := [drop .scheduleTemplates]

/-- Media folders. -/
def m014 : SqliteMigration where
  version := [2, 1, 0]
  up := [
    createIfMissing .mediaFolders Tables.mediaFolders,
    .createIndex .mediaFolders ["parent_id"],
    .createIndex .mediaFolders ["path"],
    .createTrigger .mediaFolders,
    .addColumn .mediaFiles (column "folder_id") (some (.mediaFolders, .setNull)),
    .createIndex .mediaFiles ["folder_id"]]
  down := [.dropOther, .dropColumn .mediaFiles "folder_id", drop .mediaFolders]

/-- Subtitle tracks. -/
def m015 : SqliteMigration where
  version := [2, 2, 0]
  up := [
    createIfMissing .subtitleTracks Tables.subtitleTracks,
    .createIndex .subtitleTracks ["media_file_id"],
    .createIndex .subtitleTracks ["media_file_id", "stream_index"],
    .createIndex .subtitleTracks ["media_file_id", "storage_filename"]]
  down := [drop .subtitleTracks]

/-- Thumbnail jobs. -/
def m016 : SqliteMigration where
  version := [2, 3, 0]
  up := [
    createIfMissing .thumbnailJobs Tables.thumbnailJobs,
    .createIndex .thumbnailJobs ["state"],
    .createIndex .thumbnailJobs ["media_id"]]
  down := [drop .thumbnailJobs]

/-- Upload-completion jobs. -/
def m017 : SqliteMigration where
  version := [2, 4, 0]
  up := [
    createIfMissing .uploadCompletionJobs Tables.uploadCompletionJobs,
    .createIndex .uploadCompletionJobs ["state"],
    .createIndex .uploadCompletionJobs ["upload_id"]]
  down := [drop .uploadCompletionJobs]

/-- Playback quality. -/
def m018 : SqliteMigration where
  version := [2, 5, 0]
  up := ["rebuffer_count", "dropped_frames", "time_to_first_frame_ms", "decoder_errors"].map
    fun c => .addColumn .playbackLogs (column c) none
  down := ["rebuffer_count", "dropped_frames", "time_to_first_frame_ms", "decoder_errors"].map
    fun c => .dropColumn .playbackLogs c

/-- The registry. -/
def migrations : List SqliteMigration :=
  [m001, m002, m003, m004, m005, m006, m007, m008, m009, m010, m011, m012, m013, m014, m015,
    m016, m017, m018]

/-! ### The runner -/

/-- A database with the rows of `schema_migrations`. -/
structure Store where
  applied : List Version
  db : Database TableName String

def versionText (v : Version) : String := ".".intercalate (v.map toString)

/-- `Number` of a part of a version, 0 where it is none. -/
def partOfText (cs : List Char) : Nat :=
  if cs.all Char.isDigit then cs.foldl (fun n c => n * 10 + (c.toNat - '0'.toNat)) 0 else 0

/-- `split('.')`. -/
def splitDots : List Char → List (List Char)
  | [] => [[]]
  | c :: cs =>
    if c = '.' then [] :: splitDots cs
    else
      match splitDots cs with
      | [] => [[c]]
      | p :: ps => (c :: p) :: ps

def versionOfText (s : String) : Version := (splitDots s.toList).map partOfText

/-- `updateSchemaVersion`. -/
def updateSchemaVersion (v : Version) : SqliteStatement :=
  .updateWhere .systemState [("value", .const (.text (versionText v))), ("updated_at", .now)] "key"
    (.text "schema_version")

/-- The stored schema version, if there is one. -/
def schemaVersion (db : Database TableName String) : Option String :=
  if db.schema.has .systemState = true then
    match (db.rows .systemState).find? fun r => (r "key").equals (.text "schema_version") with
    | some r =>
      match r "value" with
      | .text s => if s = "" then none else some s
      | _ => none
    | none => none
  else none

/-- `handleBaseline`: a database from before the migration records. -/
def handleBaseline (s : Store) : Store :=
  match s.applied, schemaVersion s.db with
  | [], some text =>
    let toBaseline := migrations.filter fun m =>
      compareVersions m.version (versionOfText text) ≤ 0
    ⟨toBaseline.map SqliteMigration.version, s.db⟩
  | _, _ => s

/-- The pending migrations, sorted by version. -/
def pending (applied : List Version) : List SqliteMigration :=
  (migrations.filter fun m => !applied.contains m.version).insertionSort fun a b =>
    compareVersions a.version b.version ≤ 0

/-- The loop of `run`: what it leaves, and whether it throws. -/
def runPending (now : String) : List SqliteMigration → Store → Except Store Store
  | [], s => .ok s
  | m :: todo, s =>
    match execAll now m.up s.db with
    | .error db => .error { s with db := db }
    | .ok db =>
      let applied := s.applied ++ [m.version]
      match exec now (updateSchemaVersion m.version) db with
      | none => .error ⟨applied, db⟩
      | some db' => runPending now todo ⟨applied, db'⟩

def run (now : String) (s : Store) : Except Store Store :=
  runPending now (pending (handleBaseline s).applied) (handleBaseline s)

/-- The loop of `rollback`. -/
def rollbackLoop (now : String) (target : Option Version) :
    List Version → Store → Except Store Store
  | [], s => .ok s
  | v :: todo, s =>
    if target.any fun t => compareVersions v t ≤ 0 then .ok s
    else
      match migrations.find? fun m => m.version = v with
      | none => .error s
      | some m =>
        match execAll now m.down s.db with
        | .error db => .error { s with db := db }
        | .ok db =>
          let s' : Store := ⟨s.applied.filter fun w => w ≠ v, db⟩
          -- without a target only one is rolled back
          if target = none then .ok s' else rollbackLoop now target todo s'

def rollback (now : String) (target : Option Version) (s : Store) : Except Store Store :=
  rollbackLoop now target (s.applied.insertionSort fun a b => compareVersions b a ≤ 0) s

end Montr.Server.Sqlite
