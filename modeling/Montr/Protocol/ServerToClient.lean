import Mathlib
import Montr.Client.Deserialize
import Montr.Server.MessageJson

namespace Montr.Protocol

open Client Server Wire

/-!
# From the server to the player

What the player makes of the messages that the server builds from its rows.

* `Push` — the messages with a playlist or with schedules;
* `Delivered` — the player reads the message, and has the same values;
* `Push.Fits` — what the rows must hold for that;
* `delivered_iff_fits` — every message over every store.
-/

/-- `JSON.stringify` of a leaf. -/
def stringify : JsScalar → Wire.Json JsonToken
  | .finite x => .number (.numeral x)
  | .infinite _ => .null
  | .loneSurrogate => .number .loneSurrogate

/-- The number of a leaf. -/
def scalarValue : JsScalar → Option ℚ
  | .finite x => some x
  | .infinite _ | .loneSurrogate => none

/-- **Delivered as it was sent.** -/
def Delivered (numbers : SerdeNumbers) (message : Wire.Json JsScalar) : Prop :=
  Decodes stringify scalarValue (PushedMessage.fromJson numbers) PushedMessage.tree message

/-! ### Messages and rows -/

/-- A message with a playlist or with schedules, by the rows that it is built from. -/
inductive Push
  /-- `sendPlaylistToClient` -/
  | assigned (p : Playlist)
  /-- `broadcastPlaylistUpdate` -/
  | updated (p : Playlist)
  /-- `sendPlaylistInterrupt` -/
  | interrupt (p : Playlist) (previousPlaylistId : Option Nat)
  /-- `sendPlaylistResume` -/
  | resume (p : Playlist)
  /-- `sendPlaylistResume` without a playlist -/
  | stop
  /-- `sendSchedulesToClient` -/
  | schedules (rows : List ScheduleRow)

def Push.message (cfg : ServerConfig) (db : PlaylistStore) : Push → Wire.Json JsScalar
  | .assigned p =>
    (ServerMessage.playlistAssigned p.id p.name true (listing cfg db p.id)).toJson
  | .updated p => (ServerMessage.playlistUpdated p.id true (listing cfg db p.id)).toJson
  | .interrupt p previousPlaylistId =>
    (ServerMessage.playlistInterrupt p.id p.name true (listing cfg db p.id)
      (.ofOption previousPlaylistId)).toJson
  | .resume p =>
    (ServerMessage.playlistResume (.ofOption (some p.id)) (some p.name) true
      (listing cfg db p.id)).toJson
  | .stop => (ServerMessage.playlistResume (.ofOption none) none true []).toJson
  | .schedules rows => scheduleDefinitions rows

section

variable (numbers : SerdeNumbers)

/-- An item with its media and subtitles, where the player's integers can take them and the
    numerals of the others are read as the same numbers. -/
structure ItemFits (db : PlaylistStore) (row : Server.PlaylistItem × MediaFile) : Prop where
  id : row.1.id < 2 ^ 32
  mediaId : row.1.mediaId < 2 ^ 32
  orderIndex : 0 ≤ row.1.orderIndex ∧ row.1.orderIndex < 2 ^ 32
  imageDuration : row.1.imageDuration < 2 ^ 32
  duration : row.2.type = .video → ∀ d ∈ row.2.duration, numbers.f64 d = d
  fileSize : ∀ n ∈ row.2.fileSize, numbers.u64 n = some n
  subtitles : row.2.type = .video → ∀ track ∈ db.getSubtitlesForMedia row.1.mediaId,
    track.id < 2 ^ 32 ∧ (track.kind = .embedded → ∀ n ∈ track.streamIndex, n < 2 ^ 32)

/-- The same of a schedule; its conditions may be any value of at most 124 levels. -/
structure ScheduleFits (row : ScheduleRow) : Prop where
  id : row.id < 2 ^ 32
  playlistId : row.playlistId < 2 ^ 32
  groupId : ∀ n ∈ row.groupId, n < 2 ^ 32
  priority : row.priority = .null ∨
    ∃ k : Int, -2 ^ 31 ≤ k ∧ k < 2 ^ 31 ∧ row.priority = .number k
  durationSeconds : row.durationSeconds = .null ∨
    ∃ n : Nat, n < 2 ^ 32 ∧ row.durationSeconds = .number n
  levels : ∀ v ∈ row.conditions, v.nestsWithin 124 = true
  leaves : ∀ v ∈ row.conditions, v.Each fun x => ∃ q, x = .finite q ∧ numbers.value q = q

/-- The condition. -/
def Push.Fits (db : PlaylistStore) : Push → Prop
  | .assigned p | .updated p | .resume p =>
    p.id < 2 ^ 32 ∧ ∀ row ∈ db.itemsWithMedia p.id, ItemFits numbers db row
  | .interrupt p previousPlaylistId =>
    (p.id < 2 ^ 32 ∧ ∀ n ∈ previousPlaylistId, n < 2 ^ 32) ∧
      ∀ row ∈ db.itemsWithMedia p.id, ItemFits numbers db row
  | .stop => True
  | .schedules rows => ∀ row ∈ rows, ScheduleFits numbers row

end

section

variable {numbers : SerdeNumbers}

/-! ### Numbers -/

@[simp] theorem jsNumber_ne_null {x : ℚ} : jsNumber x ≠ .null := by
  simp [jsNumber]

theorem decodes_u32 {x : ℚ} :
    Decodes stringify scalarValue readU32 (fun n : Nat => .number n) (jsNumber x) ↔
      ∃ n : Nat, n < 2 ^ 32 ∧ x = n := by
  simp only [Decodes, jsNumber, Json.subst, stringify, readU32, readNumber, same_number,
    scalarValue, Option.some.injEq, Json.number.injEq]
  constructor
  · rintro ⟨n, hn, y, rfl, rfl⟩
    obtain ⟨⟨-, -, hlt⟩, -⟩ := Option.ite_none_right_eq_some.mp hn
    exact ⟨n, by simpa using hlt, rfl⟩
  · rintro ⟨n, hn, rfl⟩
    have hlt : ((n : ℚ).num : Int) < 2 ^ 32 := by
      rw [Rat.num_natCast]
      exact_mod_cast hn
    exact ⟨n, if_pos ⟨Rat.den_natCast n, by simp, hlt⟩, n, rfl, rfl⟩

theorem decodes_i32 {x : ℚ} :
    Decodes stringify scalarValue readI32 (fun k : Int => .number k) (jsNumber x) ↔
      ∃ k : Int, -2 ^ 31 ≤ k ∧ k < 2 ^ 31 ∧ x = k := by
  simp only [Decodes, jsNumber, Json.subst, stringify, readI32, readNumber, same_number,
    scalarValue, Option.some.injEq, Json.number.injEq]
  constructor
  · rintro ⟨k, hk, y, rfl, rfl⟩
    obtain ⟨⟨-, hle, hlt⟩, -⟩ := Option.ite_none_right_eq_some.mp hk
    exact ⟨k, hle, hlt, rfl⟩
  · rintro ⟨k, hle, hlt, rfl⟩
    exact ⟨k, if_pos ⟨Rat.den_intCast k, hle, hlt⟩, k, rfl, rfl⟩

@[simp] theorem decodes_id {n : Nat} :
    Decodes stringify scalarValue readU32 (fun n : Nat => .number n) (jsNumber n) ↔ n < 2 ^ 32 := by
  rw [decodes_u32]
  constructor
  · rintro ⟨m, hm, heq⟩
    obtain rfl : n = m := by exact_mod_cast heq
    exact hm
  · intro hn
    exact ⟨n, hn, rfl⟩

@[simp] theorem decodes_orderIndex {k : Int} :
    Decodes stringify scalarValue readU32 (fun n : Nat => .number n) (jsNumber k) ↔
      0 ≤ k ∧ k < 2 ^ 32 := by
  rw [decodes_u32]
  constructor
  · rintro ⟨n, hn, heq⟩
    obtain rfl : k = n := by exact_mod_cast heq
    omega
  · rintro ⟨hle, hlt⟩
    obtain ⟨n, rfl⟩ := Int.eq_ofNat_of_zero_le hle
    exact ⟨n, by omega, Int.cast_natCast n⟩

@[simp] theorem decodes_f64 {x : ℚ} :
    Decodes stringify scalarValue (readF64 numbers) .number (jsNumber x) ↔ numbers.f64 x = x := by
  simp [Decodes, jsNumber, Json.subst, stringify, readF64, readNumber, same_number, scalarValue,
    eq_comm]

@[simp] theorem decodes_u64 {n : Nat} :
    Decodes stringify scalarValue (readU64 numbers) (fun n : Nat => .number n) (jsNumber n) ↔
      numbers.u64 n = some n := by
  simp [Decodes, jsNumber, Json.subst, stringify, readU64, readNumber, same_number, scalarValue]

theorem decodes_flag (b : Bool) : Decodes stringify scalarValue readBool .bool (.bool b) :=
  decodes_bool

theorem decodes_text (s : String) : Decodes stringify scalarValue readString .string (.string s) :=
  decodes_string

/-- A text, or `null`. -/
@[simp] theorem fieldDecodes_text (o : Option String) :
    FieldDecodes stringify scalarValue (optionalEntry readString)
      (fun o => some ((o.map Json.string).getD .null)) (nullOr (o.map .string)) := by
  rw [nullOr, fieldDecodes_nullable (by simp [readString])]
  cases o <;> simp

/-- An id, or `null`. -/
theorem fieldDecodes_idOrNull {o : Option Nat} :
    FieldDecodes stringify scalarValue (optionalEntry readU32)
        (fun o => some ((o.map fun n : Nat => Json.number (n : ℚ)).getD .null))
        (nullOr (o.map fun n : Nat => jsNumber n)) ↔ ∀ n ∈ o, n < 2 ^ 32 := by
  rw [nullOr, fieldDecodes_nullable (by simp [readU32, readNumber])]
  cases o with
  | none => simp
  | some n => simp

/-- A text that may be left out. -/
@[simp] theorem fieldDecodes_skippedText (o : Option String) :
    FieldDecodes stringify scalarValue (optionalEntry readString) (Option.map .string)
      (o.map Json.string) := by
  rw [fieldDecodes_skipped rfl]
  simp

@[simp] theorem fieldDecodes_skippedU32 {o : Option Nat} :
    FieldDecodes stringify scalarValue (optionalEntry readU32)
        (Option.map fun n : Nat => Json.number (n : ℚ)) (o.map fun n : Nat => jsNumber n) ↔
      ∀ n ∈ o, n < 2 ^ 32 := by
  rw [fieldDecodes_skipped rfl]
  simp

@[simp] theorem fieldDecodes_skippedU64 {o : Option Nat} :
    FieldDecodes stringify scalarValue (optionalEntry (readU64 numbers))
        (Option.map fun n : Nat => Json.number (n : ℚ)) (o.map fun n : Nat => jsNumber n) ↔
      ∀ n ∈ o, numbers.u64 n = some n := by
  rw [fieldDecodes_skipped rfl]
  simp

@[simp] theorem fieldDecodes_duration {x : ℚ} :
    FieldDecodes stringify scalarValue (optionalEntry (readF64 numbers)) (Option.map .number)
        (some (jsNumber x)) ↔ numbers.f64 x = x := by
  rw [fieldDecodes_skipped rfl]
  simp

/-! ### Playlist items -/

theorem decodes_kind (kind : Server.SubtitleKind) :
    Decodes stringify scalarValue SubtitleKind.read SubtitleKind.tree (.string kind.text) := by
  cases kind with
  | external => exact ⟨.external, rfl, same_string.mpr rfl⟩
  | embedded => exact ⟨.embedded, rfl, same_string.mpr rfl⟩

theorem decodes_subtitle {p : SubtitleTrackPayload} :
    Decodes stringify scalarValue SubtitleTrack.read SubtitleTrack.tree p.toJson ↔
      p.id < 2 ^ 32 ∧ ∀ n ∈ p.streamIndex, n < 2 ^ 32 := by
  rw [SubtitleTrackPayload.toJson]
  refine decodes_struct (by simp [SubtitleTrackPayload.fields])
    (fun es t _ _ => by simp [SubtitleTrackPayload.fields, SubtitleTrack.fields]) fun es hget => ?_
  simp only [SubtitleTrackPayload.fields, List.forall_mem_cons, List.not_mem_nil, false_imp_iff,
    implies_true, and_true] at hget
  obtain ⟨hid, hkind, hlanguage, hlabel, hdefault, hforced, hurl, hfilename, hformat, hchecksum,
    hindex, hcodec⟩ := hget
  rw [SubtitleTrack.readFields, hid, hkind, hlanguage, hlabel, hdefault, hforced, hurl, hfilename,
    hformat, hchecksum, hindex, hcodec]
  simp only [↓bind_eq_some, SubtitleTrackPayload.fields, SubtitleTrack.fields,
    List.forall₂_cons, List.forall₂_nil_left_iff]
  constructor
  · rintro ⟨t, ⟨id, hid, _, _, _, _, _, _, _, _, _, _, _, _, _, _, _, _, _, _, index, hindex, _, _,
      heq⟩, sid, _, _, _, _, _, _, _, _, _, sindex, _⟩
    obtain rfl := Option.some.inj heq
    exact ⟨decodes_id.mp (fieldDecodes_required.mp ⟨id, hid, sid⟩),
      fieldDecodes_skippedU32.mp ⟨index, hindex, sindex⟩⟩
  · rintro ⟨hid, hindex⟩
    obtain ⟨id, hid, sid⟩ := fieldDecodes_required.mpr (decodes_id.mpr hid)
    obtain ⟨kind, hkind, skind⟩ := fieldDecodes_required.mpr (decodes_kind p.kind)
    obtain ⟨language, hlanguage, slanguage⟩ := fieldDecodes_text p.language
    obtain ⟨label, hlabel, slabel⟩ := fieldDecodes_text p.label
    obtain ⟨isDefault, hdefault, sdefault⟩ := fieldDecodes_required.mpr (decodes_flag p.isDefault)
    obtain ⟨isForced, hforced, sforced⟩ := fieldDecodes_required.mpr (decodes_flag p.isForced)
    obtain ⟨url, hurl, surl⟩ := fieldDecodes_skippedText p.downloadUrl
    obtain ⟨filename, hfilename, sfilename⟩ := fieldDecodes_skippedText p.filename
    obtain ⟨format, hformat, sformat⟩ := fieldDecodes_skippedText p.format
    obtain ⟨checksum, hchecksum, schecksum⟩ := fieldDecodes_skippedText p.checksum
    obtain ⟨index, hindex, sindex⟩ := fieldDecodes_skippedU32.mpr hindex
    obtain ⟨codec, hcodec, scodec⟩ := fieldDecodes_skippedText p.codec
    exact ⟨_, ⟨id, hid, kind, hkind, language, hlanguage, label, hlabel, isDefault, hdefault,
      isForced, hforced, url, hurl, filename, hfilename, format, hformat, checksum, hchecksum,
      index, hindex, codec, hcodec, rfl⟩, sid, skind, slanguage, slabel, sdefault, sforced, surl,
      sfilename, sformat, schecksum, sindex, scodec, trivial⟩

theorem decodes_item {t : PlaylistMediaItem} :
    Decodes stringify scalarValue (PlaylistItem.read numbers) PlaylistItem.tree t.toJson ↔
      t.id < 2 ^ 32 ∧ t.mediaId < 2 ^ 32 ∧ numbers.f64 t.duration = t.duration ∧
        (0 ≤ t.orderIndex ∧ t.orderIndex < 2 ^ 32) ∧ t.imageDuration < 2 ^ 32 ∧
        (∀ p ∈ t.subtitles, p.id < 2 ^ 32 ∧ ∀ n ∈ p.streamIndex, n < 2 ^ 32) ∧
        ∀ n ∈ t.fileSize, numbers.u64 n = some n := by
  have htracks : Decodes stringify scalarValue (readVec SubtitleTrack.read)
      (fun ts => .array (ts.map SubtitleTrack.tree))
      (.array (t.subtitles.map SubtitleTrackPayload.toJson)) ↔
        ∀ p ∈ t.subtitles, p.id < 2 ^ 32 ∧ ∀ n ∈ p.streamIndex, n < 2 ^ 32 := by
    simp only [decodes_vec, List.forall_mem_map, decodes_subtitle]
  rw [PlaylistMediaItem.toJson]
  refine decodes_struct (by simp [PlaylistMediaItem.fields])
    (fun es t _ _ => by simp [PlaylistMediaItem.fields, PlaylistItem.fields]) fun es hget => ?_
  simp only [PlaylistMediaItem.fields, List.forall_mem_cons, List.not_mem_nil, false_imp_iff,
    implies_true, and_true] at hget
  obtain ⟨hid, hmedia, hfilename, hurl, htype, hduration, hchecksum, horder, himage, hsubtitles,
    hsize⟩ := hget
  rw [PlaylistItem.readFields, hid, hmedia, hfilename, hurl, htype, hduration, hchecksum, horder,
    himage, hsubtitles, hsize]
  simp only [↓bind_eq_some, PlaylistMediaItem.fields, PlaylistItem.fields, List.forall₂_cons,
    List.forall₂_nil_left_iff]
  constructor
  · rintro ⟨a, ⟨id, hid, media, hmedia, _, _, _, _, _, _, duration, hduration, _, _, order, horder,
      image, himage, subtitles, hsubtitles, size, hsize, heq⟩, sid, smedia, _, _, _, sduration, _,
      sorder, simage, ssubtitles, ssize, _⟩
    obtain rfl := Option.some.inj heq
    exact ⟨decodes_id.mp (fieldDecodes_required.mp ⟨id, hid, sid⟩),
      decodes_id.mp (fieldDecodes_required.mp ⟨media, hmedia, smedia⟩),
      fieldDecodes_duration.mp ⟨duration, hduration, sduration⟩,
      decodes_orderIndex.mp (fieldDecodes_required.mp ⟨order, horder, sorder⟩),
      decodes_id.mp (fieldDecodes_required.mp ⟨image, himage, simage⟩),
      htracks.mp (fieldDecodes_default.mp ⟨subtitles, hsubtitles, ssubtitles⟩),
      fieldDecodes_skippedU64.mp ⟨size, hsize, ssize⟩⟩
  · rintro ⟨hid, hmedia, hduration, horder, himage, hsubtitles, hsize⟩
    obtain ⟨id, hid, sid⟩ := fieldDecodes_required.mpr (decodes_id.mpr hid)
    obtain ⟨media, hmedia, smedia⟩ := fieldDecodes_required.mpr (decodes_id.mpr hmedia)
    obtain ⟨filename, hfilename, sfilename⟩ := fieldDecodes_required.mpr (decodes_text t.filename)
    obtain ⟨url, hurl, surl⟩ := fieldDecodes_required.mpr (decodes_text t.downloadUrl)
    obtain ⟨type, htype, stype⟩ := fieldDecodes_required.mpr (decodes_text t.type.text)
    obtain ⟨duration, hduration, sduration⟩ := fieldDecodes_duration.mpr hduration
    obtain ⟨checksum, hchecksum, schecksum⟩ := fieldDecodes_text t.checksum
    obtain ⟨order, horder, sorder⟩ := fieldDecodes_required.mpr (decodes_orderIndex.mpr horder)
    obtain ⟨image, himage, simage⟩ := fieldDecodes_required.mpr (decodes_id.mpr himage)
    obtain ⟨subtitles, hsubtitles, ssubtitles⟩ := fieldDecodes_default.mpr (htracks.mpr hsubtitles)
    obtain ⟨size, hsize, ssize⟩ := fieldDecodes_skippedU64.mpr hsize
    exact ⟨_, ⟨id, hid, media, hmedia, filename, hfilename, url, hurl, type, htype, duration,
      hduration, checksum, hchecksum, order, horder, image, himage, subtitles, hsubtitles, size,
      hsize, rfl⟩, sid, smedia, sfilename, surl, stype, sduration, schecksum, sorder, simage,
      ssubtitles, ssize, trivial⟩

/-! ### Schedules -/

/-- The priority of a row, which may be anything. -/
theorem decodes_priority {cell : Cell} :
    Decodes stringify scalarValue readI32 (fun k : Int => .number k) cell.toJson ↔
      ∃ k : Int, -2 ^ 31 ≤ k ∧ k < 2 ^ 31 ∧ cell = .number k := by
  cases cell with
  | number x => exact decodes_i32.trans (by simp)
  | null | infinite | text =>
    simp [Decodes, Cell.toJson, Json.subst, stringify, readI32, readNumber]

theorem fieldDecodes_cell {cell : Cell} :
    FieldDecodes stringify scalarValue (optionalEntry readU32)
        (fun o => some ((o.map fun n : Nat => Json.number (n : ℚ)).getD .null))
        (some cell.toJson) ↔ cell = .null ∨ ∃ n : Nat, n < 2 ^ 32 ∧ cell = .number n := by
  rw [fieldDecodes_nullable (by simp [readU32, readNumber])]
  cases cell with
  | number x =>
    refine (or_iff_right jsNumber_ne_null).trans (decodes_u32.trans ?_)
    simp
  | null | infinite | text =>
    simp [Decodes, Cell.toJson, Json.subst, stringify, readU32, readNumber]

theorem readBack_iff {x : JsScalar} :
    ReadBack stringify scalarValue numbers.read x ↔ ∃ q, x = .finite q ∧ numbers.value q = q := by
  cases x with
  | finite q =>
    simp [ReadBack, stringify, scalarValue, readValue, SerdeNumbers.read, eq_comm]
  | infinite | loneSurrogate => simp [ReadBack, scalarValue]

theorem fieldDecodes_conditions {o : Option (Wire.Json JsScalar)} :
    FieldDecodes stringify scalarValue (optionalEntry (readValue numbers.read))
        (fun o => some ((o.map fun v => v).getD .null)) (nullOr o) ↔
      ∀ v ∈ o, v.Each fun x => ∃ q, x = .finite q ∧ numbers.value q = q := by
  rw [nullOr, fieldDecodes_nullable (by simp [readValue]), decodes_value_iff,
    show ReadBack stringify scalarValue numbers.read = _ from funext fun x => propext readBack_iff]
  cases o with
  | none => simp
  | some v => cases v <;> simp

theorem decodes_schedule {row : ScheduleRow} :
    Decodes stringify scalarValue (ScheduleEntry.read numbers) ScheduleEntry.tree row.toJson ↔
      row.id < 2 ^ 32 ∧ row.playlistId < 2 ^ 32 ∧ (∀ n ∈ row.groupId, n < 2 ^ 32) ∧
        (∃ k : Int, -2 ^ 31 ≤ k ∧ k < 2 ^ 31 ∧ row.priorityOrDefault = .number k) ∧
        (∀ v ∈ row.conditions, v.Each fun x => ∃ q, x = .finite q ∧ numbers.value q = q) ∧
        (row.durationSeconds = .null ∨
          ∃ n : Nat, n < 2 ^ 32 ∧ row.durationSeconds = .number n) := by
  rw [ScheduleRow.toJson]
  refine decodes_struct (by simp [ScheduleRow.fields])
    (fun es t _ _ => by simp [ScheduleRow.fields, ScheduleEntry.fields]) fun es hget => ?_
  simp only [ScheduleRow.fields, List.forall_mem_cons, List.not_mem_nil, false_imp_iff,
    implies_true, and_true] at hget
  obtain ⟨hid, hname, hplaylist, hclient, hgroup, hstart, hend, hdays, hpriority, henabled, hcron,
    hzone, hconditions, hmode, hduration⟩ := hget
  rw [ScheduleEntry.readFields, hid, hname, hplaylist, hclient, hgroup, hstart, hend, hdays,
    hpriority, henabled, hcron, hzone, hconditions, hmode, hduration]
  simp only [↓bind_eq_some]
  simp only [ScheduleRow.fields, ScheduleEntry.fields, List.forall₂_cons,
    List.forall₂_nil_left_iff]
  constructor
  · rintro ⟨a, ⟨id, hid, _, _, playlist, hplaylist, _, _, group, hgroup, _, _, _, _, _, _, priority,
      hpriority, _, _, _, _, _, _, conditions, hconditions, _, _, duration, hduration, heq⟩,
      sid, _, splaylist, _, sgroup, _, _, _, spriority, _, _, _, sconditions, _, sduration, _⟩
    obtain rfl := Option.some.inj heq
    exact ⟨decodes_id.mp (fieldDecodes_required.mp ⟨id, hid, sid⟩),
      decodes_id.mp (fieldDecodes_required.mp ⟨playlist, hplaylist, splaylist⟩),
      fieldDecodes_idOrNull.mp ⟨group, hgroup, sgroup⟩,
      decodes_priority.mp (fieldDecodes_default.mp ⟨priority, hpriority, spriority⟩),
      fieldDecodes_conditions.mp ⟨conditions, hconditions, sconditions⟩,
      fieldDecodes_cell.mp ⟨duration, hduration, sduration⟩⟩
  · rintro ⟨hid, hplaylist, hgroup, hpriority, hconditions, hduration⟩
    obtain ⟨id, hid, sid⟩ := fieldDecodes_required.mpr (decodes_id.mpr hid)
    obtain ⟨name, hname, sname⟩ := fieldDecodes_required.mpr (decodes_text row.name)
    obtain ⟨playlist, hplaylist, splaylist⟩ :=
      fieldDecodes_required.mpr (decodes_id.mpr hplaylist)
    obtain ⟨client, hclient, sclient⟩ := fieldDecodes_text row.clientId
    obtain ⟨group, hgroup, sgroup⟩ := fieldDecodes_idOrNull.mpr hgroup
    obtain ⟨start, hstart, sstart⟩ := fieldDecodes_text row.startTime
    obtain ⟨finish, hend, send⟩ := fieldDecodes_text row.endTime
    obtain ⟨days, hdays, sdays⟩ := fieldDecodes_default.mpr
      (decodes_text (row.daysOfWeek.getD "0,1,2,3,4,5,6"))
    obtain ⟨priority, hpriority, spriority⟩ :=
      fieldDecodes_default.mpr (decodes_priority.mpr hpriority)
    obtain ⟨enabled, henabled, senabled⟩ := fieldDecodes_default.mpr (decodes_flag row.enabled)
    obtain ⟨cron, hcron, scron⟩ := fieldDecodes_text row.cronExpression
    obtain ⟨zone, hzone, szone⟩ := fieldDecodes_text row.timezone
    obtain ⟨conditions, hconditions, sconditions⟩ := fieldDecodes_conditions.mpr hconditions
    obtain ⟨mode, hmode, smode⟩ :=
      fieldDecodes_default.mpr (decodes_text row.interruptModeOrDefault)
    obtain ⟨duration, hduration, sduration⟩ := fieldDecodes_cell.mpr hduration
    exact ⟨_, ⟨id, hid, name, hname, playlist, hplaylist, client, hclient, group, hgroup, start,
      hstart, finish, hend, days, hdays, priority, hpriority, enabled, henabled, cron, hcron, zone,
      hzone, conditions, hconditions, mode, hmode, duration, hduration, rfl⟩, sid, sname, splaylist,
      sclient, sgroup, sstart, send, sdays, spriority, senabled, scron, szone, sconditions, smode,
      sduration, trivial⟩

/-! ### Messages -/

/-- The levels of a message, and its fields. -/
theorem delivered_iff {message : Wire.Json JsScalar} :
    Delivered numbers message ↔ message.nestsWithin 127 = true ∧
      Decodes stringify scalarValue (readStruct (PushedMessage.readTagged numbers))
        PushedMessage.tree message := by
  have hleaf : ∀ x depth, (stringify x).nestsWithin depth = true := by
    intro x depth
    cases x <;> simp [stringify]
  rw [Delivered, Decodes]
  simp only [PushedMessage.fromJson, Json.nestsWithin_subst hleaf]
  by_cases hdepth : message.nestsWithin 127 = true
  · simp [hdepth, Decodes]
  · simp [hdepth]

theorem readTagged_eq {es : List (String × Wire.Json JsonToken)} {tag : String}
    (h : es.lookup "type" = Option.map (Json.subst stringify) (some (.string tag))) :
    PushedMessage.readTagged numbers es = PushedMessage.readVariant numbers es tag := by
  simp [PushedMessage.readTagged, requiredEntry, h, Json.subst, readString]

/-- The tag is the same on both sides. -/
theorem same_tag (tag : String) :
    Option.Rel (Same scalarValue) (some (.string tag)) (some (.string tag)) :=
  .some (same_string.mpr rfl)

variable {items : List PlaylistMediaItem}

theorem decodes_items : Decodes stringify scalarValue (readVec (PlaylistItem.read numbers))
    (fun ts => .array (ts.map PlaylistItem.tree)) (.array (items.map PlaylistMediaItem.toJson)) ↔
      ∀ t ∈ items, Decodes stringify scalarValue (PlaylistItem.read numbers) PlaylistItem.tree
        t.toJson := by
  rw [decodes_vec, List.forall_mem_map]

/-- A variant, whose payload is read from the fields beside the tag. -/
theorem decodes_variant {μ : Type} (variant : μ → PushedMessage)
    {read : List (String × Wire.Json JsonToken) → Option μ}
    {tag : String}
    {fs : List (String × Option (Wire.Json JsScalar))} {P : Prop}
    (hvariant : ∀ es, PushedMessage.readVariant numbers es tag = (read es).map variant)
    (hnodup : (("type", some (Json.string tag)) :: fs).map Prod.fst |>.Nodup)
    (hkeys : ∀ m, List.Forall₂ (fun f g => f.1 = g.1) (("type", some (.string tag)) :: fs)
      (variant m).fields)
    (h : ∀ es, (∀ f ∈ fs, es.lookup f.1 = f.2.map (Json.subst stringify)) →
      ((∃ m, read es = some m ∧ List.Forall₂ (fun f g => Option.Rel (Same scalarValue) f.2 g.2)
        (("type", some (.string tag)) :: fs) (variant m).fields) ↔ P)) :
    Decodes stringify scalarValue (readStruct (PushedMessage.readTagged numbers))
        PushedMessage.tree (.struct (("type", some (.string tag)) :: fs)) ↔ P := by
  refine decodes_struct hnodup (fun es a hget ha => ?_) fun es hget => ?_
  · rw [readTagged_eq (hget _ List.mem_cons_self), hvariant] at ha
    obtain ⟨m, -, rfl⟩ := Option.map_eq_some_iff.mp ha
    exact hkeys m
  · rw [readTagged_eq (hget _ List.mem_cons_self), hvariant,
      ← h es fun f hf => hget f (List.mem_cons_of_mem _ hf)]
    simp only [Option.map_eq_some_iff]
    constructor
    · rintro ⟨_, ⟨m, hm, rfl⟩, hrel⟩
      exact ⟨m, hm, hrel⟩
    · rintro ⟨m, hm, hrel⟩
      exact ⟨_, ⟨m, hm, rfl⟩, hrel⟩

theorem decodes_assigned {playlistId : Nat} {name : String} {loopPlaylist : Bool} :
    Decodes stringify scalarValue (readStruct (PushedMessage.readTagged numbers))
        PushedMessage.tree
        (ServerMessage.playlistAssigned playlistId name loopPlaylist items).toJson ↔
      playlistId < 2 ^ 32 ∧ ∀ t ∈ items, Decodes stringify scalarValue
        (PlaylistItem.read numbers) PlaylistItem.tree t.toJson := by
  rw [ServerMessage.toJson, ← decodes_items]
  refine decodes_variant .playlistAssigned (fun _ => rfl) (by simp)
    (fun m => by simp [PushedMessage.fields]) fun es hget => ?_
  simp only [List.forall_mem_cons, List.not_mem_nil, false_imp_iff, implies_true, and_true] at hget
  obtain ⟨hid, hname, hloop, hitems⟩ := hget
  rw [PlaylistAssignedMessage.readFields, hid, hname, hloop, hitems]
  simp only [↓bind_eq_some, PushedMessage.fields, List.forall₂_cons]
  constructor
  · rintro ⟨m, ⟨id, hid, _, _, its, hits, _, _, heq⟩, -, sid, -, -, sits, -⟩
    obtain rfl := Option.some.inj heq
    exact ⟨decodes_id.mp (fieldDecodes_required.mp ⟨id, hid, sid⟩),
      fieldDecodes_required.mp ⟨its, hits, sits⟩⟩
  · rintro ⟨hid, hitems⟩
    obtain ⟨id, hid, sid⟩ := fieldDecodes_required.mpr (decodes_id.mpr hid)
    obtain ⟨name', hname, sname⟩ := fieldDecodes_required.mpr (decodes_text name)
    obtain ⟨loops, hloop, sloop⟩ := fieldDecodes_required.mpr (decodes_flag loopPlaylist)
    obtain ⟨its, hits, sits⟩ := fieldDecodes_required.mpr hitems
    exact ⟨_, ⟨id, hid, name', hname, its, hits, loops, hloop, rfl⟩, same_tag _, sid, sname, sloop,
      sits, .nil⟩

theorem decodes_updated {playlistId : Nat} {loopPlaylist : Bool} :
    Decodes stringify scalarValue (readStruct (PushedMessage.readTagged numbers))
        PushedMessage.tree (ServerMessage.playlistUpdated playlistId loopPlaylist items).toJson ↔
      playlistId < 2 ^ 32 ∧ ∀ t ∈ items, Decodes stringify scalarValue
        (PlaylistItem.read numbers) PlaylistItem.tree t.toJson := by
  rw [ServerMessage.toJson, ← decodes_items]
  refine decodes_variant .playlistUpdated (fun _ => rfl) (by simp)
    (fun m => by simp [PushedMessage.fields]) fun es hget => ?_
  simp only [List.forall_mem_cons, List.not_mem_nil, false_imp_iff, implies_true, and_true] at hget
  obtain ⟨hid, hloop, hitems⟩ := hget
  rw [PlaylistUpdatedMessage.readFields, hid, hloop, hitems]
  simp only [↓bind_eq_some, PushedMessage.fields, List.forall₂_cons]
  constructor
  · rintro ⟨m, ⟨id, hid, its, hits, _, _, heq⟩, -, sid, -, sits, -⟩
    obtain rfl := Option.some.inj heq
    exact ⟨decodes_id.mp (fieldDecodes_required.mp ⟨id, hid, sid⟩),
      fieldDecodes_required.mp ⟨its, hits, sits⟩⟩
  · rintro ⟨hid, hitems⟩
    obtain ⟨id, hid, sid⟩ := fieldDecodes_required.mpr (decodes_id.mpr hid)
    obtain ⟨loops, hloop, sloop⟩ := fieldDecodes_required.mpr (decodes_flag loopPlaylist)
    obtain ⟨its, hits, sits⟩ := fieldDecodes_required.mpr hitems
    exact ⟨_, ⟨id, hid, its, hits, loops, hloop, rfl⟩, same_tag _, sid, sloop, sits, .nil⟩

theorem decodes_interrupt {playlistId : Nat} {name : String} {loopPlaylist : Bool}
    {previous : Option Nat} :
    Decodes stringify scalarValue (readStruct (PushedMessage.readTagged numbers))
        PushedMessage.tree (ServerMessage.playlistInterrupt playlistId name loopPlaylist items
          (Server.Field.ofOption previous)).toJson ↔
      (playlistId < 2 ^ 32 ∧ ∀ n ∈ previous, n < 2 ^ 32) ∧
        ∀ t ∈ items, Decodes stringify scalarValue
          (PlaylistItem.read numbers) PlaylistItem.tree t.toJson := by
  rw [ServerMessage.toJson, ← decodes_items]
  refine decodes_variant .playlistInterrupt (fun _ => rfl) (by simp)
    (fun m => by simp [PushedMessage.fields]) fun es hget => ?_
  simp only [List.forall_mem_cons, List.not_mem_nil, false_imp_iff, implies_true, and_true,
    Server.Field.toJson_ofOption] at hget
  obtain ⟨hid, hname, hloop, hitems, hprevious⟩ := hget
  rw [PlaylistInterruptMessage.readFields, hid, hname, hloop, hitems, hprevious,
    Server.Field.toJson_ofOption]
  simp only [↓bind_eq_some, PushedMessage.fields, List.forall₂_cons]
  constructor
  · rintro ⟨m, ⟨id, hid, _, _, its, hits, _, _, prev, hprev, heq⟩, -, sid, -, -, sits, sprev, -⟩
    obtain rfl := Option.some.inj heq
    exact ⟨⟨decodes_id.mp (fieldDecodes_required.mp ⟨id, hid, sid⟩),
      fieldDecodes_idOrNull.mp ⟨prev, hprev, sprev⟩⟩, fieldDecodes_required.mp ⟨its, hits, sits⟩⟩
  · rintro ⟨⟨hid, hprevious⟩, hitems⟩
    obtain ⟨id, hid, sid⟩ := fieldDecodes_required.mpr (decodes_id.mpr hid)
    obtain ⟨name', hname, sname⟩ := fieldDecodes_required.mpr (decodes_text name)
    obtain ⟨loops, hloop, sloop⟩ := fieldDecodes_required.mpr (decodes_flag loopPlaylist)
    obtain ⟨its, hits, sits⟩ := fieldDecodes_required.mpr hitems
    obtain ⟨prev, hprev, sprev⟩ := fieldDecodes_idOrNull.mpr hprevious
    exact ⟨_, ⟨id, hid, name', hname, its, hits, loops, hloop, prev, hprev, rfl⟩, same_tag _, sid,
      sname, sloop, sits, sprev, .nil⟩

theorem decodes_resume {playlistId : Option Nat} {name : Option String} {loopPlaylist : Bool} :
    Decodes stringify scalarValue (readStruct (PushedMessage.readTagged numbers))
        PushedMessage.tree
        (ServerMessage.playlistResume (Server.Field.ofOption playlistId) name loopPlaylist
          items).toJson ↔
      (∀ n ∈ playlistId, n < 2 ^ 32) ∧ ∀ t ∈ items, Decodes stringify scalarValue
        (PlaylistItem.read numbers) PlaylistItem.tree t.toJson := by
  rw [ServerMessage.toJson, ← decodes_items]
  refine decodes_variant .playlistResume (fun _ => rfl) (by simp)
    (fun m => by simp [PushedMessage.fields]) fun es hget => ?_
  simp only [List.forall_mem_cons, List.not_mem_nil, false_imp_iff, implies_true, and_true,
    Server.Field.toJson_ofOption] at hget
  obtain ⟨hid, hname, hloop, hitems⟩ := hget
  rw [PlaylistResumeMessage.readFields, hid, hname, hloop, hitems, Server.Field.toJson_ofOption]
  simp only [↓bind_eq_some, PushedMessage.fields, List.forall₂_cons]
  constructor
  · rintro ⟨m, ⟨id, hid, _, _, its, hits, _, _, heq⟩, -, sid, -, -, sits, -⟩
    obtain rfl := Option.some.inj heq
    exact ⟨fieldDecodes_idOrNull.mp ⟨id, hid, sid⟩, fieldDecodes_required.mp ⟨its, hits, sits⟩⟩
  · rintro ⟨hid, hitems⟩
    obtain ⟨id, hid, sid⟩ := fieldDecodes_idOrNull.mpr hid
    obtain ⟨name', hname, sname⟩ := fieldDecodes_text name
    obtain ⟨loops, hloop, sloop⟩ := fieldDecodes_required.mpr (decodes_flag loopPlaylist)
    obtain ⟨its, hits, sits⟩ := fieldDecodes_required.mpr hitems
    exact ⟨_, ⟨id, hid, name', hname, its, hits, loops, hloop, rfl⟩, same_tag _, sid, sname, sloop,
      sits, .nil⟩

theorem decodes_schedules {rows : List ScheduleRow} :
    Decodes stringify scalarValue (readStruct (PushedMessage.readTagged numbers))
        PushedMessage.tree (scheduleDefinitions rows) ↔
      ∀ row ∈ rows, Decodes stringify scalarValue (ScheduleEntry.read numbers)
        ScheduleEntry.tree row.toJson := by
  have hrows : Decodes stringify scalarValue (readVec (ScheduleEntry.read numbers))
      (fun ts => .array (ts.map ScheduleEntry.tree)) (.array (rows.map ScheduleRow.toJson)) ↔
        ∀ row ∈ rows, Decodes stringify scalarValue (ScheduleEntry.read numbers)
          ScheduleEntry.tree row.toJson := by
    rw [decodes_vec, List.forall_mem_map]
  rw [scheduleDefinitions, ← hrows]
  refine decodes_variant .scheduleDefinitions (fun _ => rfl) (by simp)
    (fun m => by simp [PushedMessage.fields]) fun es hget => ?_
  simp only [List.forall_mem_cons, List.not_mem_nil, false_imp_iff, implies_true, and_true] at hget
  rw [ScheduleDefinitionsMessage.readFields, hget]
  simp only [↓bind_eq_some, PushedMessage.fields, List.forall₂_cons]
  constructor
  · rintro ⟨m, ⟨entries, hentries, heq⟩, -, sentries, -⟩
    obtain rfl := Option.some.inj heq
    exact fieldDecodes_default.mp ⟨entries, hentries, sentries⟩
  · intro hrows
    obtain ⟨entries, hentries, sentries⟩ := fieldDecodes_default.mpr hrows
    exact ⟨_, ⟨entries, hentries, rfl⟩, same_tag _, sentries, .nil⟩

/-! ### Rows -/

@[simp] theorem forall_nullOr {o : Option (Wire.Json JsScalar)} {depth : Nat} :
    (∀ v, nullOr o = some v → v.nestsWithin depth = true) ↔
      ∀ v ∈ o, v.nestsWithin depth = true := by
  cases o <;> simp [nullOr]

theorem nestsWithin_cell (cell : Cell) (depth : Nat) : cell.toJson.nestsWithin depth = true := by
  cases cell <;> simp [Cell.toJson, jsNumber]

theorem nestsWithin_subtitle (p : SubtitleTrackPayload) (depth : Nat) :
    p.toJson.nestsWithin (depth + 1) = true := by
  simp [SubtitleTrackPayload.toJson, SubtitleTrackPayload.fields, jsNumber]

theorem nestsWithin_item (t : PlaylistMediaItem) (depth : Nat) :
    t.toJson.nestsWithin (depth + 3) = true := by
  simp [PlaylistMediaItem.toJson, PlaylistMediaItem.fields, jsNumber, nestsWithin_subtitle]

theorem nestsWithin_message (m : Server.ServerMessage) (depth : Nat) :
    m.toJson.nestsWithin (depth + 5) = true := by
  cases m with
  | playlistAssigned | playlistUpdated | errorResponse =>
    simp [ServerMessage.toJson, ServerMessage.fields, jsNumber, nestsWithin_item]
  | playlistInterrupt _ _ _ _ previous =>
    cases previous <;> simp [ServerMessage.toJson, ServerMessage.fields, jsNumber,
      nestsWithin_item, Server.Field.toJson]
  | playlistResume playlistId =>
    cases playlistId <;> simp [ServerMessage.toJson, ServerMessage.fields, jsNumber,
      nestsWithin_item, Server.Field.toJson]

theorem nestsWithin_schedule {row : ScheduleRow} {depth : Nat} :
    row.toJson.nestsWithin (depth + 1) = true ↔
      ∀ v ∈ row.conditions, v.nestsWithin depth = true := by
  simp [ScheduleRow.toJson, ScheduleRow.fields, jsNumber, nestsWithin_cell]

theorem decodes_subtitle_row {cfg : ServerConfig} {track : Server.SubtitleTrack} :
    ((cfg.toSubtitlePayload track).id < 2 ^ 32 ∧
        ∀ n ∈ (cfg.toSubtitlePayload track).streamIndex, n < 2 ^ 32) ↔
      track.id < 2 ^ 32 ∧ (track.kind = .embedded → ∀ n ∈ track.streamIndex, n < 2 ^ 32) := by
  unfold ServerConfig.toSubtitlePayload
  cases track.kind <;> simp

/-- The duration of an image is an integer, and none is 0. -/
theorem duration_row {cfg : ServerConfig} {db : PlaylistStore}
    {row : Server.PlaylistItem × MediaFile} (himage : row.1.imageDuration < 2 ^ 32) :
    numbers.f64 (buildPlaylistItem cfg db row).duration = (buildPlaylistItem cfg db row).duration ↔
      (row.2.type = .video → ∀ d ∈ row.2.duration, numbers.f64 d = d) := by
  obtain ⟨item, media⟩ := row
  have hinteger : numbers.f64 item.imageDuration = item.imageDuration := by
    refine numbers.f64_natCast _ ?_
    have hlt : item.imageDuration < 2 ^ 32 := himage
    omega
  have hzero : numbers.f64 0 = 0 := by exact_mod_cast numbers.f64_natCast 0 (by omega)
  cases htype : media.type with
  | image => simp [buildPlaylistItem, htype, hinteger]
  | video => cases hd : media.duration <;> simp [buildPlaylistItem, htype, hd, hzero]

theorem subtitles_row {cfg : ServerConfig} {db : PlaylistStore}
    {row : Server.PlaylistItem × MediaFile} :
    (∀ p ∈ (buildPlaylistItem cfg db row).subtitles, p.id < 2 ^ 32 ∧
        ∀ n ∈ p.streamIndex, n < 2 ^ 32) ↔
      (row.2.type = .video → ∀ track ∈ db.getSubtitlesForMedia row.1.mediaId,
        track.id < 2 ^ 32 ∧ (track.kind = .embedded → ∀ n ∈ track.streamIndex, n < 2 ^ 32)) := by
  obtain ⟨item, media⟩ := row
  cases htype : media.type with
  | image => simp [buildPlaylistItem, htype]
  | video =>
    rw [buildPlaylistItem, if_pos htype, List.forall_mem_map]
    simp only [decodes_subtitle_row, forall_const]

theorem decodes_item_row {cfg : ServerConfig} {db : PlaylistStore}
    {row : Server.PlaylistItem × MediaFile} :
    Decodes stringify scalarValue (PlaylistItem.read numbers) PlaylistItem.tree
        (buildPlaylistItem cfg db row).toJson ↔ ItemFits numbers db row := by
  rw [decodes_item, subtitles_row]
  constructor
  · rintro ⟨hid, hmedia, hduration, horder, himage, hsubtitles, hsize⟩
    exact ⟨hid, hmedia, horder, himage, (duration_row himage).mp hduration, hsize, hsubtitles⟩
  · rintro ⟨hid, hmedia, horder, himage, hduration, hsize, hsubtitles⟩
    exact ⟨hid, hmedia, (duration_row himage).mpr hduration, horder, himage, hsubtitles, hsize⟩

theorem priority_iff {row : ScheduleRow} :
    (∃ k : Int, -2 ^ 31 ≤ k ∧ k < 2 ^ 31 ∧ row.priorityOrDefault = .number k) ↔
      row.priority = .null ∨
        ∃ k : Int, -2 ^ 31 ≤ k ∧ k < 2 ^ 31 ∧ row.priority = .number k := by
  unfold ScheduleRow.priorityOrDefault
  cases row.priority with
  | null => simpa using ⟨50, by omega, by omega, by norm_num⟩
  | number | infinite | text => simp

theorem decodes_schedule_row {row : ScheduleRow} :
    (row.toJson.nestsWithin 125 = true ∧ Decodes stringify scalarValue
        (ScheduleEntry.read numbers) ScheduleEntry.tree row.toJson) ↔
      ScheduleFits numbers row := by
  rw [nestsWithin_schedule, decodes_schedule, priority_iff]
  constructor
  · rintro ⟨hlevels, hid, hplaylist, hgroup, hpriority, hleaves, hduration⟩
    exact ⟨hid, hplaylist, hgroup, hpriority, hduration, hlevels, hleaves⟩
  · rintro ⟨hid, hplaylist, hgroup, hpriority, hduration, hlevels, hleaves⟩
    exact ⟨hlevels, hid, hplaylist, hgroup, hpriority, hleaves, hduration⟩

theorem decodes_listing {cfg : ServerConfig} {db : PlaylistStore} {playlistId : Nat} :
    (∀ t ∈ listing cfg db playlistId, Decodes stringify scalarValue
        (PlaylistItem.read numbers) PlaylistItem.tree t.toJson) ↔
      ∀ row ∈ db.itemsWithMedia playlistId, ItemFits numbers db row := by
  simp only [listing, List.forall_mem_map, decodes_item_row]

/-- **From the server to the player**: a message is read as the same variant, with the same values
    in the same order, exactly when its ids, order indexes, image durations, subtitle ids and stream
    indexes are below 2³², a priority is a 32-bit integer, a duration of a schedule is one without a
    sign, every other number is read as itself, and no conditions are too deep or have half a
    surrogate pair. -/
theorem delivered_iff_fits (numbers : SerdeNumbers) (cfg : ServerConfig) (db : PlaylistStore)
    (push : Push) : Delivered numbers (push.message cfg db) ↔ push.Fits numbers db := by
  cases push with
  | assigned p =>
    rw [delivered_iff, Push.message, decodes_assigned, decodes_listing]
    exact and_iff_right (nestsWithin_message _ _)
  | updated p =>
    rw [delivered_iff, Push.message, decodes_updated, decodes_listing]
    exact and_iff_right (nestsWithin_message _ _)
  | interrupt p previous =>
    rw [delivered_iff, Push.message, decodes_interrupt, decodes_listing]
    exact and_iff_right (nestsWithin_message _ _)
  | resume p =>
    rw [delivered_iff, Push.message, decodes_resume, decodes_listing]
    refine (and_iff_right (nestsWithin_message _ _)).trans ?_
    simp [Push.Fits]
  | stop =>
    rw [delivered_iff, Push.message, decodes_resume]
    refine (and_iff_right (nestsWithin_message _ _)).trans ?_
    simp [Push.Fits]
  | schedules rows =>
    rw [delivered_iff, Push.message, decodes_schedules]
    have hlevels : (scheduleDefinitions rows).nestsWithin 127 = true ↔
        ∀ row ∈ rows, row.toJson.nestsWithin 125 = true := by
      simp [scheduleDefinitions]
    rw [hlevels, ← forall₂_and]
    exact forall₂_congr fun row _ => decodes_schedule_row

end

/-! ### An order index beyond 32 bits -/

/-- A playlist of one image. -/
def lobbyStore (orderIndex : Int) : PlaylistStore where
  playlists := [⟨1, "Lobby"⟩]
  media := [⟨1, "logo.png", "logo.png", "media/logo.png", .image, none, some 4096, none, none, none,
    some "c0ffee", .approved, none⟩]
  subtitles := []
  clients := []
  items :=
    { rows := [⟨1, 1, 1, orderIndex, 10⟩], nextId := 2
      id_lt := by
        intro row hrow
        rw [List.mem_singleton.mp hrow]
        exact Nat.lt_succ_self 1
      ids_nodup := by simp
      positions_nodup := by simp }

/-- **Counterexample.** The API takes 2³² as the order index of an item, and then the player reads
    no message with the playlist. -/
theorem not_delivered_orderIndex :
    (updatePlaylistItemSchema (.object [("order_index", .number 4294967296)])).isSome = true ∧
      ((lobbyStore 0).items.update 1 (some 4294967296) none).map ItemTable.rows =
        some (lobbyStore 4294967296).items.rows ∧
      ∀ numbers cfg, ¬ Delivered numbers
        ((Push.assigned ⟨1, "Lobby"⟩).message cfg (lobbyStore 4294967296)) := by
  refine ⟨by decide, by decide, fun numbers cfg hdelivered => ?_⟩
  rw [delivered_iff, Push.message, decodes_assigned, decodes_listing] at hdelivered
  have hrow : (⟨1, 1, 1, 4294967296, 10⟩, ⟨1, "logo.png", "logo.png", "media/logo.png", .image,
      none, some 4096, none, none, none, some "c0ffee", .approved, none⟩) ∈
      (lobbyStore 4294967296).itemsWithMedia 1 := by decide
  have horder := (hdelivered.2.2 _ hrow).orderIndex.2
  exact absurd horder (by decide)

end Montr.Protocol
