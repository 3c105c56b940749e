import Montr.Lib.Numbering
import Montr.Client.SubtitleSelector
import Montr.Protocol.ServerToClient
import Montr.Server.SubtitleTable

namespace Montr.Protocol

open Client Server Wire SubtitleCandidate

/-!
# The numbers of embedded subtitles

From the streams of a container to the track ids of the player, with the server's rows between
them.

* `embeddedSubtitles` — the streams that `extractVideoMetadata` registers;
* `KeptRows` — rows of some of them, as uploads and later calls leave them (`keptRows_of_calls`);
* `trackId` — what `build_embedded_sid_map` makes of the rows received;
* `trackId_iff` — the number is that of the row's own stream **exactly if every subtitle stream
  before it has a row**.
-/

/-! ### The streams -/

/-- The tags of a stream, under their spellings in small letters and capitals. -/
structure StreamTags where
  language : Option String := none
  LANGUAGE : Option String := none
  title : Option String := none
  TITLE : Option String := none
  deriving DecidableEq, Repr

/-- A stream as `ffprobe` reports it. -/
structure RawStream where
  index : Nat
  codecType : String
  codecName : Option String := none
  tags : StreamTags := {}
  /-- `disposition.default` and `disposition.forced` -/
  default : Option Nat := none
  forced : Option Nat := none
  deriving DecidableEq, Repr

structure EmbeddedSubtitleStream where
  streamIndex : Nat
  codec : String
  language : Option String
  label : Option String
  isDefault : Bool
  isForced : Bool
  deriving DecidableEq, Repr

/-- `UNSUPPORTED_SUBTITLE_CODECS`. -/
def unsupportedSubtitleCodecs : List String :=
  ["hdmv_pgs_subtitle", "dvd_subtitle", "dvb_subtitle", "xsub"]

namespace RawStream

def isSubtitle (s : RawStream) : Bool := s.codecType == "subtitle"

/-- The codec is not given, or it is not among the unsupported ones. -/
def isSupported (s : RawStream) : Bool :=
  match s.codecName with
  | none => true
  | some name => name == "" || !unsupportedSubtitleCodecs.contains name

def toEmbedded (s : RawStream) : EmbeddedSubtitleStream where
  streamIndex := s.index
  codec := s.codecName.getD "unknown"
  language := s.tags.language.or s.tags.LANGUAGE
  label := s.tags.title.or s.tags.TITLE
  isDefault := s.default == some 1
  isForced := s.forced == some 1

end RawStream

/-- The `subtitles` of `extractVideoMetadata`. -/
def embeddedSubtitles (streams : List RawStream) : List EmbeddedSubtitleStream :=
  ((streams.filter RawStream.isSubtitle).filter RawStream.isSupported).map RawStream.toEmbedded

/-- A container, whose streams are numbered in their order. -/
structure Container where
  streams : List RawStream
  indexed : streams.map (·.index) = List.range streams.length

/-- The subtitle streams before an index. -/
def Container.subtitlesBefore (container : Container) (index : Nat) : List RawStream :=
  (container.streams.filter RawStream.isSubtitle).filter fun s => s.index < index

/-! ### The rows -/

/-- The call for one stream. -/
def EmbeddedSubtitleStream.call (mediaId : Nat) (s : EmbeddedSubtitleStream) : SubtitleCall where
  op := .createEmbedded
    { mediaFileId := mediaId, streamIndex := s.streamIndex, codec := s.codec
      language := s.language, label := s.label, isDefault := s.isDefault, isForced := s.isForced }
  done := 2

/-- `persistEmbeddedSubtitles`. -/
def persistEmbeddedSubtitles (mediaId : Nat) (streams : List EmbeddedSubtitleStream) :
    List SubtitleCall :=
  streams.map (EmbeddedSubtitleStream.call mediaId) ++
    [{ op := .prune mediaId (streams.map (·.streamIndex)), done := 1 }]

/-- **Rows of a media file**: each embedded one is of a stream that was registered, and each of
    another one. -/
structure KeptRows (container : Container) (rows : List Server.SubtitleTrack) : Prop where
  ids : (rows.map (·.id)).Nodup
  registered : ∀ r ∈ rows, r.kind = .embedded →
    ∃ s ∈ embeddedSubtitles container.streams, r.streamIndex = some s.streamIndex
  distinct : ∀ r ∈ rows, ∀ s ∈ rows, r.kind = .embedded → s.kind = .embedded →
    r.streamIndex = s.streamIndex → r.id = s.id

/-! ### The player -/

/-- The track that the player reads from a payload. -/
def received (p : SubtitleTrackPayload) : Client.SubtitleTrack where
  id := p.id
  kind := match p.kind with
    | .external => .external
    | .embedded => .embedded
  language := p.language
  label := p.label
  isDefault := p.isDefault
  isForced := p.isForced
  downloadUrl := p.downloadUrl
  filename := p.filename
  format := p.format
  checksum := p.checksum
  streamIndex := p.streamIndex
  codec := p.codec

theorem readU32_jsNumber {n : Nat} (h : n < 2 ^ 32) :
    readU32 ((jsNumber n).subst stringify) = some n := by
  obtain ⟨m, hread, hsame⟩ := decodes_id.mpr h
  obtain ⟨x, hx, heq⟩ := same_number.mp hsame
  cases hx
  obtain rfl : m = n := by exact_mod_cast Json.number.inj heq
  exact hread

theorem readText (o : Option String) :
    optionalEntry readString ((nullOr (o.map .string)).map (Json.subst stringify)) = some o := by
  cases o <;> rfl

theorem readSkippedText (o : Option String) :
    optionalEntry readString ((o.map .string).map (Json.subst stringify)) = some o := by
  cases o <;> rfl

theorem readSkippedU32 {o : Option Nat} (h : ∀ n ∈ o, n < 2 ^ 32) :
    optionalEntry readU32 ((o.map fun n : Nat => jsNumber n).map (Json.subst stringify)) =
      some o := by
  obtain ⟨o', hread, hsame⟩ := fieldDecodes_skippedU32.mpr h
  rw [hread]
  cases o with
  | none =>
    cases o' with
    | none => rfl
    | some m => cases hsame
  | some n =>
    cases o' with
    | none => cases hsame
    | some m =>
      cases hsame with
      | some hsame =>
        obtain ⟨x, hx, heq⟩ := same_number.mp hsame
        cases hx
        obtain rfl : m = n := by exact_mod_cast Json.number.inj heq
        rfl

/-- It is what the player's decoder makes of the message. -/
theorem read_received {p : SubtitleTrackPayload} (hid : p.id < 2 ^ 32)
    (hindex : ∀ n ∈ p.streamIndex, n < 2 ^ 32) :
    SubtitleTrack.read (p.toJson.subst stringify) = some (received p) := by
  refine readStruct_subst (by simp [SubtitleTrackPayload.fields]) fun es hget => ?_
  simp only [SubtitleTrackPayload.fields, List.forall_mem_cons, List.not_mem_nil, false_imp_iff,
    implies_true, and_true] at hget
  obtain ⟨hid', hkind, hlanguage, hlabel, hdefault, hforced, hurl, hfilename, hformat, hchecksum,
    hindex', hcodec⟩ := hget
  have hreadId : requiredEntry readU32 (es.lookup "id") = some p.id := by
    rw [hid', Option.map_some, requiredEntry, Option.bind_some, readU32_jsNumber hid]
  have hreadKind : requiredEntry SubtitleKind.read (es.lookup "kind") = some (received p).kind := by
    rw [hkind, received]
    cases p.kind <;> rfl
  have hreadIndex : optionalEntry readU32 (es.lookup "streamIndex") = some p.streamIndex := by
    rw [hindex', readSkippedU32 hindex]
  rw [SubtitleTrack.readFields, hreadId, hreadKind, hlanguage, hlabel, hdefault, hforced, hurl,
    hfilename, hformat, hchecksum, hreadIndex, hcodec, readText, readText, readSkippedText,
    readSkippedText, readSkippedText, readSkippedText, readSkippedText]
  rfl

/-- The candidates of the player for the rows of a media file. -/
def candidatesOf (cfg : ServerConfig) (cacheDir : String) (onDisk : PathBuf → Bool)
    (rows : List Server.SubtitleTrack) : List SubtitleCandidate :=
  subtitleCandidates cacheDir onDisk (rows.map fun r => received (cfg.toSubtitlePayload r))

/-- The number of a row's track in `build_embedded_sid_map`. -/
def trackId (candidates : List SubtitleCandidate) (r : Server.SubtitleTrack) : Option Nat :=
  (buildEmbeddedSidMap candidates).lookup r.id

section

variable {container : Container} {rows rows' : List Server.SubtitleTrack}
  {r : Server.SubtitleTrack} {cfg : ServerConfig} {cacheDir : String} {onDisk : PathBuf → Bool}
  {t : SubtitleTable} {mediaId index : Nat}

/-! ### Where the rows come from -/

theorem KeptRows.perm (h : KeptRows container rows) (hperm : rows'.Perm rows) :
    KeptRows container rows' where
  ids := (hperm.map _).nodup_iff.mpr h.ids
  registered r hr := h.registered r (hperm.mem_iff.mp hr)
  distinct r hr s hs := h.distinct r (hperm.mem_iff.mp hr) s (hperm.mem_iff.mp hs)

/-- The embedded rows of the media file are of streams registered for the container. -/
def Registered (container : Container) (mediaId : Nat) (t : SubtitleTable) : Prop :=
  ∀ r ∈ t.rows, r.scope = (mediaId, .embedded) →
    ∃ s ∈ embeddedSubtitles container.streams, r.streamIndex = some s.streamIndex

/-- After pruning. -/
theorem registered_prune (h : t.OneRowPerStream) (container : Container) (mediaId : Nat) :
    Registered container mediaId (t.perform
      { op := .prune mediaId ((embeddedSubtitles container.streams).map (·.streamIndex))
        done := 1 }) := by
  intro r hr hscope
  obtain ⟨hr, hkept⟩ := SubtitleTable.mem_deleteWhere.mp hr
  rw [hscope, BEq.rfl, Bool.true_and, SubtitleTrack.pruned, Bool.or_eq_false_iff] at hkept
  cases hindex : r.streamIndex with
  | none => exact absurd hindex (h.indexed r hr (congrArg Prod.snd hscope))
  | some i =>
    rw [hindex] at hkept
    obtain ⟨s, hs, hsi⟩ := List.mem_map.mp (by simpa using hkept.2)
    exact ⟨s, hs, by rw [hsi]⟩

/-- Other calls than new embedded subtitles keep it. -/
theorem Registered.foldl (h : Registered container mediaId t) {later : List SubtitleCall}
    (user : ∀ call ∈ later, ∀ input, call.op ≠ .createEmbedded input) :
    Registered container mediaId (later.foldl SubtitleTable.perform t) := by
  induction later generalizing t with
  | nil => exact h
  | cons call later ih =>
    refine ih (fun r hr hscope => ?_) fun call hcall => user call (List.mem_cons_of_mem _ hcall)
    rcases SubtitleTable.origin_perform hr with ⟨r₀, hr₀, hsame⟩ | ⟨-, hnew⟩
    · rw [← hsame.streamIndex]
      exact h r₀ hr₀ (hsame.scope.trans hscope)
    · obtain ⟨input, hop, -⟩ := hnew (congrArg Prod.snd hscope)
      exact absurd hop (user call List.mem_cons_self input)

/-- **The rows that are sent** after an upload and any calls of users. -/
theorem keptRows_of_calls (container : Container) (mediaId : Nat) {db : PlaylistStore}
    {earlier later : List SubtitleCall}
    (user : ∀ call ∈ later, ∀ input, call.op ≠ .createEmbedded input)
    (hdb : db.subtitles = (SubtitleTable.after (earlier ++
      persistEmbeddedSubtitles mediaId (embeddedSubtitles container.streams) ++ later)).rows) :
    KeptRows container (db.getSubtitlesForMedia mediaId) := by
  have hone := SubtitleTable.oneRowPerStream_after (earlier ++
    persistEmbeddedSubtitles mediaId (embeddedSubtitles container.streams) ++ later)
  have hregistered : Registered container mediaId (SubtitleTable.after (earlier ++
      persistEmbeddedSubtitles mediaId (embeddedSubtitles container.streams) ++ later)) := by
    unfold SubtitleTable.after persistEmbeddedSubtitles
    rw [List.foldl_append, ← List.append_assoc, List.foldl_append]
    refine (registered_prune ?_ container mediaId).foldl user
    exact SubtitleTable.oneRowPerStream_after _
  generalize SubtitleTable.after (earlier ++
    persistEmbeddedSubtitles mediaId (embeddedSubtitles container.streams) ++ later) = t
    at hdb hone hregistered
  refine KeptRows.perm ?_ (List.perm_insertionSort _ _)
  rw [hdb]
  refine ⟨t.ids_nodup.sublist (List.filter_sublist.map _), fun r hr hkind => ?_,
    fun r hr s hs hrkind hskind hindex => ?_⟩
  · obtain ⟨hr, hmedia⟩ := List.mem_filter.mp hr
    exact hregistered r hr (by rw [SubtitleTrack.scope, hkind, eq_of_beq hmedia])
  · obtain ⟨hr, hrmedia⟩ := List.mem_filter.mp hr
    obtain ⟨hs, hsmedia⟩ := List.mem_filter.mp hs
    refine hone.distinct r hr s hs hrkind ?_ hindex
    rw [SubtitleTrack.scope, SubtitleTrack.scope, hrkind, hskind, eq_of_beq hrmedia,
      eq_of_beq hsmedia]

/-! ### The number of a row -/

/-- The embedded candidate of a row. -/
def embeddedCandidate (cfg : ServerConfig) (r : Server.SubtitleTrack) : SubtitleCandidate where
  track := received (cfg.toSubtitlePayload r)
  localPath := none

theorem kind_received (r : Server.SubtitleTrack) :
    ((received (cfg.toSubtitlePayload r)).kind == .embedded) = (r.kind == .embedded) := by
  rw [received, ServerConfig.toSubtitlePayload]
  cases r.kind <;> rfl

theorem filter_candidatesOf (rows : List Server.SubtitleTrack) :
    (candidatesOf cfg cacheDir onDisk rows).filter isEmbedded =
      (rows.filter (·.kind == .embedded)).map (embeddedCandidate cfg) := by
  rw [candidatesOf, filter_subtitleCandidates, List.filter_map, List.map_map]
  have hkind : ((·.kind == .embedded) ∘ fun r => received (cfg.toSubtitlePayload r)) =
      fun r : Server.SubtitleTrack => r.kind == .embedded := funext kind_received
  rw [hkind]
  rfl

theorem id_embeddedCandidate (r : Server.SubtitleTrack) :
    (embeddedCandidate cfg r).track.id = r.id := by
  rw [embeddedCandidate, ServerConfig.toSubtitlePayload]
  cases r.kind <;> rfl

theorem streamKey_embeddedCandidate (hkind : r.kind = .embedded) :
    (embeddedCandidate cfg r).streamKey = r.streamIndex.getD 0 := by
  rw [embeddedCandidate, ServerConfig.toSubtitlePayload, hkind]
  rfl

/-- The stream indexes of the embedded rows. -/
def keptIndexes (rows : List Server.SubtitleTrack) : List Nat :=
  (rows.filter (·.kind == .embedded)).map fun r => r.streamIndex.getD 0

theorem KeptRows.nodup (h : KeptRows container rows) : (keptIndexes rows).Nodup := by
  have hids : ((rows.filter (·.kind == .embedded)).map (·.id)).Nodup :=
    h.ids.sublist (List.filter_sublist.map _)
  refine (List.Nodup.of_map _ hids).map_on fun r hr s hs hindex => ?_
  obtain ⟨hrmem, hrkind⟩ := List.mem_filter.mp hr
  obtain ⟨hsmem, hskind⟩ := List.mem_filter.mp hs
  obtain ⟨i, -, hi⟩ := h.registered r hrmem (eq_of_beq hrkind)
  obtain ⟨j, -, hj⟩ := h.registered s hsmem (eq_of_beq hskind)
  rw [hi, hj] at hindex
  refine List.inj_on_of_nodup_map hids hr hs
    (h.distinct r hrmem s hsmem (eq_of_beq hrkind) (eq_of_beq hskind) ?_)
  rw [hi, hj]
  exact congrArg some hindex

/-- **The player counts the rows** of earlier streams. -/
theorem trackId_eq (h : KeptRows container rows) (hr : r ∈ rows) (hkind : r.kind = .embedded)
    (hindex : r.streamIndex = some index) :
    trackId (candidatesOf cfg cacheDir onDisk rows) r =
      some (((keptIndexes rows).filter (· < index)).length + 1) := by
  have hmem : embeddedCandidate cfg r ∈
      (candidatesOf cfg cacheDir onDisk rows).filter isEmbedded := by
    rw [filter_candidatesOf]
    exact List.mem_map_of_mem (List.mem_filter.mpr ⟨hr, by rw [hkind]; rfl⟩)
  obtain ⟨hcandidate, hembedded⟩ := List.mem_filter.mp hmem
  have hkeys : ((candidatesOf cfg cacheDir onDisk rows).filter isEmbedded).map streamKey =
      keptIndexes rows := by
    rw [filter_candidatesOf, List.map_map, keptIndexes]
    refine List.map_congr_left fun s hs => ?_
    exact streamKey_embeddedCandidate (eq_of_beq (List.mem_filter.mp hs).2)
  have hids : (((candidatesOf cfg cacheDir onDisk rows).filter isEmbedded).map
      (·.track.id)).Nodup := by
    rw [filter_candidatesOf, List.map_map]
    have heq : ((·.track.id) ∘ embeddedCandidate cfg) = fun r : Server.SubtitleTrack => r.id :=
      funext id_embeddedCandidate
    rw [heq]
    exact h.ids.sublist (List.filter_sublist.map _)
  have hlookup := lookup_of_distinct hids (by rw [hkeys]; exact h.nodup) hcandidate hembedded
  rw [id_embeddedCandidate, streamKey_embeddedCandidate hkind, hindex] at hlookup
  rw [trackId, hlookup, ← hkeys, List.filter_map, List.length_map]
  rfl

/-- **The number is that of the row's own stream** exactly if every subtitle stream before it
    still has a row. -/
theorem trackId_iff (kept : KeptRows container rows) (hr : r ∈ rows) (hkind : r.kind = .embedded)
    (hindex : r.streamIndex = some index) :
    trackId (candidatesOf cfg cacheDir onDisk rows) r =
        some (1 + (container.subtitlesBefore index).length) ↔
      ∀ s ∈ container.subtitlesBefore index,
        ∃ r' ∈ rows, r'.kind = .embedded ∧ r'.streamIndex = some s.index := by
  rw [trackId_eq kept hr hkind hindex, Option.some.injEq, Nat.add_comm 1, Nat.add_right_cancel_iff]
  have hnodup : ((container.subtitlesBefore index).map (·.index)).Nodup := by
    refine List.Nodup.sublist ((List.filter_sublist.trans List.filter_sublist).map _) ?_
    rw [container.indexed]
    exact List.nodup_range
  have hsub : (keptIndexes rows).filter (· < index) ⊆
      (container.subtitlesBefore index).map (·.index) := by
    intro i hi
    obtain ⟨hi, hlt⟩ := List.mem_filter.mp hi
    obtain ⟨r', hr', rfl⟩ := List.mem_map.mp hi
    obtain ⟨hr', hkind'⟩ := List.mem_filter.mp hr'
    obtain ⟨e, he, heq⟩ := kept.registered r' hr' (eq_of_beq hkind')
    obtain ⟨s, hs, rfl⟩ := List.mem_map.mp he
    rw [heq] at hlt ⊢
    exact List.mem_map.mpr
      ⟨s, List.mem_filter.mpr ⟨(List.mem_filter.mp hs).1, hlt⟩, rfl⟩
  have hlength : (container.subtitlesBefore index).length =
      ((container.subtitlesBefore index).map (·.index)).length := by
    rw [List.length_map]
  rw [hlength, Numbering.length_eq_iff_subset (kept.nodup.filter _) hnodup hsub]
  constructor
  · intro hall s hs
    obtain ⟨hmem, -⟩ := List.mem_filter.mp (hall (List.mem_map_of_mem hs))
    obtain ⟨r', hr', heq⟩ := List.mem_map.mp hmem
    obtain ⟨hr', hkind'⟩ := List.mem_filter.mp hr'
    obtain ⟨e, -, he⟩ := kept.registered r' hr' (eq_of_beq hkind')
    rw [he] at heq
    exact ⟨r', hr', eq_of_beq hkind', by rw [he]; exact congrArg some heq⟩
  · intro hall i hi
    obtain ⟨s, hs, rfl⟩ := List.mem_map.mp hi
    obtain ⟨r', hr', hkind', hindex'⟩ := hall s hs
    refine List.mem_filter.mpr ⟨List.mem_map.mpr ⟨r', List.mem_filter.mpr ⟨hr', ?_⟩, ?_⟩, ?_⟩
    · rw [hkind']
      rfl
    · rw [hindex']
      rfl
    · exact (List.mem_filter.mp hs).2

end

/-! ### Two containers -/

/-- A film with a bitmap track before its text track. -/
def disc : Container where
  streams := [{ index := 0, codecType := "video", codecName := some "h264" },
    { index := 1, codecType := "subtitle", codecName := some "hdmv_pgs_subtitle" },
    { index := 2, codecType := "subtitle", codecName := some "subrip" }]
  indexed := rfl

/-- The rows after the upload of a container. -/
def uploaded (container : Container) : List Server.SubtitleTrack :=
  (SubtitleTable.after (persistEmbeddedSubtitles 5 (embeddedSubtitles container.streams))).rows

def textTrack (id streamIndex : Nat) : Server.SubtitleTrack where
  id := id
  mediaFileId := 5
  kind := .embedded
  storageFilename := none
  format := none
  checksum := none
  streamIndex := some streamIndex
  codec := some "subrip"
  language := none
  label := none
  isDefault := false
  isForced := false

example : uploaded disc = [textTrack 1 2] := by decide

def lobbyConfig : ServerConfig where
  requireMediaApproval := false
  publicUrl := ""
  port := 3000
  spacesUrl := none

theorem keptRows_disc : KeptRows disc [textTrack 1 2] where
  ids := by decide
  registered := by decide
  distinct := by decide

/-- The text track is the second of the container, and the player asks for the first. -/
theorem not_trackId_disc :
    ¬ ∀ (container : Container) (rows : List Server.SubtitleTrack) (r : Server.SubtitleTrack)
      (index : Nat) (cfg : ServerConfig) (cacheDir : String) (onDisk : PathBuf → Bool),
      KeptRows container rows → r ∈ rows → r.kind = .embedded → r.streamIndex = some index →
        trackId (candidatesOf cfg cacheDir onDisk rows) r =
          some (1 + (container.subtitlesBefore index).length) := by
  intro h
  have hdisc := h disc [textTrack 1 2] (textTrack 1 2) 2 lobbyConfig "/cache" (fun _ => false)
    keptRows_disc (by decide) rfl rfl
  exact absurd hdisc (by decide)

/-- A film with two text tracks. -/
def film : Container where
  streams := [{ index := 0, codecType := "video", codecName := some "h264" },
    { index := 1, codecType := "subtitle", codecName := some "subrip" },
    { index := 2, codecType := "subtitle", codecName := some "subrip" }]
  indexed := rfl

theorem keptRows_film : KeptRows film [textTrack 1 1, textTrack 2 2] where
  ids := by decide
  registered := by decide
  distinct := by decide

theorem trackId_iff_film :
    trackId (candidatesOf lobbyConfig "/cache" (fun _ => false) [textTrack 1 1, textTrack 2 2])
        (textTrack 2 2) = some (1 + (film.subtitlesBefore 2).length) ↔
      ∀ s ∈ film.subtitlesBefore 2, ∃ r' ∈ [textTrack 1 1, textTrack 2 2],
        r'.kind = .embedded ∧ r'.streamIndex = some s.index :=
  trackId_iff keptRows_film (by decide) rfl rfl

end Montr.Protocol
