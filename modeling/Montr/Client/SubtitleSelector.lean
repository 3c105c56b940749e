import Mathlib.Data.List.AList
import Mathlib.Data.List.Sort
import Mathlib.Data.Prod.Lex
import Montr.Lib.FirstMatch
import Montr.Lib.Numbering
import Montr.Client.AppState

namespace Montr.Client

open FirstMatch

/-!
# Choosing a subtitle track

`playback/subtitle_selector.rs`: which of the tracks the server advertises is visible.

* `choose` — five buckets, each searched for external files first;
* `leastUsable` — the least usable candidate by precedence class, kind and place;
* `choose_eq` — the one finds the other;
* `choose_picksLeast` — so candidates greater than the chosen one make no difference.
-/

/-- A path of the cache, as text. -/
abbrev PathBuf := String

inductive SubtitleSelection
  | external (path : PathBuf)
  | embedded (sid : Nat)
  | none
  deriving DecidableEq, Repr

/-- A track and, for external ones, its file in the cache. -/
structure SubtitleCandidate where
  track : SubtitleTrack
  localPath : Option PathBuf
  deriving DecidableEq, Repr

structure ResolvedSubtitles where
  externalPaths : List PathBuf
  selected : SubtitleSelection
  fontSize : Option Nat
  deriving DecidableEq, Repr

/-- `str::eq_ignore_ascii_case`. -/
def eqIgnoreAsciiCase (a b : String) : Bool :=
  a.toList.map Char.toLower == b.toList.map Char.toLower

namespace SubtitleCandidate

def isExternal (c : SubtitleCandidate) : Bool := c.track.kind == .external

def isEmbedded (c : SubtitleCandidate) : Bool := c.track.kind == .embedded

/-- `sort_by_key` on the stream index, 0 where there is none. -/
def streamKey (c : SubtitleCandidate) : Nat := c.track.streamIndex.getD 0

/-- `pref_ok`. -/
def prefOk (preferredLanguage : Option String) (c : SubtitleCandidate) : Bool :=
  (preferredLanguage.bind fun p => c.track.language.map fun l => eqIgnoreAsciiCase l p).getD false

end SubtitleCandidate

open SubtitleCandidate

/-- The embedded candidates in the order of their streams. -/
def embeddedInOrder (candidates : List SubtitleCandidate) : List SubtitleCandidate :=
  (candidates.filter isEmbedded).insertionSort fun a b => a.streamKey ≤ b.streamKey

/-- A candidate and its place, entered under the track's id. -/
def insertSid (map : AList fun _ : Nat => Nat) (entry : SubtitleCandidate × Nat) :
    AList fun _ : Nat => Nat :=
  map.insert entry.1.track.id (entry.2 + 1)

/-- `build_embedded_sid_map`. -/
def buildEmbeddedSidMap (candidates : List SubtitleCandidate) : AList fun _ : Nat => Nat :=
  (embeddedInOrder candidates).zipIdx.foldl insertSid ∅

/-- `to_selection`. -/
def toSelection (sids : AList fun _ : Nat => Nat) (c : SubtitleCandidate) :
    Option SubtitleSelection :=
  match c.track.kind with
  | .external => c.localPath.map .external
  | .embedded => (sids.lookup c.track.id).map .embedded

/-- The buckets of `choose`, from most to least specific. -/
def buckets (preferredLanguage : Option String) : List (SubtitleCandidate → Bool) :=
  [fun c => c.prefOk preferredLanguage && c.track.isDefault,
    fun c => c.prefOk preferredLanguage,
    fun c => c.track.isDefault,
    fun c => c.track.isForced,
    fun _ => true]

/-- The best of a bucket: an external file, or else an embedded stream. -/
def best (candidates : List SubtitleCandidate) (predicate : SubtitleCandidate → Bool) :
    Option SubtitleCandidate :=
  match ((candidates.filter isExternal).filter fun c => c.localPath.isSome).find? predicate with
  | some c => some c
  | none => (candidates.filter isEmbedded).find? predicate

/-- `choose`. -/
def choose (candidates : List SubtitleCandidate) (preferredLanguage : Option String)
    (enable : Bool) : SubtitleSelection :=
  if !enable || candidates.isEmpty then .none
  else
    let sids := buildEmbeddedSidMap candidates
    ((buckets preferredLanguage).findSome? fun predicate =>
      (best candidates predicate).bind (toSelection sids)).getD .none

/-- `resolve`. -/
def resolve (candidates : List SubtitleCandidate) (preferredLanguage : Option String)
    (enable : Bool) (fontSize : Option Nat) : ResolvedSubtitles where
  externalPaths := (candidates.filter isExternal).filterMap (·.localPath)
  selected := choose candidates preferredLanguage enable
  fontSize := fontSize

/-- The candidate for a track: an external file that is not on disk is skipped. -/
def candidateOf (cacheDir : String) (onDisk : PathBuf → Bool) (track : SubtitleTrack) :
    Option SubtitleCandidate :=
  match track.kind with
  | .external =>
    let filename := track.filename.getD
      (if track.format = some "vtt" then s!"{track.id}.vtt" else s!"{track.id}.srt")
    let localPath := getCachePath s!"{cacheDir}/subs" track.id filename
    if onDisk localPath then some { track, localPath := some localPath } else none
  | .embedded => some { track, localPath := none }

/-- The candidates of `resolve_subtitles_for_item`. -/
def subtitleCandidates (cacheDir : String) (onDisk : PathBuf → Bool)
    (subtitles : List SubtitleTrack) : List SubtitleCandidate :=
  subtitles.filterMap (candidateOf cacheDir onDisk)

theorem candidateOf_embedded {track : SubtitleTrack} (cacheDir : String) (onDisk : PathBuf → Bool)
    (h : track.kind = .embedded) :
    candidateOf cacheDir onDisk track = some { track, localPath := none } := by
  unfold candidateOf
  rw [h]

theorem track_of_candidateOf {track : SubtitleTrack} {cacheDir : String} {onDisk : PathBuf → Bool}
    {c : SubtitleCandidate} (h : candidateOf cacheDir onDisk track = some c) : c.track = track := by
  unfold candidateOf at h
  split at h
  · obtain ⟨-, hc⟩ := Option.ite_none_right_eq_some.mp h
    cases hc
    rfl
  · cases h
    rfl

/-- Every embedded track is a candidate. -/
theorem filter_subtitleCandidates (cacheDir : String) (onDisk : PathBuf → Bool)
    (subtitles : List SubtitleTrack) :
    (subtitleCandidates cacheDir onDisk subtitles).filter isEmbedded =
      (subtitles.filter (·.kind == .embedded)).map fun track => { track, localPath := none } := by
  induction subtitles with
  | nil => rfl
  | cons track subtitles ih =>
    unfold subtitleCandidates at ih ⊢
    cases hkind : track.kind with
    | embedded =>
      rw [List.filterMap_cons_some (candidateOf_embedded cacheDir onDisk hkind),
        List.filter_cons_of_pos (by rw [isEmbedded, hkind]; rfl),
        List.filter_cons_of_pos (by rw [hkind]; rfl), ih, List.map_cons]
    | external =>
      rw [List.filter_cons_of_neg (a := track) (by rw [hkind]; exact Bool.false_ne_true), ← ih]
      cases hc : candidateOf cacheDir onDisk track with
      | none => rw [List.filterMap_cons_none hc]
      | some c =>
        have hexternal : ¬ c.isEmbedded = true := by
          rw [isEmbedded, track_of_candidateOf hc, hkind]
          exact Bool.false_ne_true
        rw [List.filterMap_cons_some hc, List.filter_cons_of_neg hexternal]

/-! ### The order of the candidates -/

namespace SubtitleCandidate

/-- An external file that is there, or an embedded stream. -/
def usable (c : SubtitleCandidate) : Bool := c.isExternal && c.localPath.isSome || c.isEmbedded

/-- The first of the five classes that the candidate is in. -/
def precedence (preferredLanguage : Option String) (c : SubtitleCandidate) : Nat :=
  if c.prefOk preferredLanguage && c.track.isDefault then 0
  else if c.prefOk preferredLanguage then 1
  else if c.track.isDefault then 2
  else if c.track.isForced then 3
  else 4

def kindRank (c : SubtitleCandidate) : Nat := if c.isExternal then 0 else 1

/-- Class, then external before embedded. -/
def order (preferredLanguage : Option String) (c : SubtitleCandidate) : Lex (Nat × Nat) :=
  toLex (c.precedence preferredLanguage, c.kindRank)

end SubtitleCandidate

/-- The least usable candidate, the first where there are several. -/
def leastUsable (preferredLanguage : Option String) (candidates : List SubtitleCandidate) :
    Option SubtitleCandidate :=
  (candidates.filter usable).argmin (order preferredLanguage)

/-- All candidates but `c` are greater: unusable, or of a higher class, or of the same class and of
    a higher kind, or alike and further back. -/
def OnlyGreater (preferredLanguage : Option String) (c : SubtitleCandidate)
    (candidates : List SubtitleCandidate) : Prop :=
  ∃ pre post, candidates = pre ++ c :: post ∧
    (∀ d ∈ pre, d.usable = true → c.order preferredLanguage < d.order preferredLanguage) ∧
    ∀ d ∈ post, d.usable = true → c.order preferredLanguage ≤ d.order preferredLanguage

/-- The selection shows the candidate's track: its file, or the stream of its id. -/
def Activates (candidates : List SubtitleCandidate) (c : SubtitleCandidate) :
    SubtitleSelection → Prop
  | .external path => c.isExternal = true ∧ c.localPath = some path
  | .embedded sid => c.isEmbedded = true ∧ ∃ i d,
      (embeddedInOrder candidates)[i]? = some d ∧ d.track.id = c.track.id ∧ sid = i + 1 ∧
        (((embeddedInOrder candidates).map (·.track.id)).Nodup → d = c)
  | .none => False

/-- **What the choice is for.** -/
structure PicksLeast (preferredLanguage : Option String) (enable : Bool)
    (pick : List SubtitleCandidate → SubtitleSelection) : Prop where
  none_iff : ∀ candidates, pick candidates = .none ↔
    enable = false ∨ ∀ c ∈ candidates, c.usable = false
  least : ∀ candidates c, enable = true → leastUsable preferredLanguage candidates = some c →
    Activates candidates c (pick candidates)
  /-- greater candidates may come, go and move -/
  stable : ∀ candidates candidates' c, enable = true →
    leastUsable preferredLanguage candidates = some c →
    OnlyGreater preferredLanguage c candidates' →
    leastUsable preferredLanguage candidates' = some c ∧
      Activates candidates' c (pick candidates')

section

variable {candidates : List SubtitleCandidate} {preferredLanguage : Option String}
  {c : SubtitleCandidate}

theorem isEmbedded_eq (c : SubtitleCandidate) : c.isEmbedded = !c.isExternal := by
  unfold isEmbedded isExternal
  cases c.track.kind <;> rfl

/-! ### The cascade -/

/-- The two searches of a bucket. -/
def searches (predicate : SubtitleCandidate → Bool) : List (SubtitleCandidate → Bool) :=
  [fun c => c.isExternal && (c.localPath.isSome && predicate c),
    fun c => c.isEmbedded && predicate c]

theorem best_eq (candidates : List SubtitleCandidate) (predicate : SubtitleCandidate → Bool) :
    best candidates predicate = firstMatch (searches predicate) candidates := by
  unfold best searches
  rw [firstMatch_cons, firstMatch_cons]
  show _ = (candidates.find? _).or ((candidates.find? _).or none)
  rw [Option.or_none]
  simp only [List.find?_filter, Bool.decide_and, Bool.decide_eq_true]
  split
  · rename_i hfind
    rw [hfind]
    rfl
  · rename_i hfind
    rw [hfind]
    rfl

/-- The candidate's place in its bucket. -/
theorem accepted_searches (bs : List (SubtitleCandidate → Bool)) :
    accepted (bs.flatMap searches) c = (c.usable && accepted bs c) := by
  induction bs with
  | nil => exact (Bool.and_false _).symm
  | cons p bs ih =>
    show (c.isExternal && (c.localPath.isSome && p c) || (c.isEmbedded && p c ||
      accepted (bs.flatMap searches) c)) = (c.usable && (p c || accepted bs c))
    rw [ih, usable, isEmbedded_eq]
    cases c.isExternal <;> cases c.localPath.isSome <;> simp

theorem rank_searches (husable : c.usable = true) {bs : List (SubtitleCandidate → Bool)}
    (h : accepted bs c = true) : rank (bs.flatMap searches) c = 2 * rank bs c + c.kindRank := by
  have hexternal : ∀ p : SubtitleCandidate → Bool,
      (c.isExternal && (c.localPath.isSome && p c)) = (c.isExternal && p c) := by
    rw [usable, isEmbedded_eq] at husable
    cases hkind : c.isExternal with
    | false => simp
    | true =>
      rw [hkind] at husable
      simp_all
  induction bs with
  | nil => cases h
  | cons p bs ih =>
    show rank ((fun c => c.isExternal && (c.localPath.isSome && p c)) ::
      (fun c => c.isEmbedded && p c) :: bs.flatMap searches) c = _
    cases hp : p c with
    | true =>
      rw [rank_cons_of_true hp, kindRank]
      cases hkind : c.isExternal with
      | true => rw [rank_cons_of_true (by rw [hexternal, hkind, hp]; rfl), if_pos rfl]
      | false =>
        rw [rank_cons_of_false (by rw [hexternal, hkind]; rfl),
          rank_cons_of_true (by rw [isEmbedded_eq, hkind, hp]; rfl), if_neg Bool.false_ne_true]
    | false =>
      have hrest : accepted bs c = true := by
        change (p c || accepted bs c) = true at h
        rwa [hp, Bool.false_or] at h
      rw [rank_cons_of_false (by rw [hexternal, hp, Bool.and_false]),
        rank_cons_of_false (by rw [hp, Bool.and_false]), rank_cons_of_false hp, ih hrest]
      omega

theorem accepted_buckets (preferredLanguage : Option String) (c : SubtitleCandidate) :
    accepted (buckets preferredLanguage) c = true :=
  List.any_eq_true.mpr ⟨fun _ => true, by simp [buckets], rfl⟩

theorem rank_buckets (preferredLanguage : Option String) (c : SubtitleCandidate) :
    rank (buckets preferredLanguage) c = c.precedence preferredLanguage := by
  unfold rank buckets precedence
  simp only [List.findIdx_cons, List.findIdx_nil]
  cases c.prefOk preferredLanguage <;> cases c.track.isDefault <;> cases c.track.isForced <;> rfl

theorem kindRank_lt (c : SubtitleCandidate) : c.kindRank < 2 := by
  unfold kindRank
  split <;> omega

/-- The searches of all the buckets find the least usable candidate. -/
theorem firstMatch_eq_leastUsable (preferredLanguage : Option String)
    (candidates : List SubtitleCandidate) :
    firstMatch ((buckets preferredLanguage).flatMap searches) candidates =
      leastUsable preferredLanguage candidates := by
  have husable : accepted ((buckets preferredLanguage).flatMap searches) = usable := by
    ext c
    rw [accepted_searches, accepted_buckets, Bool.and_true]
  rw [firstMatch_eq_argmin, husable]
  apply argmin_congr
  intro a ha b hb
  rw [rank_searches (List.mem_filter.mp ha).2 (accepted_buckets _ a),
    rank_searches (List.mem_filter.mp hb).2 (accepted_buckets _ b), rank_buckets, rank_buckets]
  have hka := kindRank_lt a
  have hkb := kindRank_lt b
  unfold order
  rw [Prod.Lex.toLex_lt_toLex]
  omega

/-! ### The numbers of the embedded streams -/

/-- The last entry under an id counts. -/
theorem lookup_foldl_insertSid (entries : List (SubtitleCandidate × Nat)) (id : Nat) :
    (entries.foldl insertSid ∅).lookup id =
      (entries.reverse.find? fun entry => entry.1.track.id == id).map fun entry => entry.2 + 1 := by
  induction entries using List.reverseRecOn with
  | nil => rfl
  | append_singleton entries entry ih =>
    rw [List.foldl_append, List.foldl_cons, List.foldl_nil, List.reverse_concat, insertSid]
    by_cases hid : entry.1.track.id = id
    · subst hid
      rw [AList.lookup_insert, List.find?_cons_of_pos (by simp)]
      rfl
    · rw [AList.lookup_insert_ne (Ne.symm hid), ih, List.find?_cons_of_neg (by simpa using hid)]

/-- **The number under an id** is the place of a stream with that id. -/
theorem lookup_buildEmbeddedSidMap {id sid : Nat}
    (h : (buildEmbeddedSidMap candidates).lookup id = some sid) :
    ∃ i d, (embeddedInOrder candidates)[i]? = some d ∧ d.track.id = id ∧ sid = i + 1 := by
  unfold buildEmbeddedSidMap at h
  rw [lookup_foldl_insertSid] at h
  obtain ⟨⟨d, i⟩, hfind, rfl⟩ := Option.map_eq_some_iff.mp h
  have hmem : (d, i) ∈ (embeddedInOrder candidates).zipIdx :=
    List.mem_reverse.mp (List.mem_of_find?_eq_some hfind)
  have hid := List.find?_some hfind
  exact ⟨i, d, List.mk_mem_zipIdx_iff_getElem?.mp hmem, by simpa using hid, rfl⟩

theorem lookup_buildEmbeddedSidMap_ne_none (hc : c ∈ candidates) (hembedded : c.isEmbedded = true) :
    (buildEmbeddedSidMap candidates).lookup c.track.id ≠ none := by
  have hmem : c ∈ embeddedInOrder candidates :=
    (List.mem_insertionSort _).mpr (List.mem_filter.mpr ⟨hc, hembedded⟩)
  obtain ⟨i, hi⟩ := List.getElem?_of_mem hmem
  unfold buildEmbeddedSidMap
  rw [lookup_foldl_insertSid]
  intro hnone
  rw [Option.map_eq_none_iff, List.find?_eq_none] at hnone
  have hentry : (c, i) ∈ (embeddedInOrder candidates).zipIdx.reverse :=
    List.mem_reverse.mpr (List.mk_mem_zipIdx_iff_getElem?.mpr hi)
  exact hnone (c, i) hentry (by simp)

theorem embeddedInOrder_pairwise (candidates : List SubtitleCandidate) :
    (embeddedInOrder candidates).Pairwise fun a b => a.streamKey ≤ b.streamKey := by
  have htotal : Std.Total fun a b : SubtitleCandidate => a.streamKey ≤ b.streamKey :=
    ⟨fun a b => Nat.le_total a.streamKey b.streamKey⟩
  have htrans : IsTrans SubtitleCandidate fun a b => a.streamKey ≤ b.streamKey :=
    ⟨fun _ _ _ => Nat.le_trans⟩
  exact List.pairwise_insertionSort _ _

/-- **Where ids and streams are distinct**, the number of a stream is its place in their order. -/
theorem lookup_of_distinct (hids : ((candidates.filter isEmbedded).map (·.track.id)).Nodup)
    (hkeys : ((candidates.filter isEmbedded).map streamKey).Nodup) (hc : c ∈ candidates)
    (hembedded : c.isEmbedded = true) :
    (buildEmbeddedSidMap candidates).lookup c.track.id =
      some (((candidates.filter isEmbedded).filter fun d =>
        d.streamKey < c.streamKey).length + 1) := by
  have hperm : (embeddedInOrder candidates).Perm (candidates.filter isEmbedded) :=
    List.perm_insertionSort _ _
  have hmem : c ∈ embeddedInOrder candidates :=
    hperm.mem_iff.mpr (List.mem_filter.mpr ⟨hc, hembedded⟩)
  obtain ⟨sid, hsid⟩ := Option.ne_none_iff_exists'.mp
    (lookup_buildEmbeddedSidMap_ne_none hc hembedded)
  obtain ⟨i, d, hi, hid, rfl⟩ := lookup_buildEmbeddedSidMap hsid
  obtain rfl : d = c :=
    List.inj_on_of_nodup_map ((hperm.map _).nodup_iff.mpr hids) (List.mem_of_getElem? hi) hmem hid
  have hdistinct : (embeddedInOrder candidates).Pairwise fun a b => a.streamKey ≠ b.streamKey :=
    List.pairwise_map.mp ((hperm.map streamKey).nodup_iff.mpr hkeys)
  have hsorted := ((embeddedInOrder_pairwise candidates).and hdistinct).imp
    fun h => lt_of_le_of_ne h.1 h.2
  rw [hsid, ← Numbering.length_filter_lt hsorted hi, (hperm.filter _).length_eq]

theorem toSelection_ne_none (hc : c ∈ candidates) (husable : c.usable = true) :
    toSelection (buildEmbeddedSidMap candidates) c ≠ none := by
  unfold toSelection
  split
  · rename_i hkind
    have hpath : c.localPath.isSome = true := by
      simpa [usable, isExternal, isEmbedded, hkind] using husable
    rw [Ne, Option.map_eq_none_iff]
    exact Option.isSome_iff_ne_none.mp hpath
  · rename_i hkind
    rw [Ne, Option.map_eq_none_iff]
    exact lookup_buildEmbeddedSidMap_ne_none hc (by rw [isEmbedded, hkind]; rfl)

/-! ### The choice -/

theorem mem_of_leastUsable (h : leastUsable preferredLanguage candidates = some c) :
    c ∈ candidates ∧ c.usable = true :=
  List.mem_filter.mp (List.argmin_mem h)

/-- **`choose` converts the least usable candidate.** -/
theorem choose_eq (candidates : List SubtitleCandidate) (preferredLanguage : Option String) :
    choose candidates preferredLanguage true =
      ((leastUsable preferredLanguage candidates).bind
        (toSelection (buildEmbeddedSidMap candidates))).getD .none := by
  by_cases hnil : candidates = []
  · subst hnil
    rfl
  · have hbest : best candidates = fun p => firstMatch (searches p) candidates := by
      ext1 p
      exact best_eq candidates p
    have hconvert : ∀ p c, firstMatch (searches p) candidates = some c →
        toSelection (buildEmbeddedSidMap candidates) c ≠ none := by
      intro p c hp
      rw [firstMatch_eq_argmin] at hp
      obtain ⟨hc, haccepted⟩ := List.mem_filter.mp (List.argmin_mem hp)
      refine toSelection_ne_none hc ?_
      have hone := accepted_searches (c := c) [p]
      rw [List.flatMap_singleton, haccepted] at hone
      exact (Bool.and_eq_true_iff.mp hone.symm).1
    unfold choose
    rw [if_neg (by simpa using hnil), hbest]
    show (List.findSome? _ _).getD SubtitleSelection.none = _
    rw [findSome?_bind hconvert, ← firstMatch_flatMap, firstMatch_eq_leastUsable]

example : choose
    [⟨{ id := 3, kind := .embedded, language := some "eng", isDefault := true }, none⟩,
      ⟨{ id := 4, kind := .external, language := some "spa" }, some "4.srt"⟩]
    (some "SPA") true = .external "4.srt" := by decide

theorem leastUsable_eq_some_iff :
    leastUsable preferredLanguage candidates = some c ↔
      c.usable = true ∧ OnlyGreater preferredLanguage c candidates :=
  argmin_filter_eq_some_iff

theorem leastUsable_eq_none_iff (preferredLanguage : Option String)
    (candidates : List SubtitleCandidate) :
    leastUsable preferredLanguage candidates = none ↔ ∀ c ∈ candidates, c.usable = false := by
  unfold leastUsable
  rw [List.argmin_eq_none, List.filter_eq_nil_iff]
  simp only [Bool.not_eq_true]

theorem toSelection_activates {selected : SubtitleSelection} (hc : c ∈ candidates)
    (h : toSelection (buildEmbeddedSidMap candidates) c = some selected) :
    Activates candidates c selected := by
  unfold toSelection at h
  split at h
  · rename_i hkind
    obtain ⟨path, hpath, rfl⟩ := Option.map_eq_some_iff.mp h
    exact ⟨by rw [isExternal, hkind]; rfl, hpath⟩
  · rename_i hkind
    obtain ⟨sid, hsid, rfl⟩ := Option.map_eq_some_iff.mp h
    obtain ⟨i, d, hi, hid, rfl⟩ := lookup_buildEmbeddedSidMap hsid
    have hembedded : c.isEmbedded = true := by rw [isEmbedded, hkind]; rfl
    refine ⟨hembedded, i, d, hi, hid, rfl, fun hnodup => ?_⟩
    have hmem : c ∈ embeddedInOrder candidates :=
      (List.mem_insertionSort _).mpr (List.mem_filter.mpr ⟨hc, hembedded⟩)
    exact List.inj_on_of_nodup_map hnodup (List.mem_of_getElem? hi) hmem hid

theorem choose_activates (h : leastUsable preferredLanguage candidates = some c) :
    Activates candidates c (choose candidates preferredLanguage true) := by
  obtain ⟨hc, husable⟩ := mem_of_leastUsable h
  obtain ⟨selected, hselected⟩ := Option.ne_none_iff_exists'.mp (toSelection_ne_none hc husable)
  rw [choose_eq, h]
  show Activates candidates c ((toSelection _ c).getD .none)
  rw [hselected]
  exact toSelection_activates hc hselected

theorem choose_eq_none_iff {enable : Bool} :
    choose candidates preferredLanguage enable = .none ↔
      enable = false ∨ ∀ c ∈ candidates, c.usable = false := by
  cases enable with
  | false => exact iff_of_true rfl (.inl rfl)
  | true =>
    constructor
    · intro hnone
      refine .inr ((leastUsable_eq_none_iff preferredLanguage candidates).mp ?_)
      by_contra hsome
      obtain ⟨c, hc⟩ := Option.ne_none_iff_exists'.mp hsome
      have hactivates := choose_activates hc
      rw [hnone] at hactivates
      exact hactivates
    · rintro (henable | hunusable)
      · cases henable
      · rw [choose_eq, (leastUsable_eq_none_iff preferredLanguage candidates).mpr hunusable]
        rfl

/-- A selected file is among those registered with the player. -/
theorem resolve_registers {enable : Bool} {fontSize : Option Nat} {path : PathBuf}
    (h : (resolve candidates preferredLanguage enable fontSize).selected = .external path) :
    path ∈ (resolve candidates preferredLanguage enable fontSize).externalPaths := by
  change choose candidates preferredLanguage enable = .external path at h
  have hsome : choose candidates preferredLanguage enable ≠ .none := by
    rw [h]
    exact nofun
  rw [Ne, choose_eq_none_iff, not_or, Bool.not_eq_false,
    ← leastUsable_eq_none_iff preferredLanguage] at hsome
  obtain ⟨rfl, hleast⟩ := hsome
  obtain ⟨c, hc⟩ := Option.ne_none_iff_exists'.mp hleast
  have hactivates := choose_activates hc
  rw [h] at hactivates
  obtain ⟨hexternal, hpath⟩ := hactivates
  exact List.mem_filterMap.mpr
    ⟨c, List.mem_filter.mpr ⟨(mem_of_leastUsable hc).1, hexternal⟩, hpath⟩

/-- **`choose` picks the least usable candidate.** -/
theorem choose_picksLeast (preferredLanguage : Option String) (enable : Bool) :
    PicksLeast preferredLanguage enable fun candidates =>
      choose candidates preferredLanguage enable where
  none_iff _ := choose_eq_none_iff
  least candidates c henable h := by
    subst henable
    exact choose_activates h
  stable candidates candidates' c henable h hgreater := by
    subst henable
    have hleast : leastUsable preferredLanguage candidates' = some c :=
      leastUsable_eq_some_iff.mpr ⟨(mem_of_leastUsable h).2, hgreater⟩
    exact ⟨hleast, choose_activates hleast⟩

end

end Montr.Client
