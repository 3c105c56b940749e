import Montr.Client.CacheQuota
import Montr.Client.VerifiedContent

namespace Montr.Client

/-!
# Names in the cache directory

What `get_cache_path` makes of a media id and a name that the server sent, and what is read back
from it.

* `BareName` — the name that a raw one stands for: its last segment without blanks around it and
  without control characters; `bareName_iff` ties the code to it;
* `SafeCachePath` — what the paths of a download should be;
* `safeCachePath_iff` — they are, unless the name as it is cut ends in `.tmp`.
-/

/-- The bytes of characters in UTF-8. -/
def utf8Bytes (cs : List Char) : Nat := (cs.map Char.utf8Size).sum

def IsSeparator (c : Char) : Prop := c = '/' ∨ c = '\\'

/-- `list_cached_media`. -/
def listCachedMedia (listing : List DirEntry) : List Nat :=
  listing.filterMap fun e => do
    let metadata ← e.metadata
    if metadata.isFile then
      let fileName ← e.fileName
      mediaIdOf fileName
    else none

/-! ### The purpose -/

/-- What stands after the last separator, without the blanks around it and without control
    characters. -/
def BareName (raw name : List Char) : Prop :=
  ∃ dir before body after,
    raw = dir ++ (before ++ (body ++ after)) ∧
    (∀ c ∈ dir.getLast?, IsSeparator c) ∧
    (∀ c ∈ before ++ (body ++ after), ¬ IsSeparator c) ∧
    (∀ c ∈ before, isWhitespace c) ∧ (∀ c ∈ after, isWhitespace c) ∧
    (∀ c ∈ body.head?, isWhitespace c = false) ∧ (∀ c ∈ body.getLast?, isWhitespace c = false) ∧
    name = body.filter fun c => !isControl c

/-- The bare name, cut to the documented length, ends in `.tmp`. -/
def EndsInTmp (raw : List Char) : Prop :=
  ∃ stem rest, BareName raw (stem ++ ".tmp".toList ++ rest) ∧
    utf8Bytes (stem ++ ".tmp".toList) ≤ maxSanitizedFilenameBytes ∧
    ∀ c ∈ rest.head?, maxSanitizedFilenameBytes < utf8Bytes (stem ++ ".tmp".toList) + c.utf8Size

/-- What the paths of a medium should be under any name that the server sends. -/
structure SafeCachePath {M : Type} (s : LruCacheManager M) (mediaId : Nat) (filename : String) :
    Prop where
  component : ∃ name, getCachePath s.cacheDir mediaId filename = filePath s.cacheDir name ∧
    name ≠ "" ∧ name ≠ "." ∧ name ≠ ".." ∧
    ∀ c ∈ name.toList, ¬ IsSeparator c ∧ isControl c = false
  /-- the documented length, and whole characters only -/
  short : utf8Bytes (sanitizeFilename filename).toList ≤ maxSanitizedFilenameBytes ∧
    (sanitizeFilename filename = "file" ∨
      ∃ name, BareName filename.toList name ∧ (sanitizeFilename filename).toList <+: name)
  recovered : ∀ name metadata,
    getCachePath s.cacheDir mediaId filename = filePath s.cacheDir name → metadata.isFile = true →
      listCachedMedia [⟨some name, some metadata⟩] = [mediaId] ∧
      s.scan [⟨some name, some metadata⟩] =
        [⟨getCachePath s.cacheDir mediaId filename, metadata.len, metadata.accessed, mediaId⟩]
  distinct : ∀ mediaId' filename', mediaId' < 2 ^ 32 → mediaId' ≠ mediaId →
    let final := getCachePath s.cacheDir mediaId filename
    let final' := getCachePath s.cacheDir mediaId' filename'
    ∀ path ∈ [final, tempPath final], ∀ path' ∈ [final', tempPath final'], path ≠ path'
  apart : tempPath (getCachePath s.cacheDir mediaId filename) ≠
    getCachePath s.cacheDir mediaId filename

/-! ### The bare name -/

/-- The name that `sanitize_filename` goes on with, before the placeholder and the cut. -/
def cleanedName (raw : List Char) : List Char :=
  let last := (raw.reverse.takeWhile fun c => c ≠ '/' ∧ c ≠ '\\').reverse
  let trimmed := ((last.dropWhile isWhitespace).reverse.dropWhile isWhitespace).reverse
  trimmed.filter fun c => !isControl c

theorem toList_sanitizeFilename (raw : String) :
    (sanitizeFilename raw).toList = takeBytes maxSanitizedFilenameBytes
      (if cleanedName raw.toList = [] ∨ cleanedName raw.toList = ['.'] ∨
          cleanedName raw.toList = ['.', '.'] then "file".toList
        else cleanedName raw.toList) :=
  String.toList_ofList

theorem dropWhile_eq_self_of_head {p : Char → Bool} {l : List Char}
    (h : ∀ c ∈ l.head?, p c = false) : l.dropWhile p = l := by
  cases l with
  | nil => rfl
  | cons c l => exact List.dropWhile_cons_of_neg (by simp [h c rfl])

theorem takeWhile_eq_nil_of_head {p : Char → Bool} {l : List Char}
    (h : ∀ c ∈ l.head?, p c = false) : l.takeWhile p = [] := by
  cases l with
  | nil => rfl
  | cons c l => exact List.takeWhile_cons_of_neg (by simp [h c rfl])

/-- What a `dropWhile` leaves does not begin with what it drops. -/
theorem head_dropWhile {p : Char → Bool} (l : List Char) :
    ∀ c ∈ (l.dropWhile p).head?, p c = false := by
  intro c hc
  have hhead := List.head?_dropWhile_not p l
  rw [Option.mem_def.mp hc] at hhead
  exact hhead

theorem trim_eq {before body after : List Char} (hbefore : ∀ c ∈ before, isWhitespace c = true)
    (hafter : ∀ c ∈ after, isWhitespace c = true)
    (hhead : ∀ c ∈ body.head?, isWhitespace c = false)
    (hlast : ∀ c ∈ body.getLast?, isWhitespace c = false) :
    (((before ++ (body ++ after)).dropWhile isWhitespace).reverse.dropWhile isWhitespace).reverse =
      body := by
  rw [List.dropWhile_append_of_pos hbefore]
  cases body with
  | nil =>
    rw [List.nil_append, List.dropWhile_eq_nil_iff.mpr hafter]
    rfl
  | cons c body =>
    rw [dropWhile_eq_self_of_head (l := c :: body ++ after) hhead, List.reverse_append,
      List.dropWhile_append_of_pos (fun c hc => hafter c (List.mem_reverse.mp hc)),
      dropWhile_eq_self_of_head, List.reverse_reverse]
    rw [List.head?_reverse]
    exact hlast

theorem not_isSeparator {c : Char} : ¬ IsSeparator c ↔ c ≠ '/' ∧ c ≠ '\\' := not_or

/-- A raw name stands for one bare name, the one that `sanitize_filename` finds. -/
theorem bareName_iff {raw name : List Char} : BareName raw name ↔ name = cleanedName raw := by
  constructor
  · rintro ⟨dir, before, body, after, rfl, hdir, hsegment, hbefore, hafter, hhead, hlast, rfl⟩
    have hlastSegment : ((dir ++ (before ++ (body ++ after))).reverse.takeWhile
        fun c => decide (c ≠ '/' ∧ c ≠ '\\')).reverse = before ++ (body ++ after) := by
      rw [List.reverse_append, List.takeWhile_append_of_pos, takeWhile_eq_nil_of_head,
        List.append_nil, List.reverse_reverse]
      · intro c hc
        rw [List.head?_reverse] at hc
        rw [decide_eq_false_iff_not, ← not_isSeparator, not_not]
        exact hdir c hc
      · intro c hc
        rw [decide_eq_true_eq, ← not_isSeparator]
        exact hsegment c (List.mem_reverse.mp hc)
    unfold cleanedName
    rw [hlastSegment]
    dsimp only
    rw [trim_eq hbefore hafter hhead hlast]
  · rintro rfl
    let p : Char → Bool := fun c => decide (c ≠ '/' ∧ c ≠ '\\')
    let last := (raw.reverse.takeWhile p).reverse
    let rest := last.dropWhile isWhitespace
    have hraw : raw = (raw.reverse.dropWhile p).reverse ++ last := by
      have hall := List.takeWhile_append_dropWhile (p := p) (l := raw.reverse)
      rw [← List.reverse_append, hall, List.reverse_reverse]
    have hlast : last = last.takeWhile isWhitespace ++ rest :=
      List.takeWhile_append_dropWhile.symm
    have hrest : rest = (rest.reverse.dropWhile isWhitespace).reverse ++
        (rest.reverse.takeWhile isWhitespace).reverse := by
      have hall := List.takeWhile_append_dropWhile (p := isWhitespace) (l := rest.reverse)
      rw [← List.reverse_append, hall, List.reverse_reverse]
    refine ⟨(raw.reverse.dropWhile p).reverse, last.takeWhile isWhitespace,
      (rest.reverse.dropWhile isWhitespace).reverse,
      (rest.reverse.takeWhile isWhitespace).reverse, ?_, ?_, ?_, ?_, ?_, ?_, ?_, rfl⟩
    · rw [← hrest, ← hlast]
      exact hraw
    · intro c hc
      rw [List.getLast?_reverse] at hc
      have hstop := head_dropWhile _ c hc
      by_contra hnot
      exact absurd hstop (by simpa [p] using not_isSeparator.mp hnot)
    · intro c hc
      rw [← hrest, ← hlast] at hc
      have htaken : p c = true := List.mem_takeWhile_imp (List.mem_reverse.mp hc)
      exact not_isSeparator.mpr (of_decide_eq_true htaken)
    · intro c hc
      exact List.mem_takeWhile_imp hc
    · intro c hc
      exact List.mem_takeWhile_imp (List.mem_reverse.mp hc)
    · intro c hc
      -- the trimmed name begins as what is left of it at the front
      apply head_dropWhile last c
      have hne : (rest.reverse.dropWhile isWhitespace).reverse ≠ [] := by
        intro hnil
        rw [hnil] at hc
        cases hc
      show c ∈ rest.head?
      rw [hrest, List.head?_append_of_ne_nil _ hne]
      exact hc
    · intro c hc
      rw [List.getLast?_reverse] at hc
      exact head_dropWhile _ c hc

/-! ### The cut -/

theorem utf8Bytes_append (a b : List Char) : utf8Bytes (a ++ b) = utf8Bytes a + utf8Bytes b := by
  unfold utf8Bytes
  rw [List.map_append, List.sum_append]

theorem utf8Bytes_cons (c : Char) (cs : List Char) :
    utf8Bytes (c :: cs) = c.utf8Size + utf8Bytes cs := by
  unfold utf8Bytes
  rw [List.map_cons, List.sum_cons]

/-- The cut is the longest part of whole characters that fits. -/
theorem takeBytes_eq_iff {n : Nat} {cs part : List Char} :
    takeBytes n cs = part ↔ ∃ rest, cs = part ++ rest ∧ utf8Bytes part ≤ n ∧
      ∀ c ∈ rest.head?, n < utf8Bytes part + c.utf8Size := by
  induction cs generalizing n part with
  | nil =>
    constructor
    · rintro rfl
      exact ⟨[], rfl, Nat.zero_le n, by simp⟩
    · rintro ⟨rest, hcs, -, -⟩
      exact (List.append_eq_nil_iff.mp hcs.symm).1.symm
  | cons c cs ih =>
    unfold takeBytes
    split
    · next hfits =>
      constructor
      · rintro rfl
        obtain ⟨rest, hcs, hbytes, hnext⟩ := ih.mp (rfl : takeBytes (n - c.utf8Size) cs = _)
        refine ⟨rest, congrArg (List.cons c) hcs, ?_, ?_⟩
        · rw [utf8Bytes_cons]
          omega
        · intro c' hc'
          have hlong := hnext c' hc'
          rw [utf8Bytes_cons]
          omega
      · rintro ⟨rest, hcs, hbytes, hnext⟩
        cases part with
        | nil =>
          have hlong := hnext c (by rw [← List.nil_append rest, ← hcs]; rfl)
          have hzero : utf8Bytes [] = 0 := rfl
          omega
        | cons c' part =>
          obtain ⟨rfl, htail⟩ := List.cons.inj hcs
          rw [utf8Bytes_cons] at hbytes
          congr 1
          refine ih.mpr ⟨rest, htail, by omega, ?_⟩
          intro c' hc'
          have hlong := hnext c' hc'
          rw [utf8Bytes_cons] at hlong
          omega
    · next hlong =>
      constructor
      · rintro rfl
        refine ⟨c :: cs, rfl, Nat.zero_le n, ?_⟩
        intro c' hc'
        obtain rfl : c = c' := Option.some.inj hc'
        have hzero : utf8Bytes [] = 0 := rfl
        omega
      · rintro ⟨rest, hcs, hbytes, -⟩
        cases part with
        | nil => rfl
        | cons c' part =>
          obtain ⟨rfl, -⟩ := List.cons.inj hcs
          rw [utf8Bytes_cons] at hbytes
          omega

/-- The characters of a sanitized name are those of the bare one, or of the placeholder. -/
theorem not_isSeparator_of_mem_sanitizeFilename {raw : String} {c : Char}
    (h : c ∈ (sanitizeFilename raw).toList) : ¬ IsSeparator c ∧ isControl c = false := by
  rw [toList_sanitizeFilename] at h
  have hcandidate := (takeBytes_sublist _ _).subset h
  split at hcandidate
  · have hplaceholder : ("file".toList.all fun c =>
        (c != '/' && c != '\\') && !isControl c) = true := by decide
    have hc := List.all_eq_true.mp hplaceholder c hcandidate
    simp only [Bool.and_eq_true, bne_iff_ne, Bool.not_eq_true'] at hc
    exact ⟨not_isSeparator.mpr hc.1, hc.2⟩
  · unfold cleanedName at hcandidate
    have hlast := List.mem_reverse.mp (mem_of_mem_cleaned hcandidate)
    have hkept : decide (c ≠ '/' ∧ c ≠ '\\') = true :=
      List.mem_takeWhile_imp (p := fun c => decide (c ≠ '/' ∧ c ≠ '\\')) hlast
    refine ⟨not_isSeparator.mpr (of_decide_eq_true hkept), ?_⟩
    simpa using (List.mem_filter.mp hcandidate).2

theorem utf8Bytes_sanitizeFilename (raw : String) :
    utf8Bytes (sanitizeFilename raw).toList ≤ maxSanitizedFilenameBytes := by
  have hcut := (toList_sanitizeFilename raw).symm
  rw [takeBytes_eq_iff] at hcut
  obtain ⟨-, -, hbytes, -⟩ := hcut
  exact hbytes

/-- A sanitized name is a first part of the bare one, or the placeholder. -/
theorem sanitizeFilename_eq_or_prefix (raw : String) : sanitizeFilename raw = "file" ∨
    ∃ name, BareName raw.toList name ∧ (sanitizeFilename raw).toList <+: name := by
  have hcut := toList_sanitizeFilename raw
  split at hcut
  · left
    have hfile : takeBytes maxSanitizedFilenameBytes "file".toList = "file".toList := by decide
    rw [hfile] at hcut
    exact String.toList_inj.mp hcut
  · right
    rw [eq_comm, takeBytes_eq_iff] at hcut
    obtain ⟨rest, hcs, -, -⟩ := hcut
    refine ⟨_, ?_, rest, hcs.symm⟩
    rw [bareName_iff]

/-- A sanitized name ends in `.tmp` iff the bare one as it is cut does. -/
theorem endsInTmp_iff {raw : String} :
    EndsInTmp raw.toList ↔ ".tmp".toList <:+ (sanitizeFilename raw).toList := by
  constructor
  · rintro ⟨stem, rest, hcleaned, hbytes, hnext⟩
    rw [bareName_iff] at hcleaned
    have hlong : 4 ≤ (cleanedName raw.toList).length := by
      rw [← hcleaned, List.length_append, List.length_append]
      have hfour : ".tmp".toList.length = 4 := by decide
      omega
    refine ⟨stem, ?_⟩
    rw [toList_sanitizeFilename, if_neg]
    · rw [eq_comm, takeBytes_eq_iff]
      exact ⟨rest, hcleaned.symm, hbytes, hnext⟩
    · rintro (h | h | h)
      all_goals
        rw [h] at hlong
        simp at hlong
  · rintro ⟨stem, hstem⟩
    rw [toList_sanitizeFilename, eq_comm, takeBytes_eq_iff] at hstem
    obtain ⟨rest, hcs, hbytes, hnext⟩ := hstem
    split at hcs
    · -- the placeholder has no extension
      have hdot : '.' ∈ "file".toList := by
        rw [hcs]
        simp
      exact absurd hdot (by decide)
    · refine ⟨stem, rest, ?_, hbytes, hnext⟩
      rw [bareName_iff]
      exact hcs.symm

/-! ### Paths -/

theorem getCachePath_eq (cacheDir : String) (mediaId : Nat) (filename : String) :
    getCachePath cacheDir mediaId filename =
      filePath cacheDir s!"{mediaId}_{sanitizeFilename filename}" := by
  simp [getCachePath, filePath, String.append_assoc, toString_string]

theorem toList_cacheName (mediaId : Nat) (name : String) :
    (s!"{mediaId}_{name}").toList = Nat.toDigits 10 mediaId ++ '_' :: name.toList := by
  simp [toString_string]

/-- A dot in front is needed to find an extension: what stands before the last one stays. -/
theorem fileStem_append_left {a : List Char} (h : a ≠ []) (b : List Char) (hdot : '.' ∉ a) :
    ∃ rest, fileStem (a ++ b) = a ++ rest := by
  unfold fileStem
  rw [List.reverse_append]
  by_cases hb : '.' ∈ b
  · have hdrop : (b.reverse ++ a.reverse).dropWhile (fun c => decide (c ≠ '.')) =
        (b.reverse.dropWhile fun c => decide (c ≠ '.')) ++ a.reverse := by
      rw [List.dropWhile_append, if_neg]
      rw [List.isEmpty_iff, List.dropWhile_eq_nil_iff]
      intro hall
      have hne := hall '.' (List.mem_reverse.mpr hb)
      simp at hne
    rw [hdrop]
    cases hrest : b.reverse.dropWhile fun c => decide (c ≠ '.') with
    | nil =>
      have hne := List.dropWhile_eq_nil_iff.mp hrest '.' (List.mem_reverse.mpr hb)
      simp at hne
    | cons dot before =>
      cases hall : before ++ a.reverse with
      | nil =>
        have hnil := (List.append_eq_nil_iff.mp hall).2
        exact absurd (List.reverse_eq_nil_iff.mp hnil) h
      | cons c rest =>
        refine ⟨before.reverse, ?_⟩
        rw [List.cons_append, hall]
        show (c :: rest).reverse = _
        rw [← hall, List.reverse_append, List.reverse_reverse]
  · have hdrop : (b.reverse ++ a.reverse).dropWhile (fun c => decide (c ≠ '.')) = [] := by
      rw [List.dropWhile_eq_nil_iff]
      intro c hc
      apply decide_eq_true
      rintro rfl
      rcases List.mem_append.mp hc with hmem | hmem
      · exact hb (List.mem_reverse.mp hmem)
      · exact hdot (List.mem_reverse.mp hmem)
    rw [hdrop]
    exact ⟨b, rfl⟩

theorem slash_not_mem_cacheName (mediaId : Nat) (filename : String) :
    '/' ∉ (s!"{mediaId}_{sanitizeFilename filename}").toList := by
  rw [toList_cacheName, List.mem_append, List.mem_cons]
  rintro (hdigit | heq | hname)
  · have hdigit : Char.isDigit '/' = true :=
      Nat.isDigit_of_mem_toDigits (by omega) (by omega) hdigit
    exact absurd hdigit (by decide)
  · exact absurd heq (by decide)
  · exact slash_not_mem_sanitizeFilename filename hname

theorem toList_tmp : ".tmp".toList = '.' :: "tmp".toList := by decide

/-- The temporary name: the stem of the final one with the extension of a temporary file. -/
theorem tempPath_filePath {cacheDir name : String} (h : '/' ∉ name.toList) :
    tempPath (filePath cacheDir name) =
      filePath cacheDir (String.ofList (fileStem name.toList ++ ".tmp".toList)) := by
  have hpath : ∀ name : String,
      filePath cacheDir name = String.ofList (cacheDir.toList ++ '/' :: name.toList) := by
    intro name
    apply String.toList_inj.mp
    rw [String.toList_ofList]
    simp [filePath, toString_string]
  have hback : (String.ofList (fileStem name.toList ++ ".tmp".toList)).toList =
      fileStem name.toList ++ '.' :: "tmp".toList := by
    rw [← toList_tmp]
    exact String.toList_ofList
  rw [tempPath, hpath, withExtension_join h, hpath, hback]

/-- The temporary name begins with the id, too. -/
theorem tempPath_getCachePath (cacheDir : String) (mediaId : Nat) (filename : String) :
    ∃ rest : String, tempPath (getCachePath cacheDir mediaId filename) =
      filePath cacheDir s!"{mediaId}_{rest}" := by
  have hdot : '.' ∉ Nat.toDigits 10 mediaId ++ ['_'] := by
    rw [List.mem_append]
    rintro (hdigit | heq)
    · have hdigit : Char.isDigit '.' = true :=
        Nat.isDigit_of_mem_toDigits (by omega) (by omega) hdigit
      exact absurd hdigit (by decide)
    · exact absurd heq (by decide)
  have hsplit : (s!"{mediaId}_{sanitizeFilename filename}").toList =
      (Nat.toDigits 10 mediaId ++ ['_']) ++ (sanitizeFilename filename).toList := by
    rw [toList_cacheName, List.append_assoc]
    rfl
  obtain ⟨rest, hstem⟩ := fileStem_append_left (by simp) (sanitizeFilename filename).toList hdot
  refine ⟨String.ofList (rest ++ ".tmp".toList), ?_⟩
  rw [getCachePath_eq, tempPath_filePath (slash_not_mem_cacheName mediaId filename), hsplit, hstem]
  congr 1
  apply String.toList_inj.mp
  rw [toList_cacheName, String.toList_ofList, String.toList_ofList]
  simp

/-- Paths of different ids differ. -/
theorem mediaId_of_filePath {cacheDir : String} {mediaId other : Nat} {rest tail : String}
    (h : mediaId < 2 ^ 32) (hother : other < 2 ^ 32)
    (heq : filePath cacheDir s!"{mediaId}_{rest}" = filePath cacheDir s!"{other}_{tail}") :
    mediaId = other := by
  have hread : mediaIdOf s!"{mediaId}_{rest}" = some mediaId := mediaIdOf_cacheName h
  rw [filePath_inj heq, mediaIdOf_cacheName hother] at hread
  exact (Option.some.inj hread).symm

/-- The final path is its own temporary path iff the sanitized name ends in `.tmp`. -/
theorem tempPath_eq_iff (cacheDir : String) (mediaId : Nat) (filename : String) :
    tempPath (getCachePath cacheDir mediaId filename) = getCachePath cacheDir mediaId filename ↔
      ".tmp".toList <:+ (sanitizeFilename filename).toList := by
  rw [getCachePath_eq, tempPath_filePath (slash_not_mem_cacheName mediaId filename)]
  constructor
  · intro heq
    have hname := congrArg String.toList (filePath_inj heq)
    rw [String.toList_ofList] at hname
    have hsuffix : ".tmp".toList <:+ Nat.toDigits 10 mediaId ++ '_' ::
        (sanitizeFilename filename).toList := by
      rw [← toList_cacheName, ← hname]
      exact List.suffix_append _ _
    -- the underscore is not part of the extension
    have htail : (sanitizeFilename filename).toList <:+ Nat.toDigits 10 mediaId ++ '_' ::
        (sanitizeFilename filename).toList :=
      ⟨Nat.toDigits 10 mediaId ++ ['_'], by simp⟩
    have htail' : '_' :: (sanitizeFilename filename).toList <:+ Nat.toDigits 10 mediaId ++ '_' ::
        (sanitizeFilename filename).toList := List.suffix_append _ _
    rcases Nat.lt_or_ge (sanitizeFilename filename).toList.length ".tmp".toList.length with
      hshort | hlong
    · exfalso
      have hcontains := List.suffix_of_suffix_length_le htail' hsuffix hshort
      have hunderscore : '_' ∈ ".tmp".toList := hcontains.subset List.mem_cons_self
      exact absurd hunderscore (by decide)
    · exact List.suffix_of_suffix_length_le hsuffix htail hlong
  · rintro ⟨stem, hstem⟩
    have hname : (s!"{mediaId}_{sanitizeFilename filename}").toList =
        (Nat.toDigits 10 mediaId ++ '_' :: stem) ++ '.' :: "tmp".toList := by
      rw [toList_cacheName, ← hstem, toList_tmp, List.append_assoc, List.cons_append]
    have hback : (String.ofList
        (fileStem (s!"{mediaId}_{sanitizeFilename filename}").toList ++ ".tmp".toList)).toList =
          (s!"{mediaId}_{sanitizeFilename filename}").toList := by
      rw [String.toList_ofList, hname, fileStem_append (by simp), toList_tmp]
    rw [String.toList_inj.mp hback]

/-! ### The claim of the paths -/

variable {M : Type}

/-- Whatever the raw name, the paths of a medium are safe iff the name as it is cut does not end
    in `.tmp`. -/
theorem safeCachePath_iff (s : LruCacheManager M) {mediaId : Nat} (h : mediaId < 2 ^ 32)
    (filename : String) : SafeCachePath s mediaId filename ↔ ¬ EndsInTmp filename.toList := by
  rw [endsInTmp_iff, ← tempPath_eq_iff s.cacheDir mediaId]
  constructor
  · intro safe
    exact safe.apart
  · intro hapart
    refine ⟨?_, ⟨utf8Bytes_sanitizeFilename filename, sanitizeFilename_eq_or_prefix filename⟩,
      ?_, ?_, hapart⟩
    · refine ⟨s!"{mediaId}_{sanitizeFilename filename}", getCachePath_eq _ _ _, ?_, ?_, ?_, ?_⟩
      -- the underscore is in no forbidden name
      iterate 3
        intro hname
        have hmem : '_' ∈ (s!"{mediaId}_{sanitizeFilename filename}").toList := by
          rw [toList_cacheName]
          simp
        rw [hname] at hmem
        exact absurd hmem (by decide)
      intro c hc
      rw [toList_cacheName, List.mem_append, List.mem_cons] at hc
      rcases hc with hdigit | rfl | hname
      · have hdigit : c.isDigit = true :=
          Nat.isDigit_of_mem_toDigits (by omega) (by omega) hdigit
        have hrange : 48 ≤ c.toNat ∧ c.toNat ≤ 57 := by
          simpa [Char.isDigit, UInt32.le_iff_toNat_le] using hdigit
        refine ⟨?_, ?_⟩
        · rintro (rfl | rfl)
          · exact absurd hdigit (by decide)
          · exact absurd hdigit (by decide)
        · unfold isControl
          simp only [Bool.or_eq_false_iff, Bool.and_eq_false_iff, decide_eq_false_iff_not]
          omega
      · exact ⟨not_isSeparator.mpr (by decide), by decide⟩
      · exact not_isSeparator_of_mem_sanitizeFilename hname
    · intro name metadata hpath hfile
      obtain rfl : s!"{mediaId}_{sanitizeFilename filename}" = name := by
        rw [getCachePath_eq] at hpath
        exact filePath_inj hpath
      have hid : mediaIdOf s!"{mediaId}_{sanitizeFilename filename}" = some mediaId :=
        mediaIdOf_cacheName h
      constructor
      · unfold listCachedMedia
        simp only [List.filterMap_cons, List.filterMap_nil, Option.bind_eq_bind, Option.bind_some,
          hfile, if_true, hid]
      · unfold LruCacheManager.scan
        simp only [List.filterMap_cons, List.filterMap_nil, Option.bind_eq_bind, Option.bind_some,
          hfile, if_true, hid, hpath]
        rfl
    · intro other filename' h' hne
      obtain ⟨rest, htemp⟩ := tempPath_getCachePath s.cacheDir mediaId filename
      obtain ⟨rest', htemp'⟩ := tempPath_getCachePath s.cacheDir other filename'
      intro final final' path hpath path' hpath' heq
      obtain ⟨name, rfl⟩ : ∃ name : String, path = filePath s.cacheDir s!"{mediaId}_{name}" := by
        rcases List.mem_pair.mp hpath with rfl | rfl
        · exact ⟨_, getCachePath_eq _ _ _⟩
        · exact ⟨rest, htemp⟩
      obtain ⟨name', rfl⟩ : ∃ name : String,
          path' = filePath s.cacheDir s!"{other}_{name}" := by
        rcases List.mem_pair.mp hpath' with rfl | rfl
        · exact ⟨_, getCachePath_eq _ _ _⟩
        · exact ⟨rest', htemp'⟩
      exact hne (mediaId_of_filePath h h' heq).symm

theorem safeCachePath_iff_clip :
    SafeCachePath (CacheManager.cacheOf (fun _ => none) ∅).lru 7 "..\\a/ clip\u0007.mp4 " := by
  apply (safeCachePath_iff _ (by decide) _).mpr
  rw [endsInTmp_iff]
  decide

/-- A clip that is named like a temporary file is downloaded at its final path. -/
theorem not_safeCachePath_tmp :
    tempPath (getCachePath "/cache" 7 "clip.tmp") = getCachePath "/cache" 7 "clip.tmp" ∧
      ¬ SafeCachePath (CacheManager.cacheOf (fun _ => none) ∅).lru 7 "clip.tmp" := by
  have hsame : tempPath (getCachePath "/cache" 7 "clip.tmp") =
      getCachePath "/cache" 7 "clip.tmp" := by decide
  refine ⟨hsame, ?_⟩
  intro safe
  exact safe.apart hsame

end Montr.Client
