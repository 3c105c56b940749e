import Mathlib.Data.List.Infix

namespace Montr.Client.Http

/-!
# Resumed downloads

`download_url_with_retry` and `try_download` of `network/http.rs`: one destination file, over which
attempts are made that continue where the earlier ones ended.  What the server answers to a request
and which accesses to the disk fail are inputs of an attempt.

* `tryDownload` — one attempt; `downloadUrlWithRetry` — attempts up to the first that succeeds;
* `Partial` — the invariant of the destination: there is no file, or one with a first part of the
  content;
* `exact_iff_guarded` — the download is exact iff the attempt that succeeds is `Guarded`.
-/

/-! ### Requests and answers -/

structure DownloadOptions where
  showProgress : Bool
  resume : Bool
  timeoutSecs : Nat
  maxRetries : Nat
  apiKey : Option String
  deriving DecidableEq, Repr

/-- The `GET` request: `X-API-Key`, `Range: bytes={}-` and the timeout. -/
structure Request where
  apiKey : Option String
  range : Option Nat
  timeoutSecs : Nat
  deriving DecidableEq, Repr

/-- What comes of the next chunk of a body. -/
inductive StreamItem
  | chunk (bytes : List UInt8)
  | readError
  /-- a chunk of which the given number of bytes reaches the file -/
  | writeError (bytes : List UInt8) (written : Nat)
  deriving DecidableEq, Repr

/-- An answer: `contentLength` is the header as it is parsed. -/
structure Response where
  status : Nat
  contentLength : Option Nat
  stream : List StreamItem
  deriving DecidableEq, Repr

/-- `StatusCode::is_success`. -/
def Response.isSuccess (response : Response) : Bool :=
  200 ≤ response.status ∧ response.status < 300

/-- The accesses to the disk outside the streaming loop. -/
inductive Access
  | metadata
  | removeFile
  | createDirAll
  | openFile
  deriving DecidableEq, Repr

/-- The world of one attempt.  A request that fails has no answer. -/
structure Attempt where
  send : Request → Option Response
  fails : Access → Bool
  /-- where the flush fails: the number of bytes that do not reach the file -/
  flushLoses : Option Nat

/-- The variants of `MontrError` that a download returns; the messages of `HttpRequest` are one
    constructor each. -/
inductive MontrError
  | fileAccess
  | invalidApiKey
  | reqwest
  | serverReturnedStatus (status : Nat)
  | directoryCreation
  | cacheWrite
  | readingResponseChunk
  | downloadFailed (attempts : Nat) (reason : MontrError)
  deriving DecidableEq, Repr

structure ProgressBar where
  total : Nat
  position : Nat
  deriving DecidableEq, Repr

def ProgressBar.setPosition (bar : ProgressBar) (position : Nat) : ProgressBar :=
  { bar with position }

/-! ### One attempt -/

/-- `start_byte`. -/
def startByte (options : DownloadOptions) (file : Option (List UInt8)) : Nat :=
  match file with
  | some bytes => if options.resume then bytes.length else 0
  | none => 0

/-- `HeaderValue::from_str`: visible ASCII characters and tabs. -/
def headerValue (value : String) : Option String :=
  if value.toList.all fun c => c = '\t' ∨ (32 ≤ c.toNat ∧ c.toNat < 127) then some value else none

def request (options : DownloadOptions) (start : Nat) : Except MontrError Request :=
  let range := if 0 < start then some start else none
  match options.apiKey with
  | none => .ok ⟨none, range, options.timeoutSecs⟩
  | some apiKey =>
    match headerValue apiKey with
    | some value => .ok ⟨some value, range, options.timeoutSecs⟩
    | none => .error .invalidApiKey

def totalSize (start : Nat) (response : Response) : Nat :=
  if 0 < start then start + response.contentLength.getD 0 else response.contentLength.getD 0

def progress (options : DownloadOptions) (start total : Nat) : Option ProgressBar :=
  if options.showProgress ∧ 0 < total then some ⟨total, start⟩ else none

/-- The destination as it is opened: to append to it, or anew. -/
def openDest (start : Nat) (file : Option (List UInt8)) (fails : Access → Bool) :
    Except MontrError (List UInt8) :=
  if 0 < start then
    match file with
    | some bytes => if fails .openFile then .error .cacheWrite else .ok bytes
    | none => .error .cacheWrite
  else if fails .createDirAll then .error .directoryCreation
  else if fails .openFile then .error .cacheWrite
  else .ok []

/-- The streaming loop: what it leaves at the destination, and the bar unless it fails. -/
def receive (written : List UInt8) (bar : Option ProgressBar) (downloaded : Nat) :
    List StreamItem → Except MontrError (Option ProgressBar) × List UInt8
  | [] => (.ok bar, written)
  | .chunk bytes :: rest =>
    let downloaded := downloaded + bytes.length
    receive (written ++ bytes) (bar.map fun bar => bar.setPosition downloaded) downloaded rest
  | .readError :: _ => (.error .readingResponseChunk, written)
  | .writeError bytes count :: _ => (.error .cacheWrite, written ++ bytes.take count)

/-- The end of an attempt: the file is flushed. -/
def flush (loses : Option Nat) :
    Except MontrError (Option ProgressBar) × List UInt8 →
      Except MontrError (Option ProgressBar) × Option (List UInt8)
  | (.error e, bytes) => (.error e, some bytes)
  | (.ok bar, bytes) =>
    match loses with
    | none => (.ok bar, some bytes)
    | some count => (.error .cacheWrite, some (bytes.take (bytes.length - count)))

/-- `try_download`: the bar as it is finished or an error, and the destination. -/
def tryDownload (options : DownloadOptions) (file : Option (List UInt8)) (a : Attempt) :
    Except MontrError (Option ProgressBar) × Option (List UInt8) :=
  if options.resume ∧ file.isSome ∧ a.fails .metadata then (.error .fileAccess, file)
  else
    let start := startByte options file
    match request options start with
    | .error e => (.error e, file)
    | .ok req =>
      match a.send req with
      | none => (.error .reqwest, file)
      | some response =>
        if response.status = 416 ∧ 0 < start then
          (.error (.serverReturnedStatus 416), if a.fails .removeFile then file else none)
        else if ¬ response.isSuccess then
          (.error (.serverReturnedStatus response.status), file)
        else
          match openDest start file a.fails with
          | .error e => (.error e, file)
          | .ok bytes =>
            let bar := progress options start (totalSize start response)
            flush a.flushLoses (receive bytes bar start response.stream)

/-! ### Attempts up to the first that succeeds -/

/-- The loop of `download_url_with_retry` from a number of failed attempts on.  `none` where the
    world ends first: the task is dropped, or the process stops. -/
def retry (options : DownloadOptions) :
    Nat → Option (List UInt8) → List Attempt →
      Option (Except MontrError (Option ProgressBar)) × Option (List UInt8)
  | _, file, [] => (none, file)
  | attempt, file, a :: rest =>
    match tryDownload options file a with
    | (.ok bar, file) => (some (.ok bar), file)
    | (.error e, file) =>
      if attempt + 1 ≥ options.maxRetries then
        (some (.error (.downloadFailed (attempt + 1) e)), file)
      else retry options (attempt + 1) file rest

/-- `download_url_with_retry`. -/
def downloadUrlWithRetry (options : DownloadOptions) (file : Option (List UInt8))
    (attempts : List Attempt) :
    Option (Except MontrError (Option ProgressBar)) × Option (List UInt8) :=
  retry options 0 file attempts

/-- The loop ends: `max_retries` attempts are enough for an answer. -/
theorem retry_isSome (options : DownloadOptions) {attempt : Nat} {file : Option (List UInt8)}
    {attempts : List Attempt} (some_left : 0 < attempts.length)
    (enough : options.maxRetries ≤ attempt + attempts.length) :
    (retry options attempt file attempts).1.isSome := by
  induction attempts generalizing attempt file with
  | nil => simp at some_left
  | cons a rest ih =>
    unfold retry
    rcases tryDownload options file a with ⟨e | bar, file'⟩
    · dsimp only
      split
      · rfl
      · next left =>
        rw [List.length_cons] at enough
        apply ih
        · omega
        · omega
    · rfl

/-! ### The purpose -/

/-- The body that a stream brings, or a first part of it where the stream breaks off. -/
def Serves : List UInt8 → List StreamItem → Prop
  | body, [] => body = []
  | body, .chunk bytes :: rest => bytes <+: body ∧ Serves (body.drop bytes.length) rest
  | _, .readError :: _ => True
  | body, .writeError bytes _ :: _ => bytes <+: body

/-- A body under its length, where the length is declared. -/
def Response.Carries (response : Response) (body : List UInt8) : Prop :=
  Serves body response.stream ∧ ∀ length ∈ response.contentLength, length = body.length

/-- The whole content with 200 or, where a range is asked for, the rest of it with 206.  Answers
    that are no success are of any kind. -/
def Response.Answers (content : List UInt8) (range : Option Nat) (response : Response) : Prop :=
  response.isSuccess →
    (response.status = 200 ∧ response.Carries content) ∨
      ∃ start, range = some start ∧ response.status = 206 ∧ response.Carries (content.drop start)

/-- A server of the content, under any request. -/
def Attempt.Honest (content : List UInt8) (a : Attempt) : Prop :=
  ∀ req, ∀ response ∈ a.send req, response.Answers content req.range

/-- No file, or one with a first part of the content. -/
def Partial (content : List UInt8) (file : Option (List UInt8)) : Prop :=
  ∀ bytes ∈ file, bytes <+: content

/-- What the download is for: the content at the destination, and a bar that is full. -/
structure Exact (content : List UInt8) (bar : Option ProgressBar) (file : Option (List UInt8)) :
    Prop where
  file : file = some content
  bar : ∀ b ∈ bar, b = ⟨content.length, content.length⟩

/-- The answer that an attempt gets. -/
def answer (options : DownloadOptions) (file : Option (List UInt8)) (a : Attempt) :
    Option Response :=
  match request options (startByte options file) with
  | .error _ => none
  | .ok req => a.send req

/-- An attempt that asks for a range and succeeds is answered with the range. -/
def Resumes (options : DownloadOptions) (file : Option (List UInt8)) (a : Attempt) : Prop :=
  ∀ response ∈ answer options file a, response.isSuccess → 0 < startByte options file →
    response.status = 206

/-- And where a bar is shown and bytes are left, with the number of bytes. -/
def Guarded (content : List UInt8) (options : DownloadOptions) (file : Option (List UInt8))
    (a : Attempt) : Prop :=
  Resumes options file a ∧
    ∀ response ∈ answer options file a, response.isSuccess → 0 < startByte options file →
      options.showProgress → response.contentLength.isSome ∨
        startByte options file = content.length

/-! ### The destination stays a first part of the content -/

theorem Partial.none (content : List UInt8) : Partial content none := by
  intro bytes h
  simp at h

theorem partial_some {content bytes : List UInt8} :
    Partial content (some bytes) ↔ bytes <+: content := by
  simp [Partial]

/-- What continues a first part is a first part. -/
theorem append_prefix {content bytes more : List UInt8} (h : bytes <+: content)
    (hmore : more <+: content.drop bytes.length) : bytes ++ more <+: content := by
  rw [List.prefix_iff_eq_append] at h
  rw [← h]
  exact (List.prefix_append_right_inj bytes).mpr hmore

/-- The loop appends a first part of the body. -/
theorem receive_file {body : List UInt8} {stream : List StreamItem} (serves : Serves body stream)
    (written : List UInt8) (bar : Option ProgressBar) (downloaded : Nat) :
    ∃ more, more <+: body ∧ (receive written bar downloaded stream).2 = written ++ more := by
  induction stream generalizing body written bar downloaded with
  | nil => exact ⟨[], List.nil_prefix, (List.append_nil _).symm⟩
  | cons item rest ih =>
    cases item with
    | chunk bytes =>
      obtain ⟨hbytes, hrest⟩ := serves
      obtain ⟨more, hmore, heq⟩ := ih hrest (written ++ bytes)
        (bar.map fun bar => bar.setPosition (downloaded + bytes.length))
        (downloaded + bytes.length)
      refine ⟨bytes ++ more, append_prefix hbytes hmore, ?_⟩
      rw [← List.append_assoc]
      exact heq
    | readError => exact ⟨[], List.nil_prefix, (List.append_nil _).symm⟩
    | writeError bytes count =>
      have hbytes : bytes <+: body := serves
      exact ⟨bytes.take count, (List.take_prefix count bytes).trans hbytes, rfl⟩

/-- A loop that ends has appended the body and moved the bar by its length. -/
theorem receive_ok {body : List UInt8} {stream : List StreamItem} (serves : Serves body stream)
    {written : List UInt8} {bar bar' : Option ProgressBar} {downloaded : Nat}
    (hbar : ∀ b ∈ bar, b.position = downloaded)
    (h : (receive written bar downloaded stream).1 = .ok bar') :
    (receive written bar downloaded stream).2 = written ++ body ∧
      bar' = bar.map fun b => b.setPosition (downloaded + body.length) := by
  induction stream generalizing body written bar downloaded with
  | nil =>
    have hbody : body = [] := serves
    subst hbody
    refine ⟨(List.append_nil _).symm, ?_⟩
    have heq : bar = bar' := Except.ok.inj h
    cases bar with
    | none => exact heq.symm
    | some b =>
      have hpos : b.position = downloaded := hbar b rfl
      rw [← heq, Option.map_some, ProgressBar.setPosition, List.length_nil, Nat.add_zero, ← hpos]
  | cons item rest ih =>
    cases item with
    | chunk bytes =>
      obtain ⟨hbytes, hrest⟩ := serves
      have hpos : ∀ b ∈ bar.map fun bar => bar.setPosition (downloaded + bytes.length),
          b.position = downloaded + bytes.length := by
        intro b hb
        obtain ⟨b₀, -, rfl⟩ := Option.map_eq_some_iff.mp hb
        rfl
      obtain ⟨hfile, hlast⟩ := ih hrest hpos h
      have hbody : bytes ++ body.drop bytes.length = body := List.prefix_iff_eq_append.mp hbytes
      have hlength : bytes.length + (body.drop bytes.length).length = body.length := by
        rw [← List.length_append, hbody]
      constructor
      · rw [← hbody, ← List.append_assoc]
        show (receive (written ++ bytes) _ _ rest).2 = _
        exact hfile
      · rw [hlast, Option.map_map, Nat.add_assoc, hlength]
        rfl
    | readError => cases h
    | writeError bytes count => cases h

/-- What an attempt comes to: an error before the destination is touched, its removal, or the
    streaming of a successful answer. -/
theorem tryDownload_cases (options : DownloadOptions) (file : Option (List UInt8)) (a : Attempt) :
    (∃ e, tryDownload options file a = (.error e, file)) ∨
    (∃ e, tryDownload options file a = (.error e, none)) ∨
    ∃ response ∈ answer options file a, response.isSuccess ∧
      ∃ bytes, openDest (startByte options file) file a.fails = .ok bytes ∧
        tryDownload options file a =
          flush a.flushLoses (receive bytes
            (progress options (startByte options file)
              (totalSize (startByte options file) response))
            (startByte options file) response.stream) := by
  unfold tryDownload answer
  split
  · exact .inl ⟨_, rfl⟩
  · dsimp only
    rcases request options (startByte options file) with e | req
    · exact .inl ⟨_, rfl⟩
    · dsimp only
      rcases a.send req with _ | response
      · exact .inl ⟨_, rfl⟩
      · dsimp only
        split
        · split
          · exact .inl ⟨_, rfl⟩
          · exact .inr (.inl ⟨_, rfl⟩)
        · split
          · exact .inl ⟨_, rfl⟩
          · next hsuccess =>
            rcases hopen : openDest (startByte options file) file a.fails with e | bytes
            · exact .inl ⟨_, rfl⟩
            · refine .inr (.inr ⟨response, rfl, by simpa using hsuccess, bytes, rfl, rfl⟩)

/-- The opened destination: what was there where the attempt continues it, else nothing. -/
theorem openDest_ok {options : DownloadOptions} {file : Option (List UInt8)}
    {fails : Access → Bool} {bytes : List UInt8}
    (h : openDest (startByte options file) file fails = .ok bytes) :
    bytes.length = startByte options file ∧ (0 < startByte options file → file = some bytes) := by
  unfold openDest at h
  split at h
  · next hpos =>
    cases file with
    | none => cases h
    | some old =>
      dsimp only at h
      split at h
      · cases h
      · obtain rfl : old = bytes := Except.ok.inj h
        unfold startByte at hpos ⊢
        dsimp only at hpos ⊢
        split at hpos
        · next hresume => exact ⟨by rw [if_pos hresume], fun _ => rfl⟩
        · omega
  · next hzero =>
    split at h
    · cases h
    · split at h
      · cases h
      · obtain rfl : [] = bytes := Except.ok.inj h
        refine ⟨?_, fun hpos => absurd hpos hzero⟩
        rw [List.length_nil]
        omega

/-- The request asks for the range from the first missing byte on. -/
theorem request_range {options : DownloadOptions} {start : Nat} {req : Request}
    (h : request options start = .ok req) : req.range = if 0 < start then some start else none := by
  unfold request at h
  dsimp only at h
  cases hkey : options.apiKey with
  | none =>
    rw [hkey] at h
    rw [← Except.ok.inj h]
  | some apiKey =>
    rw [hkey] at h
    dsimp only at h
    split at h
    · rw [← Except.ok.inj h]
    · cases h

/-- An honest answer with success: the content, or the rest of it where a range is asked for. -/
theorem Attempt.Honest.answer {content : List UInt8} {options : DownloadOptions}
    {file : Option (List UInt8)} {a : Attempt} (honest : a.Honest content) {response : Response}
    (hanswer : response ∈ answer options file a) (hsuccess : response.isSuccess) :
    (response.status = 200 ∧ response.Carries content) ∨
      (0 < startByte options file ∧ response.status = 206 ∧
        response.Carries (content.drop (startByte options file))) := by
  unfold Http.answer at hanswer
  split at hanswer
  · cases hanswer
  · next req hreq =>
    rcases honest req response hanswer hsuccess with h | ⟨start, hrange, hstatus, hcarries⟩
    · exact .inl h
    · rw [request_range hreq] at hrange
      split at hrange
      · next hpos =>
        obtain rfl := Option.some.inj hrange
        exact .inr ⟨hpos, hstatus, hcarries⟩
      · cases hrange

/-- The body that continues the opened destination, where the answer is the one asked for. -/
theorem Attempt.Honest.rest {content : List UInt8} {options : DownloadOptions}
    {file : Option (List UInt8)} {a : Attempt} (honest : a.Honest content)
    (resumes : Resumes options file a) {response : Response}
    (hanswer : response ∈ Http.answer options file a) (hsuccess : response.isSuccess) :
    response.Carries (content.drop (startByte options file)) := by
  rcases honest.answer hanswer hsuccess with ⟨hstatus, hcarries⟩ | ⟨-, -, hcarries⟩
  · have hzero : startByte options file = 0 := by
      by_contra hne
      have hpartial := resumes response hanswer hsuccess (Nat.pos_of_ne_zero hne)
      omega
    rw [hzero, List.drop_zero]
    exact hcarries
  · exact hcarries

/-- One attempt keeps a first part of the content. -/
theorem Partial.tryDownload {content : List UInt8} {options : DownloadOptions}
    {file : Option (List UInt8)} {a : Attempt} (h : Partial content file)
    (honest : a.Honest content) (resumes : Resumes options file a) :
    Partial content (tryDownload options file a).2 := by
  rcases tryDownload_cases options file a with
    ⟨e, heq⟩ | ⟨e, heq⟩ | ⟨response, hanswer, hsuccess, bytes, hopen, heq⟩
  · rw [heq]
    exact h
  · rw [heq]
    exact Partial.none content
  · obtain ⟨hserves, -⟩ := honest.rest resumes hanswer hsuccess
    obtain ⟨hlength, hfile⟩ := openDest_ok hopen
    have hbytes : bytes <+: content := by
      rcases Nat.eq_zero_or_pos (startByte options file) with hzero | hpos
      · rw [List.eq_nil_of_length_eq_zero (hlength.trans hzero)]
        exact List.nil_prefix
      · exact h bytes (hfile hpos)
    rw [← hlength] at hserves
    obtain ⟨more, hmore, hreceive⟩ := receive_file hserves bytes
      (progress options (startByte options file) (totalSize (startByte options file) response))
      (startByte options file)
    have hall : bytes ++ more <+: content := append_prefix hbytes hmore
    rw [heq]
    rcases hresult : receive bytes (progress options (startByte options file)
      (totalSize (startByte options file) response)) (startByte options file) response.stream with
      ⟨e | bar, written⟩
    all_goals
      rw [hresult] at hreceive
      dsimp only at hreceive
      subst hreceive
    · exact partial_some.mpr hall
    · show Partial content (flush a.flushLoses (.ok bar, bytes ++ more)).2
      unfold flush
      cases a.flushLoses with
      | none => exact partial_some.mpr hall
      | some count => exact partial_some.mpr ((List.take_prefix _ _).trans hall)

/-! ### The attempt that succeeds -/

/-- An attempt that succeeds got a successful answer and appended all of its body. -/
theorem tryDownload_ok {options : DownloadOptions} {file file' : Option (List UInt8)} {a : Attempt}
    {bar : Option ProgressBar} (h : tryDownload options file a = (.ok bar, file')) :
    ∃ response ∈ answer options file a, response.isSuccess ∧
      ∃ bytes, openDest (startByte options file) file a.fails = .ok bytes ∧
        ∀ body, Serves body response.stream → file' = some (bytes ++ body) ∧
          bar = (progress options (startByte options file)
            (totalSize (startByte options file) response)).map
              fun b => b.setPosition (startByte options file + body.length) := by
  rcases tryDownload_cases options file a with
    ⟨e, heq⟩ | ⟨e, heq⟩ | ⟨response, hanswer, hsuccess, bytes, hopen, heq⟩
  · rw [heq] at h
    cases h
  · rw [heq] at h
    cases h
  · refine ⟨response, hanswer, hsuccess, bytes, hopen, ?_⟩
    intro body hserves
    rw [heq] at h
    have hbar : ∀ b ∈ progress options (startByte options file)
        (totalSize (startByte options file) response), b.position = startByte options file := by
      intro b hb
      unfold progress at hb
      split at hb
      · rw [← Option.some.inj hb]
      · cases hb
    rcases hresult : receive bytes (progress options (startByte options file)
      (totalSize (startByte options file) response)) (startByte options file) response.stream with
      ⟨e | bar', written⟩
    · rw [hresult] at h
      cases h
    · rw [hresult] at h
      unfold flush at h
      cases hloses : a.flushLoses with
      | some count =>
        rw [hloses] at h
        cases h
      | none =>
        rw [hloses] at h
        obtain ⟨hok, hfile⟩ := Prod.mk.inj h
        have hended := receive_ok hserves hbar (by rw [hresult])
        rw [hresult] at hended
        refine ⟨?_, ?_⟩
        · rw [← hfile, ← hended.1]
        · rw [← hended.2]
          exact (Except.ok.inj hok).symm

theorem mem_progress {options : DownloadOptions} {start total : Nat} {b : ProgressBar} :
    b ∈ progress options start total ↔
      options.showProgress ∧ 0 < total ∧ b = ⟨total, start⟩ := by
  unfold progress
  split
  · next h => simp [h, eq_comm]
  · next h =>
    simp only [Option.mem_def, reduceCtorEq, false_iff]
    rintro ⟨hshow, hpos, -⟩
    exact h ⟨hshow, hpos⟩

/-- A bar that is shown has the length of the content as its total iff the bytes left were
    declared, or none was left. -/
theorem progress_exact_iff {content : List UInt8} {options : DownloadOptions} {start : Nat}
    {response : Response} (hstart : start ≤ content.length)
    (hcarries : response.Carries (content.drop start)) :
    (∀ b ∈ progress options start (totalSize start response), b.total = content.length) ↔
      (0 < start → options.showProgress → response.contentLength.isSome ∨
        start = content.length) := by
  have hlength := hcarries.2
  rw [List.length_drop] at hlength
  simp only [mem_progress]
  unfold totalSize
  cases hdeclared : response.contentLength with
  | none =>
    rw [Option.getD_none, Nat.add_zero]
    constructor
    · intro htotal hpos hshow
      right
      rw [if_pos hpos] at htotal
      exact htotal ⟨start, start⟩ ⟨hshow, hpos, rfl⟩
    · rintro h b ⟨hshow, htotal, rfl⟩
      show (if 0 < start then start else 0) = content.length
      split at htotal
      · next hpos =>
        rw [if_pos hpos]
        rcases h hpos hshow with hsome | heq
        · simp at hsome
        · exact heq
      · omega
  | some length =>
    have hlast : length = content.length - start := hlength length hdeclared
    rw [Option.getD_some]
    constructor
    · intro _ _ _
      exact .inl rfl
    · rintro _ b ⟨_, _, rfl⟩
      show (if 0 < start then start + length else length) = content.length
      split <;> omega

/-- The attempt that succeeds on a first part of the content is exact iff it is guarded. -/
theorem tryDownload_exact_iff {content : List UInt8} {options : DownloadOptions}
    {file file' : Option (List UInt8)} {a : Attempt} {bar : Option ProgressBar}
    (hpart : Partial content file) (honest : a.Honest content)
    (h : tryDownload options file a = (.ok bar, file')) :
    Exact content bar file' ↔ Guarded content options file a := by
  obtain ⟨response, hanswer, hsuccess, bytes, hopen, hbody⟩ := tryDownload_ok h
  obtain ⟨hlength, hfile⟩ := openDest_ok hopen
  have hbytes : bytes <+: content := by
    rcases Nat.eq_zero_or_pos (startByte options file) with hzero | hpos
    · rw [List.eq_nil_of_length_eq_zero (hlength.trans hzero)]
      exact List.nil_prefix
    · exact hpart bytes (hfile hpos)
  have hstart : startByte options file ≤ content.length := by
    rw [← hlength]
    exact hbytes.length_le
  have honly : ∀ r ∈ answer options file a, r = response := by
    intro r hr
    exact Option.some.inj (hr.symm.trans hanswer)
  by_cases hresumes : Resumes options file a
  · -- the rest of the content was appended: what is left to show is the total of the bar
    have hcarries := honest.rest hresumes hanswer hsuccess
    obtain ⟨hwritten, hbar⟩ := hbody _ hcarries.1
    have hall : bytes ++ content.drop (startByte options file) = content := by
      rw [← hlength]
      exact List.prefix_iff_eq_append.mp hbytes
    have hposition : startByte options file + (content.drop (startByte options file)).length =
        content.length := by
      rw [List.length_drop]
      omega
    rw [hall] at hwritten
    rw [hposition] at hbar
    have htotal := @progress_exact_iff content options _ response hstart hcarries
    constructor
    · intro hexact
      refine ⟨hresumes, ?_⟩
      intro r hr _ hpos
      rw [honly r hr]
      apply htotal.mp _ hpos
      intro b hb
      have hmem : b.setPosition content.length ∈ bar := by
        rw [hbar]
        exact Option.mem_map_of_mem _ hb
      have hfull := hexact.bar _ hmem
      exact congrArg ProgressBar.total hfull
    · intro hguarded
      refine ⟨hwritten, ?_⟩
      intro b' hb'
      rw [hbar] at hb'
      obtain ⟨b, hb, rfl⟩ := Option.map_eq_some_iff.mp hb'
      have hfull : b.total = content.length :=
        htotal.mpr (fun hpos => hguarded.2 response hanswer hsuccess hpos) b hb
      unfold ProgressBar.setPosition
      rw [hfull]
  · -- the whole content was appended to a part that is not empty
    constructor
    · intro hexact
      exfalso
      apply hresumes
      intro r hr _ hpos
      rw [honly r hr]
      rcases honest.answer hanswer hsuccess with ⟨-, hcarries⟩ | ⟨-, hstatus, -⟩
      · have hwritten := (hbody _ hcarries.1).1
        rw [hexact.file] at hwritten
        have hsizes := congrArg List.length (Option.some.inj hwritten)
        rw [List.length_append] at hsizes
        omega
      · exact hstatus
    · intro hguarded
      exact absurd hguarded.1 hresumes

/-! ### Runs -/

/-- The destination after attempts, each under its own options. -/
def leave (file : Option (List UInt8)) (attempts : List (DownloadOptions × Attempt)) :
    Option (List UInt8) :=
  attempts.foldl (fun file made => (tryDownload made.1 file made.2).2) file

/-- Every attempt that asks for a range and succeeds is answered with the range. -/
def ResumesAlong (file : Option (List UInt8)) : List (DownloadOptions × Attempt) → Prop
  | [] => True
  | made :: rest =>
    Resumes made.1 file made.2 ∧ ResumesAlong (tryDownload made.1 file made.2).2 rest

/-- The same of the attempts of a download before the one that succeeds. -/
def FailuresResume (options : DownloadOptions) (file : Option (List UInt8)) : List Attempt → Prop
  | [] => True
  | a :: rest =>
    match tryDownload options file a with
    | (.ok _, _) => True
    | (.error _, left) => Resumes options file a ∧ FailuresResume options left rest

/-- The attempt of a download that succeeds is guarded. -/
def SuccessGuarded (content : List UInt8) (options : DownloadOptions)
    (file : Option (List UInt8)) : List Attempt → Prop
  | [] => True
  | a :: rest =>
    match tryDownload options file a with
    | (.ok _, _) => Guarded content options file a
    | (.error _, left) => SuccessGuarded content options left rest

/-- Any number of attempts keeps a first part of the content. -/
theorem Partial.leave {content : List UInt8} {file : Option (List UInt8)}
    {attempts : List (DownloadOptions × Attempt)} (hpart : Partial content file)
    (honest : ∀ made ∈ attempts, made.2.Honest content) (resumes : ResumesAlong file attempts) :
    Partial content (leave file attempts) := by
  induction attempts generalizing file with
  | nil => exact hpart
  | cons made rest ih =>
    obtain ⟨hmade, hrest⟩ := resumes
    apply ih
    · exact hpart.tryDownload (honest made List.mem_cons_self) hmade
    · intro made' hmade'
      exact honest made' (List.mem_cons_of_mem _ hmade')
    · exact hrest

/-- The loop over a first part of the content, by the number of attempts. -/
theorem retry_exact_iff {content : List UInt8} {options : DownloadOptions} {attempt : Nat}
    {attempts : List Attempt} {file file' : Option (List UInt8)} {bar : Option ProgressBar}
    (hpart : Partial content file) (honest : ∀ a ∈ attempts, a.Honest content)
    (resumes : FailuresResume options file attempts)
    (h : retry options attempt file attempts = (some (.ok bar), file')) :
    Exact content bar file' ↔ SuccessGuarded content options file attempts := by
  induction attempts generalizing attempt file with
  | nil => cases h
  | cons a rest ih =>
    have honest_a : a.Honest content := honest a List.mem_cons_self
    rw [retry] at h
    unfold FailuresResume at resumes
    unfold SuccessGuarded
    rcases htry : tryDownload options file a with ⟨e | bar', left⟩
    · rw [htry] at h resumes
      dsimp only at h resumes ⊢
      obtain ⟨hresumes, hrest⟩ := resumes
      split at h
      · cases h
      · have hleft := hpart.tryDownload honest_a hresumes
        rw [htry] at hleft
        exact ih hleft (fun a' ha' => honest a' (List.mem_cons_of_mem _ ha')) hrest h
    · rw [htry] at h
      obtain ⟨hbar, rfl⟩ := Prod.mk.inj h
      obtain rfl : bar' = bar := Except.ok.inj (Option.some.inj hbar)
      exact tryDownload_exact_iff hpart honest_a htry

/-- A download over what earlier attempts left, where every earlier attempt that asked for a range
    got the range: if it succeeds, then the destination and the bar are exact iff the attempt that
    succeeds is guarded. -/
theorem exact_iff_guarded {content : List UInt8} {earlier : List (DownloadOptions × Attempt)}
    {options : DownloadOptions} {attempts : List Attempt} {file : Option (List UInt8)}
    {bar : Option ProgressBar} (honest_earlier : ∀ made ∈ earlier, made.2.Honest content)
    (honest : ∀ a ∈ attempts, a.Honest content) (resumes_earlier : ResumesAlong none earlier)
    (resumes : FailuresResume options (leave none earlier) attempts)
    (h : downloadUrlWithRetry options (leave none earlier) attempts = (some (.ok bar), file)) :
    Exact content bar file ↔ SuccessGuarded content options (leave none earlier) attempts :=
  retry_exact_iff ((Partial.none content).leave honest_earlier resumes_earlier) honest resumes h

/-- A download that breaks off after two of three bytes, then one that gets the third. -/
def brokenOff : Attempt where
  send _ := some ⟨200, some 3, [.chunk [1, 2], .readError]⟩
  fails _ := false
  flushLoses := none

def resumed : Attempt where
  send req :=
    if req.range = some 2 then some ⟨206, some 1, [.chunk [3]]⟩
    else some ⟨200, some 3, [.chunk [1, 2, 3]]⟩
  fails _ := false
  flushLoses := none

/-- The server ignores the range. -/
def restarted : Attempt where
  send _ := some ⟨200, some 3, [.chunk [1, 2, 3]]⟩
  fails _ := false
  flushLoses := none

/-- `DownloadOptions::default`. -/
def DownloadOptions.default : DownloadOptions where
  showProgress := true
  resume := true
  timeoutSecs := 300
  maxRetries := 3
  apiKey := none

theorem brokenOff_honest : brokenOff.Honest [1, 2, 3] := by
  intro req response h hsuccess
  obtain rfl := Option.some.inj h
  left
  refine ⟨rfl, ⟨by decide, trivial⟩, ?_⟩
  intro length hlength
  exact (Option.some.inj hlength).symm

theorem resumed_honest : resumed.Honest [1, 2, 3] := by
  intro req response h hsuccess
  unfold resumed at h
  dsimp only at h
  split at h
  · next hrange =>
    obtain rfl := Option.some.inj h
    right
    refine ⟨2, hrange, rfl, ⟨by decide, rfl⟩, ?_⟩
    intro length hlength
    exact (Option.some.inj hlength).symm
  · obtain rfl := Option.some.inj h
    left
    refine ⟨rfl, ⟨by decide, rfl⟩, ?_⟩
    intro length hlength
    exact (Option.some.inj hlength).symm

theorem restarted_honest : restarted.Honest [1, 2, 3] := by
  intro req response h hsuccess
  obtain rfl := Option.some.inj h
  left
  refine ⟨rfl, ⟨by decide, rfl⟩, ?_⟩
  intro length hlength
  exact (Option.some.inj hlength).symm

theorem exact_iff_guarded_resumed :
    Exact [1, 2, 3] (some ⟨3, 3⟩) (some [1, 2, 3]) ↔
      SuccessGuarded [1, 2, 3] .default (leave none [(.default, brokenOff)]) [resumed] := by
  apply exact_iff_guarded
  · intro made hmade
    obtain rfl := List.mem_singleton.mp hmade
    exact brokenOff_honest
  · intro a ha
    obtain rfl := List.mem_singleton.mp ha
    exact resumed_honest
  · refine ⟨?_, trivial⟩
    intro response _ _ hpos
    exact absurd hpos (Nat.lt_irrefl 0)
  · trivial
  · decide

/-- Two of three bytes are there, the server answers with all three, and the download succeeds with
    five. -/
theorem not_exact_whole_body :
    restarted.Honest [1, 2, 3] ∧ Partial [1, 2, 3] (some [1, 2]) ∧
      leave none [(.default, brokenOff)] = some [1, 2] ∧
      downloadUrlWithRetry .default (some [1, 2]) [restarted] =
        (some (.ok (some ⟨5, 5⟩)), some [1, 2, 1, 2, 3]) ∧
      ¬ Exact [1, 2, 3] (some ⟨5, 5⟩) (some [1, 2, 1, 2, 3]) := by
  refine ⟨restarted_honest, partial_some.mpr (by decide), by decide, by decide, ?_⟩
  intro h
  exact absurd h.file (by decide)

end Montr.Client.Http
