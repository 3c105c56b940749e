import Montr.Server.AssignmentTurns

namespace Montr.Server

open Transition

/-!
# Priorities and interrupts

The operations of `client.service.ts` on the list of playlists of a client, with its interrupts and
resumes.  `resolveActivePlaylist` writes the highest priority into the row and `interrupt` saves
what the row had.

* `Highest` — the playlist of an assignment with the highest priority;
* `Prioritised` — the row has it, or the playlist of the interrupt;
* `Undisturbed` — the list is left alone during an interrupt, and there is something to save;
* `prioritised_of_undisturbed` — every run of such operations.
-/

inductive PriorityOperation
  | addPlaylistAssignment (clientId : String) (playlistId priority : Nat)
  | removePlaylistAssignment (clientId : String) (playlistId : Nat)
  | updatePlaylistPriority (clientId : String) (playlistId priority : Nat)
  | interruptWithPlaylist (clientId : String) (playlistId : Nat)
  | resumeFromInterrupt (clientId : String)
  deriving DecidableEq, Repr

/-- The route that calls it. -/
def PriorityOperation.route : PriorityOperation → AssignmentState.Operation
  | addPlaylistAssignment clientId playlistId priority =>
    .postClientPlaylist clientId playlistId priority
  | removePlaylistAssignment clientId playlistId => .deleteClientPlaylist clientId playlistId
  | updatePlaylistPriority clientId playlistId priority =>
    .putClientPlaylist clientId playlistId priority
  | interruptWithPlaylist clientId playlistId => .interrupt clientId playlistId
  | resumeFromInterrupt clientId => .resume clientId

/-- The state, and the playlist that the client is interrupted with. -/
structure PriorityRun where
  state : AssignmentState
  /-- there for statements only -/
  interruptedWith : Option Nat

namespace PriorityRun

def step (cfg : ServerConfig) (clientId : String) (r : PriorityRun)
    (call : PriorityOperation × String) : Option PriorityRun :=
  (r.state.step cfg ⟨call.1.route, call.2⟩).map fun s =>
    { state := s
      interruptedWith :=
        match call.1 with
        | .interruptWithPlaylist id playlistId =>
          if id = clientId then some playlistId else r.interruptedWith
        | .resumeFromInterrupt id => if id = clientId then none else r.interruptedWith
        | _ => r.interruptedWith }

end PriorityRun

namespace AssignmentState

/-- The playlist of an assignment with the highest priority, `null` without assignments. -/
def Highest (s : AssignmentState) (clientId : String) : Field Nat → Prop
  | .value playlistId => ∃ r ∈ s.clientPlaylists, r.clientId = clientId ∧
      r.playlistId = playlistId ∧
      ∀ r' ∈ s.clientPlaylists, r'.clientId = clientId → r'.priority ≤ r.priority
  | .null => ∀ r ∈ s.clientPlaylists, r.clientId ≠ clientId
  | .undefined => False

end AssignmentState

namespace PriorityRun

/-- **The row has the highest priority**, or the playlist that interrupts it. -/
def Prioritised (clientId : String) (r : PriorityRun) : Prop :=
  ∀ c, r.state.row clientId = some c →
    match r.interruptedWith with
    | none => c.interruptedFromPlaylistId = .null ∧
        r.state.Highest clientId c.assignedPlaylistId
    | some playlistId => c.interruptedFromPlaylistId ≠ .null ∧
        c.assignedPlaylistId = .value playlistId

/-- The list of the client is not changed while it is interrupted, and it is interrupted only when
    it has a playlist to go back to. -/
def Undisturbed (clientId : String) (r : PriorityRun) (call : PriorityOperation × String) : Prop :=
  ∀ c, r.state.row clientId = some c →
    match call.1 with
    | .addPlaylistAssignment id _ _ => id = clientId → c.interruptedFromPlaylistId = .null
    | .removePlaylistAssignment id _ => id = clientId → c.interruptedFromPlaylistId = .null
    | .updatePlaylistPriority id _ _ => id = clientId → c.interruptedFromPlaylistId = .null
    | .interruptWithPlaylist id _ => id = clientId → c.assignedPlaylistId ≠ .null
    | .resumeFromInterrupt _ => True

end PriorityRun

namespace AssignmentState

section

variable {cfg : ServerConfig} {s t : AssignmentState} {id clientId now : String}
  {playlist : Field Nat}

/-! ### The highest priority -/

/-- `ORDER BY priority DESC`. -/
theorem pairwise_getClientPlaylists (s : AssignmentState) (clientId : String) :
    (s.getClientPlaylists clientId).Pairwise fun a b => b.priority ≤ a.priority := by
  have htrans : ∀ a b c : ClientPlaylist, decide (b.priority ≤ a.priority) = true →
      decide (c.priority ≤ b.priority) = true → decide (c.priority ≤ a.priority) = true := by
    simp only [decide_eq_true_eq]
    omega
  have htotal : ∀ a b : ClientPlaylist,
      (decide (b.priority ≤ a.priority) || decide (a.priority ≤ b.priority)) = true := by
    simp only [Bool.or_eq_true, decide_eq_true_eq]
    omega
  exact (List.pairwise_mergeSort htrans htotal _).imp of_decide_eq_true

/-- What `resolveActivePlaylist` writes. -/
theorem highest_activePlaylist (stored : Stored s) :
    s.Highest clientId (s.activePlaylist clientId) := by
  have hlisted : ∀ r ∈ s.clientPlaylists, r.clientId = clientId →
      r ∈ s.getClientPlaylists clientId := by
    intro r hr hid
    rw [getClientPlaylists, List.mem_mergeSort]
    exact List.mem_filter.mpr ⟨hr, by simp [hid, stored.references r hr]⟩
  have hsorted := pairwise_getClientPlaylists s clientId
  unfold activePlaylist
  split
  next active rest hlist =>
    have hactive : active ∈ s.getClientPlaylists clientId := by simp [hlist]
    rw [getClientPlaylists, List.mem_mergeSort, List.mem_filter] at hactive
    refine ⟨active, hactive.1, by simpa using (Bool.and_eq_true_iff.mp hactive.2).1, rfl, ?_⟩
    intro r hr hid
    have hmem := hlisted r hr hid
    rw [hlist] at hmem hsorted
    obtain rfl | hmem := List.mem_cons.mp hmem
    · exact Nat.le_refl _
    · exact (List.pairwise_cons.mp hsorted).1 r hmem
  next hlist =>
    intro r hr hid
    exact absurd (hlisted r hr hid) (by simp [hlist])

theorem Highest.ne_undefined (h : s.Highest clientId playlist) : playlist ≠ .undefined := by
  rintro rfl
  exact h

/-- An uninterrupted client goes back to the playlist that it has. -/
theorem savedFrom_of_null {old : Client} (saved : old.interruptedFromPlaylistId = .null)
    (assigned : old.assignedPlaylistId ≠ .undefined) :
    savedFrom old = old.assignedPlaylistId := by
  rw [savedFrom, saved]
  cases hassigned : old.assignedPlaylistId with
  | undefined => exact absurd hassigned assigned
  | null => rfl
  | value playlistId => rfl

/-- Another interrupt saves nothing new. -/
theorem savedFrom_of_ne_null {old : Client} (saved : old.interruptedFromPlaylistId ≠ .null)
    (typed : old.interruptedFromPlaylistId ≠ .undefined) :
    savedFrom old = old.interruptedFromPlaylistId := by
  rw [savedFrom]
  cases hsaved : old.interruptedFromPlaylistId with
  | undefined => exact absurd hsaved typed
  | null => exact absurd hsaved saved
  | value playlistId => rfl

/-- Only the rows of the client count. -/
theorem Highest.of_rows (h : s.Highest clientId playlist)
    (rows : ∀ r : ClientPlaylist, r.clientId = clientId →
      (r ∈ t.clientPlaylists ↔ r ∈ s.clientPlaylists)) : t.Highest clientId playlist := by
  cases playlist with
  | undefined => exact h
  | null =>
    intro r hr hid
    exact h r ((rows r hid).mp hr) hid
  | value playlistId =>
    obtain ⟨r, hr, hid, hplaylist, hmax⟩ := h
    exact ⟨r, (rows r hid).mpr hr, hid, hplaylist,
      fun r' hr' hid' => hmax r' ((rows r' hid').mp hr') hid'⟩

/-! ### The row after an operation -/

theorem row_pushAssigned : (s.pushAssigned cfg id playlist).row clientId = s.row clientId := by
  unfold pushAssigned push
  split
  · split
    · exact send_row ..
    · rfl
  · rfl

/-- The row of the client after a change of its list. -/
theorem resolveAndPush_row {lists : List ClientPlaylist}
    (h : resolveAndPush cfg { s with clientPlaylists := lists } id now = some t) :
    ∃ old new, s.row id = some old ∧ t.row id = some new ∧
      new.assignedPlaylistId = activePlaylist { s with clientPlaylists := lists } id ∧
      new.interruptedFromPlaylistId = old.interruptedFromPlaylistId := by
  obtain ⟨old, new, u, hwrites, -, hassigned, hsaved, rfl⟩ := resolveAndPush_spec h
  exact ⟨old, new, hwrites.before, row_pushAssigned.trans hwrites.after, hassigned, hsaved⟩

theorem interruptRoute_row {playlistId : Nat}
    (h : s.interruptRoute cfg id playlistId now = some t) :
    ∃ old new, s.row id = some old ∧ t.row id = some new ∧
      new.assignedPlaylistId = .value playlistId ∧
      new.interruptedFromPlaylistId = savedFrom old := by
  obtain ⟨⟨new, u⟩, hinterrupt, rfl⟩ := Option.map_eq_some_iff.mp h
  obtain ⟨old, hwrites, -, hassigned, hsaved⟩ := interrupt_spec hinterrupt
  refine ⟨old, new, hwrites.before, ?_, hassigned, hsaved⟩
  show (if u.isConnected id = true then _ else u : AssignmentState).row id = _
  split
  · unfold sendPlaylistInterrupt
    split
    · exact (send_row ..).trans hwrites.after
    · exact hwrites.after
  · exact hwrites.after

theorem resumeRoute_row (h : s.resumeRoute cfg id now = some t) :
    ∃ old new, s.row id = some old ∧ t.row id = some new ∧
      old.interruptedFromPlaylistId ≠ .null ∧
      new.assignedPlaylistId = old.interruptedFromPlaylistId.orKeep old.assignedPlaylistId ∧
      new.interruptedFromPlaylistId = .null := by
  unfold resumeRoute at h
  split at h
  · exact absurd h (by simp)
  obtain ⟨⟨new, u⟩, hresume, rfl⟩ := Option.map_eq_some_iff.mp h
  obtain ⟨old, hwrites, hinterrupted, -, hassigned, hsaved⟩ := resume_spec hresume
  refine ⟨old, new, hwrites.before, ?_, hinterrupted, hassigned, hsaved⟩
  show (if u.isConnected id = true then _ else u : AssignmentState).row id = _
  split
  · unfold sendPlaylistResume
    split
    · split
      · exact (send_row ..).trans hwrites.after
      · exact hwrites.after
    · exact (send_row ..).trans hwrites.after
  · exact hwrites.after

end

end AssignmentState

namespace PriorityRun

open AssignmentState

section

variable {cfg : ServerConfig} {clientId now : String} {r r' : PriorityRun}
  {call : PriorityOperation × String}

/-! ### One operation -/

/-- The invariant: what an interrupt saved still has the highest priority. -/
structure Ready (clientId : String) (r : PriorityRun) : Prop where
  stored : Stored r.state
  row : ∀ c, r.state.row clientId = some c →
    match r.interruptedWith with
    | none => c.interruptedFromPlaylistId = .null ∧
        r.state.Highest clientId c.assignedPlaylistId
    | some playlistId => c.interruptedFromPlaylistId ≠ .null ∧
        r.state.Highest clientId c.interruptedFromPlaylistId ∧
        c.assignedPlaylistId = .value playlistId

theorem Ready.prioritised (ready : Ready clientId r) : Prioritised clientId r := by
  intro c hc
  have hrow := ready.row c hc
  cases hmode : r.interruptedWith with
  | none =>
    rw [hmode] at hrow
    exact hrow
  | some playlistId =>
    rw [hmode] at hrow
    exact ⟨hrow.1, hrow.2.2⟩

/-- An operation on another client, if it changes no list but that client's. -/
theorem Ready.of_same {t : AssignmentState} (ready : Ready clientId r) (stored : Stored t)
    (same : SameFor clientId r.state t)
    (rows : ∀ row : ClientPlaylist, row.clientId = clientId →
      (row ∈ t.clientPlaylists ↔ row ∈ r.state.clientPlaylists)) :
    Ready clientId ⟨t, r.interruptedWith⟩ := by
  refine ⟨stored, fun c hc => ?_⟩
  have hrow := ready.row c (same.row ▸ hc)
  show match r.interruptedWith with | none => _ | some _ => _
  cases hmode : r.interruptedWith with
  | none =>
    rw [hmode] at hrow
    exact ⟨hrow.1, hrow.2.of_rows rows⟩
  | some playlistId =>
    rw [hmode] at hrow
    exact ⟨hrow.1, hrow.2.1.of_rows rows, hrow.2.2⟩

/-- A change of a list: when it is the client's own, the client is not interrupted. -/
theorem Ready.of_lists {id : String} {lists : List ClientPlaylist} {t : AssignmentState}
    (ready : Ready clientId r) (stored : Stored { r.state with clientPlaylists := lists })
    (undisturbed : ∀ c, r.state.row clientId = some c → id = clientId →
      c.interruptedFromPlaylistId = .null)
    (others : ∀ row : ClientPlaylist, row.clientId ≠ id →
      (row ∈ lists ↔ row ∈ r.state.clientPlaylists))
    (h : resolveAndPush cfg { r.state with clientPlaylists := lists } id now = some t) :
    Ready clientId ⟨t, r.interruptedWith⟩ := by
  have hframe := frame_resolveAndPush h
  have hstored := hframe.stored stored
  by_cases hid : clientId = id
  · subst hid
    obtain ⟨old, new, hold, hnew, hassigned, hsaved⟩ := resolveAndPush_row h
    have hnull := undisturbed old hold rfl
    have hrow := ready.row old hold
    refine ⟨hstored, fun c hc => ?_⟩
    obtain rfl := Option.some.inj (hnew.symm.trans hc)
    show match r.interruptedWith with | none => _ | some _ => _
    cases hmode : r.interruptedWith with
    | none =>
      refine ⟨hsaved.trans hnull, ?_⟩
      rw [hassigned]
      exact (highest_activePlaylist stored).of_rows fun row _ => by rw [hframe.lists]
    | some playlistId =>
      rw [hmode] at hrow
      exact absurd hnull hrow.1
  · refine ready.of_same hstored (sameFor_of_lists lists hid h) fun row hrow => ?_
    rw [hframe.lists]
    exact others row fun heq => hid (hrow.symm.trans heq)

theorem Ready.interrupt {id : String} {playlistId : Nat} {t : AssignmentState}
    (ready : Ready clientId r)
    (undisturbed : ∀ c, r.state.row clientId = some c → id = clientId →
      c.assignedPlaylistId ≠ .null)
    (h : r.state.interruptRoute cfg id playlistId now = some t) :
    Ready clientId ⟨t, if id = clientId then some playlistId else r.interruptedWith⟩ := by
  have hframe := frame_interruptRoute h
  have hstored := hframe.stored ready.stored
  by_cases hid : id = clientId
  · subst hid
    obtain ⟨old, new, hold, hnew, hassigned, hsaved⟩ := interruptRoute_row h
    have hrow := ready.row old hold
    have hassignable := undisturbed old hold rfl
    rw [if_pos rfl]
    refine ⟨hstored, fun c hc => ?_⟩
    obtain rfl := Option.some.inj (hnew.symm.trans hc)
    -- what is saved is the row's playlist, or what an earlier interrupt saved
    have hkept : new.interruptedFromPlaylistId ≠ .null ∧
        r.state.Highest id new.interruptedFromPlaylistId := by
      rw [hsaved]
      cases hmode : r.interruptedWith with
      | none =>
        rw [hmode] at hrow
        rw [savedFrom_of_null hrow.1 hrow.2.ne_undefined]
        exact ⟨hassignable, hrow.2⟩
      | some p =>
        rw [hmode] at hrow
        rw [savedFrom_of_ne_null hrow.1 hrow.2.1.ne_undefined]
        exact ⟨hrow.1, hrow.2.1⟩
    exact ⟨hkept.1, hkept.2.of_rows fun row _ => by rw [hframe.lists], hassigned⟩
  · rw [if_neg hid]
    exact ready.of_same hstored (sameFor_interruptRoute (Ne.symm hid) h)
      fun row _ => by rw [hframe.lists]

theorem Ready.resume {id : String} {t : AssignmentState} (ready : Ready clientId r)
    (h : r.state.resumeRoute cfg id now = some t) :
    Ready clientId ⟨t, if id = clientId then none else r.interruptedWith⟩ := by
  have hframe := frame_resumeRoute h
  have hstored := hframe.stored ready.stored
  by_cases hid : id = clientId
  · subst hid
    obtain ⟨old, new, hold, hnew, hinterrupted, hassigned, hsaved⟩ := resumeRoute_row h
    have hrow := ready.row old hold
    rw [if_pos rfl]
    refine ⟨hstored, fun c hc => ?_⟩
    obtain rfl := Option.some.inj (hnew.symm.trans hc)
    cases hmode : r.interruptedWith with
    | none =>
      rw [hmode] at hrow
      exact absurd hrow.1 hinterrupted
    | some p =>
      rw [hmode] at hrow
      have hback : new.assignedPlaylistId = old.interruptedFromPlaylistId := by
        rw [hassigned]
        cases hfrom : old.interruptedFromPlaylistId with
        | undefined => exact absurd hfrom hrow.2.1.ne_undefined
        | null => rfl
        | value p => rfl
      refine ⟨hsaved, ?_⟩
      show t.Highest id new.assignedPlaylistId
      rw [hback]
      exact hrow.2.1.of_rows fun row _ => by rw [hframe.lists]
  · rw [if_neg hid]
    exact ready.of_same hstored (sameFor_resumeRoute (Ne.symm hid) h)
      fun row _ => by rw [hframe.lists]

/-- Every operation that leaves an interrupt alone keeps the invariant. -/
theorem ready_step (ready : Ready clientId r) (undisturbed : Undisturbed clientId r call)
    (h : step cfg clientId r call = some r') : Ready clientId r' := by
  obtain ⟨t, hstep, rfl⟩ := Option.map_eq_some_iff.mp h
  obtain ⟨operation, now⟩ := call
  cases operation with
  | addPlaylistAssignment id playlistId priority =>
    obtain ⟨hknown, hresolve⟩ := postClientPlaylist_spec hstep
    refine ready.of_lists (ready.stored.append hknown) undisturbed (fun row hrow => ?_) hresolve
    rw [List.mem_append, List.mem_singleton]
    exact or_iff_left fun heq => hrow (heq ▸ rfl)
  | removePlaylistAssignment id playlistId =>
    refine ready.of_lists ready.stored.without undisturbed (fun row hrow => ?_)
      (deleteClientPlaylist_spec hstep)
    rw [List.mem_filter]
    exact and_iff_left (by simp [hrow])
  | updatePlaylistPriority id playlistId priority =>
    refine ready.of_lists (ready.stored.withPriority priority) undisturbed (fun row hrow => ?_)
      (putClientPlaylist_spec hstep).2
    -- a row of another client is not rewritten
    have hother : ∀ row' : ClientPlaylist,
        (if row'.clientId == id && row'.playlistId == playlistId then
          { row' with priority := priority } else row') = row ↔ row' = row := by
      intro row'
      split
      next hself =>
        have hid : row'.clientId = id := by simpa using (Bool.and_eq_true_iff.mp hself).1
        refine iff_of_false (fun heq => hrow ?_) fun heq => hrow (heq ▸ hid)
        exact heq ▸ hid
      next => exact Iff.rfl
    rw [List.mem_map]
    simp only [hother, exists_eq_right]
  | interruptWithPlaylist id playlistId => exact ready.interrupt undisturbed hstep
  | resumeFromInterrupt id => exact ready.resume hstep

/-- **Priorities and interrupts.** After every run of additions, removals, new priorities,
    interrupts and resumes that leaves the list of an interrupted client alone, the row has an
    assignment with the highest priority, or the playlist of the interrupt. -/
theorem prioritised_of_undisturbed {s : AssignmentState} {calls : List (PriorityOperation × String)}
    (stored : Stored s) (start : Prioritised clientId ⟨s, none⟩)
    (run : Guarded (step cfg clientId) (Undisturbed clientId) ⟨s, none⟩ calls r) :
    Prioritised clientId r :=
  (run.invariant ⟨stored, start⟩ fun _ _ _ ready undisturbed h =>
    ready_step ready undisturbed h).prioritised

end

/-! ### An assignment removed during an interrupt -/

theorem prioritised_lobby : Prioritised "lobby" ⟨lobbyAssignment, none⟩ := by
  intro c hc
  obtain rfl := Option.some.inj hc
  refine ⟨rfl, ⟨"lobby", 1, 50⟩, List.mem_singleton.mpr rfl, rfl, rfl, fun r' hr' _ => ?_⟩
  obtain rfl := List.mem_singleton.mp hr'
  exact Nat.le_refl _

/-- The lobby is interrupted and resumed. -/
theorem prioritised_of_undisturbed_lobby :
    ∃ r, exec (step ServerState.lobbyConfig "lobby") ⟨lobbyAssignment, none⟩
        [(.interruptWithPlaylist "lobby" 1, "t1"), (.resumeFromInterrupt "lobby", "t2")] = some r ∧
      Prioritised "lobby" r := by
  refine ⟨_, rfl, ?_⟩
  apply prioritised_of_undisturbed stored_lobbyAssignment prioritised_lobby
  refine Guarded.cons (a := (.interruptWithPlaylist "lobby" 1, "t1")) ?_ rfl
    (.cons (a := (.resumeFromInterrupt "lobby", "t2")) ?_ rfl .nil)
  · intro c hc
    obtain rfl := Option.some.inj hc
    exact fun _ => by simp
  · exact fun _ _ => trivial

/-- What a run ends with: the interrupt, the playlist of the row and the list. -/
def observed (r : PriorityRun) : Option Nat × Option (Field Nat) × List ClientPlaylist :=
  (r.interruptedWith, (r.state.row "lobby").map (·.assignedPlaylistId), r.state.clientPlaylists)

/-- **Counterexample.** The only assignment is removed during an interrupt: the playlist of the
    interrupt is gone at once, and the resume brings the removed one back. -/
theorem not_prioritised_removed :
    Stored lobbyAssignment ∧ Prioritised "lobby" ⟨lobbyAssignment, none⟩ ∧
    (∃ r, exec (step ServerState.lobbyConfig "lobby") ⟨lobbyAssignment, none⟩
        [(.interruptWithPlaylist "lobby" 1, "t1"), (.removePlaylistAssignment "lobby" 1, "t2")] =
          some r ∧ observed r = (some 1, some .null, []) ∧ ¬ Prioritised "lobby" r) ∧
    ∃ r, exec (step ServerState.lobbyConfig "lobby") ⟨lobbyAssignment, none⟩
        [(.interruptWithPlaylist "lobby" 1, "t1"), (.removePlaylistAssignment "lobby" 1, "t2"),
          (.resumeFromInterrupt "lobby", "t3")] = some r ∧
        observed r = (none, some (.value 1), []) ∧ ¬ Prioritised "lobby" r := by
  have hinterrupted : (exec (step ServerState.lobbyConfig "lobby") ⟨lobbyAssignment, none⟩
      [(.interruptWithPlaylist "lobby" 1, "t1"), (.removePlaylistAssignment "lobby" 1, "t2")]).map
        observed = some (some 1, some .null, []) := by decide +kernel
  have hresumed : (exec (step ServerState.lobbyConfig "lobby") ⟨lobbyAssignment, none⟩
      [(.interruptWithPlaylist "lobby" 1, "t1"), (.removePlaylistAssignment "lobby" 1, "t2"),
        (.resumeFromInterrupt "lobby", "t3")]).map observed =
          some (none, some (.value 1), []) := by decide +kernel
  refine ⟨stored_lobbyAssignment, prioritised_lobby, ?_, ?_⟩
  · obtain ⟨r, hrun, hobserved⟩ := Option.map_eq_some_iff.mp hinterrupted
    refine ⟨r, hrun, hobserved, fun prioritised => ?_⟩
    obtain ⟨hmode, hrest⟩ := Prod.mk.inj hobserved
    obtain ⟨c, hc, hassigned⟩ := Option.map_eq_some_iff.mp (Prod.mk.inj hrest).1
    have hrow := prioritised c hc
    rw [hmode] at hrow
    exact absurd (hassigned.symm.trans hrow.2) (by simp)
  · obtain ⟨r, hrun, hobserved⟩ := Option.map_eq_some_iff.mp hresumed
    refine ⟨r, hrun, hobserved, fun prioritised => ?_⟩
    obtain ⟨hmode, hrest⟩ := Prod.mk.inj hobserved
    obtain ⟨hrow, hlist⟩ := Prod.mk.inj hrest
    obtain ⟨c, hc, hassigned⟩ := Option.map_eq_some_iff.mp hrow
    have hrow := prioritised c hc
    rw [hmode, hassigned] at hrow
    obtain ⟨-, row, hmem, -⟩ := hrow
    exact absurd (hlist ▸ hmem) List.not_mem_nil

end PriorityRun

end Montr.Server
