import Montr.Lib.Buckets
import Montr.Server.AutoResume
import Montr.Server.ScheduleTicks
import Mathlib.Data.Finset.Dedup
import Mathlib.Data.Finset.Max
import Std.Data.String.ToNat

namespace Montr.Server

open Transition
open Buckets

/-!
# The schedule that wins a tick

`resolveConflicts` chooses within a target, and the winners of different targets are dispatched one
after the other in the order in which their targets first occur among the triggered schedules.  A
client in the scope of several targets ends up with the last of them, so it gets the schedule of
highest priority only when that is the choice of its last target (`assigned_best_iff`).
-/

/-! ### The choice -/

namespace Schedule

/-- `a` comes before `b`: higher priority, then lower id. -/
def Outranks (a b : Schedule) : Prop :=
  b.priority < a.priority ∨ b.priority = a.priority ∧ a.id ≤ b.id

instance (a b : Schedule) : Decidable (a.Outranks b) := by
  unfold Outranks
  infer_instance

/-- `a.priority.cmp(&b.priority).then(b.id.cmp(&a.id))`. -/
def cmp (a b : Schedule) : Ordering := (compare a.priority b.priority).then (compare b.id a.id)

end Schedule

/-- `max_by`: of equal elements the last. -/
def maxBy {α : Type} (cmp : α → α → Ordering) : List α → Option α
  | [] => none
  | a :: rest => some (rest.foldl (fun best x => if cmp best x = .gt then best else x) a)

/-- What the player's `select_active_schedule` picks from schedules that are active. -/
def selectBest (active : List Schedule) : Option Schedule := maxBy Schedule.cmp active

section

variable {a b c : Schedule} {schedules matching : List Schedule}

theorem Schedule.Outranks.refl : a.Outranks a := .inr ⟨rfl, le_refl _⟩

theorem Schedule.Outranks.trans (h : a.Outranks b) (h' : b.Outranks c) : a.Outranks c := by
  unfold Schedule.Outranks at *
  omega

theorem Schedule.outranks_total (a b : Schedule) : a.Outranks b ∨ b.Outranks a := by
  unfold Schedule.Outranks
  omega

/-- Two schedules that outrank each other have one id. -/
theorem Schedule.Outranks.antisymm (h : a.Outranks b) (h' : b.Outranks a) : a.id = b.id := by
  unfold Schedule.Outranks at *
  omega

theorem Schedule.cmp_eq_gt : a.cmp b = .gt ↔ a.Outranks b ∧ ¬ b.Outranks a := by
  unfold Schedule.cmp Schedule.Outranks
  rcases lt_trichotomy a.priority b.priority with h | h | h
  · rw [compare_lt_iff_lt.mpr h]
    simp only [Ordering.then, reduceCtorEq, false_iff]
    omega
  · rw [compare_eq_iff_eq.mpr h]
    simp only [Ordering.then, compare_gt_iff_gt]
    omega
  · rw [compare_gt_iff_gt.mpr h]
    simp only [Ordering.then, true_iff]
    omega

/-- The choice is the schedule that outranks all others. -/
theorem selectBest_spec (h : selectBest schedules = some b) :
    b ∈ schedules ∧ ∀ x ∈ schedules, b.Outranks x := by
  cases schedules with
  | nil => exact absurd h (by simp [selectBest, maxBy])
  | cons a rest =>
    obtain rfl := Option.some.inj h
    induction rest generalizing a with
    | nil => exact ⟨List.mem_cons_self, fun x hx => by
        obtain rfl := List.mem_singleton.mp hx
        exact .refl⟩
    | cons x rest ih =>
      rw [List.foldl_cons]
      by_cases hgt : a.cmp x = .gt
      · rw [if_pos hgt]
        obtain ⟨hmem, hbest⟩ := ih a rfl
        refine ⟨?_, fun y hy => ?_⟩
        · rcases List.mem_cons.mp hmem with heq | hmem
          · rw [heq]
            exact List.mem_cons_self
          · exact List.mem_cons_of_mem _ (List.mem_cons_of_mem _ hmem)
        · rcases List.mem_cons.mp hy with rfl | hy
          · exact hbest _ List.mem_cons_self
          · rcases List.mem_cons.mp hy with rfl | hy
            · exact (hbest a List.mem_cons_self).trans (Schedule.cmp_eq_gt.mp hgt).1
            · exact hbest y (List.mem_cons_of_mem _ hy)
      · rw [if_neg hgt]
        obtain ⟨hmem, hbest⟩ := ih x rfl
        refine ⟨List.mem_cons_of_mem _ hmem, fun y hy => ?_⟩
        rcases List.mem_cons.mp hy with rfl | hy
        · -- the later one is kept unless the earlier one is greater
          have hx : x.Outranks y := by
            by_contra hnot
            have htotal := (Schedule.outranks_total y x).resolve_right hnot
            exact hgt (Schedule.cmp_eq_gt.mpr ⟨htotal, hnot⟩)
          exact (hbest x List.mem_cons_self).trans hx
        · exact hbest y hy

theorem selectBest_isSome (h : schedules ≠ []) : ∃ b, selectBest schedules = some b := by
  cases schedules with
  | nil => exact absurd rfl h
  | cons a rest => exact ⟨_, rfl⟩

/-! ### The winners of the targets -/

theorem addToBucket_eq (key : String) (s : Schedule) (bs : List (String × List Schedule)) :
    addToBucket key s bs = Buckets.add key s bs := by
  induction bs with
  | nil => rfl
  | cons head rest ih =>
    obtain ⟨k, arr⟩ := head
    unfold addToBucket Buckets.add
    rw [ih]

/-- The comparison a bucket is sorted by. -/
def bucketOrder (a b : Schedule) : Bool :=
  if b.priority ≠ a.priority then decide (b.priority < a.priority) else decide (a.id ≤ b.id)

theorem bucketOrder_iff : bucketOrder a b = true ↔ a.Outranks b := by
  unfold bucketOrder Schedule.Outranks
  by_cases hp : b.priority = a.priority
  · simp [hp]
  · simp [hp]

/-- The winner of a bucket. -/
def winnerOf (bucket : String × List Schedule) : Option Schedule :=
  (bucket.2.mergeSort bucketOrder).head?

/-- The head of a bucket after it is sorted. -/
theorem winnerOf_spec {bucket : String × List Schedule} (h : winnerOf bucket = some b) :
    b ∈ bucket.2 ∧ ∀ x ∈ bucket.2, b.Outranks x := by
  have htrans : ∀ a b c, bucketOrder a b = true → bucketOrder b c = true →
      bucketOrder a c = true := by
    intro a b c hab hbc
    rw [bucketOrder_iff] at hab hbc ⊢
    exact hab.trans hbc
  have htotal : ∀ a b, (bucketOrder a b || bucketOrder b a) = true := by
    intro a b
    simpa [bucketOrder_iff] using Schedule.outranks_total a b
  have hsorted := List.pairwise_mergeSort htrans htotal bucket.2
  unfold winnerOf at h
  cases hsort : bucket.2.mergeSort bucketOrder with
  | nil => simp [hsort] at h
  | cons head tail =>
    rw [hsort] at h hsorted
    obtain rfl : head = b := by simpa using h
    have hmem : ∀ x, x ∈ head :: tail ↔ x ∈ bucket.2 := fun x => by
      rw [← hsort, List.mem_mergeSort]
    refine ⟨(hmem head).mp List.mem_cons_self, fun x hx => ?_⟩
    rcases List.mem_cons.mp ((hmem x).mpr hx) with rfl | hx
    · exact .refl
    · exact bucketOrder_iff.mp ((List.pairwise_cons.mp hsorted).1 x hx)

theorem winnerOf_isSome {bucket : String × List Schedule} (h : bucket.2 ≠ []) :
    ∃ w, winnerOf bucket = some w := by
  rw [← Option.isSome_iff_exists, winnerOf, List.isSome_head?]
  rw [← List.length_pos_iff_ne_nil] at h ⊢
  rwa [List.length_mergeSort]

/-- The position of a schedule's target among the triggered schedules. -/
def targetIndex (matching : List Schedule) (s : Schedule) : Nat :=
  firstIndex targetKeyFor matching (targetKeyFor s)

/-- What `resolveConflicts` computes: the first of each target, the targets in the order in which
    they first occur. -/
structure Winners (matching winners : List Schedule) : Prop where
  first : ∀ w ∈ winners, w ∈ matching ∧
    ∀ v ∈ matching, targetKeyFor v = targetKeyFor w → w.Outranks v
  covers : ∀ v ∈ matching, ∃ w ∈ winners, targetKeyFor w = targetKeyFor v
  order : winners.Pairwise fun v w => targetIndex matching v < targetIndex matching w

theorem winners_eq (matching : List Schedule) :
    (resolveConflicts matching).winners.map (·.2) =
      (collect targetKeyFor matching).filterMap winnerOf := by
  have hcollect : matching.foldl (fun bs s => addToBucket (targetKeyFor s) s bs) [] =
      collect targetKeyFor matching := by
    simp only [addToBucket_eq]
    rfl
  simp only [resolveConflicts, buckets, hcollect, List.map_filterMap, List.filterMap_map,
    Function.comp_def, Option.map_map, Option.map_id']
  rfl

/-- The winner of a bucket of the triggered schedules. -/
theorem winnerOf_collect {bucket : String × List Schedule} {w : Schedule}
    (hbucket : bucket ∈ collect targetKeyFor matching) (h : winnerOf bucket = some w) :
    w ∈ matching ∧ targetKeyFor w = bucket.1 ∧
      ∀ v ∈ matching, targetKeyFor v = bucket.1 → w.Outranks v := by
  obtain ⟨hmem, hbest⟩ := winnerOf_spec h
  rw [(groups_collect targetKeyFor matching).holds bucket hbucket] at hmem hbest
  obtain ⟨hmatch, hkey⟩ := List.mem_filter.mp hmem
  refine ⟨hmatch, by simpa using hkey, fun v hv hvkey => hbest v ?_⟩
  exact List.mem_filter.mpr ⟨hv, by simpa using hvkey⟩

theorem winners_resolveConflicts (matching : List Schedule) :
    Winners matching ((resolveConflicts matching).winners.map (·.2)) := by
  have hgroups := groups_collect targetKeyFor matching
  rw [winners_eq]
  refine ⟨fun w hw => ?_, fun v hv => ?_, ?_⟩
  · obtain ⟨bucket, hbucket, hwinner⟩ := List.mem_filterMap.mp hw
    obtain ⟨hmem, hkey, hbest⟩ := winnerOf_collect hbucket hwinner
    exact ⟨hmem, fun v hv hvkey => hbest v hv (hvkey.trans hkey)⟩
  · obtain ⟨bucket, hbucket, hkey⟩ := hgroups.covers v hv
    have hne : bucket.2 ≠ [] := by
      rw [hgroups.holds bucket hbucket]
      exact List.ne_nil_of_mem (List.mem_filter.mpr ⟨hv, by simpa using hkey.symm⟩)
    obtain ⟨w, hwinner⟩ := winnerOf_isSome hne
    refine ⟨w, List.mem_filterMap.mpr ⟨bucket, hbucket, hwinner⟩, ?_⟩
    exact (winnerOf_collect hbucket hwinner).2.1.trans hkey
  · refine List.pairwise_filterMap.mpr (hgroups.order.imp_of_mem ?_)
    intro b c hb hc hlt w hw v hv
    rw [targetIndex, targetIndex, (winnerOf_collect hb hw).2.1, (winnerOf_collect hc hv).2.1]
    exact hlt

end

/-! ### Targets -/

/-- What a schedule is scoped to. -/
inductive Scope
  | client (id : String)
  | group (id : Nat)
  | global
  deriving DecidableEq, Repr

def Scope.key : Scope → String
  | client id => s!"client:{id}"
  | group id => s!"group:{id}"
  | global => "global"

def Schedule.scope (s : Schedule) : Scope :=
  match truthy s.clientId with
  | some clientId => .client clientId
  | none =>
    match s.groupId with
    | some (n + 1) => .group (n + 1)
    | _ => .global

theorem targetKeyFor_eq (s : Schedule) : targetKeyFor s = s.scope.key := by
  unfold targetKeyFor Schedule.scope
  cases truthy s.clientId with
  | some id => rfl
  | none => rcases s.groupId with _ | _ | n <;> rfl

/-- The characters of a key. -/
def Scope.keyChars : Scope → List Char
  | .client id => ['c', 'l', 'i', 'e', 'n', 't', ':'] ++ id.toList
  | .group id => ['g', 'r', 'o', 'u', 'p', ':'] ++ (Nat.repr id).toList
  | .global => ['g', 'l', 'o', 'b', 'a', 'l']

theorem Scope.key_toList (scope : Scope) : scope.key.toList = scope.keyChars := by
  cases scope with
  | client id =>
    show ("client:" ++ id).toList = _
    rw [String.toList_append]
    rfl
  | group id =>
    show ("group:" ++ Nat.repr id).toList = _
    rw [String.toList_append]
    rfl
  | global => rfl

/-- A key determines its scope. -/
theorem Scope.key_injective : Function.Injective Scope.key := by
  intro a b h
  have hlist := congrArg String.toList h
  rw [key_toList, key_toList] at hlist
  cases a <;> cases b <;> simp [keyChars] at hlist ⊢
  · exact String.toList_injective hlist
  · exact Nat.repr_injective (String.toList_injective (by simpa using hlist))

namespace AssignmentState

section

variable {cfg : ServerConfig} {s t u : AssignmentState} {id clientId now : String}
  {playlistId : Nat} {schedule : Schedule}

/-- The clients in a scope. -/
def inScope (s : AssignmentState) : Scope → List String
  | .client clientId => [clientId]
  | .group groupId => (s.getGroupMembers groupId).map (·.id)
  | .global => s.server.db.clients.map (·.id)

theorem targets_eq (s : AssignmentState) (schedule : Schedule) :
    s.targets schedule = s.inScope schedule.scope := by
  unfold targets Schedule.scope
  cases truthy schedule.clientId with
  | some id => rfl
  | none => rcases schedule.groupId with _ | _ | n <;> rfl

/-- Schedules with one target key have the same targets. -/
theorem targets_congr {a b : Schedule} (h : targetKeyFor a = targetKeyFor b) :
    s.targets a = s.targets b := by
  rw [targetKeyFor_eq, targetKeyFor_eq] at h
  rw [targets_eq, targets_eq, Scope.key_injective h]

theorem Frame.mem_targets (frame : Frame s t) :
    clientId ∈ t.targets schedule ↔ clientId ∈ s.targets schedule := by
  rw [targets_eq, targets_eq]
  cases schedule.scope with
  | client id => exact Iff.rfl
  | group groupId => exact frame.mem_getGroupMembers
  | global =>
    show clientId ∈ t.server.db.clients.map (·.id) ↔ clientId ∈ s.server.db.clients.map (·.id)
    rw [frame.ids]

/-! ### One dispatch -/

theorem row_isSome : (∃ r, s.row id = some r) ↔ id ∈ s.server.db.clients.map (·.id) := by
  show (∃ r, s.server.db.clients.find? (·.id == id) = some r) ↔ _
  rw [← Option.isSome_iff_exists, List.find?_isSome]
  simp

/-- A playlist that exists can be assigned to a client that exists. -/
theorem assign_isSome {playlist : Field Nat} (now : String)
    (hrow : id ∈ s.server.db.clients.map (·.id))
    (known : s.clientStore.allows playlist = true) :
    ∃ c t, s.assign id playlist now = some (c, t) := by
  obtain ⟨r, hr⟩ := row_isSome.mpr hrow
  have hr' : s.clientStore.getClientById id = some r := hr
  have hafter := getClientById_apply s.clientStore id id { assignedPlaylistId := playlist } now
  rw [hr', Option.map_some, if_pos (id_of_getClientById hr')] at hafter
  unfold assign persistUpdateClient
  rw [if_pos known]
  simp only [ClientStore.reread, hafter, store, Option.map_some]
  exact ⟨_, _, rfl⟩

theorem assignAndPush_isSome (cfg : ServerConfig) (now : String)
    (hrow : id ∈ s.server.db.clients.map (·.id))
    (known : s.clientStore.allows (.value playlistId) = true) :
    ∃ t, s.assignAndPush cfg id playlistId now = some t := by
  obtain ⟨c, t, hassign⟩ := assign_isSome now hrow known
  exact ⟨_, by rw [assignAndPush, hassign, Option.map_some]⟩

/-- A loop of assignments to clients that exist. -/
theorem foldlM_assign_isSome {f : AssignmentState → String → Option AssignmentState}
    {ids : List String} (hids : ∀ id ∈ ids, id ∈ s.server.db.clients.map (·.id))
    (known : s.clientStore.allows (.value playlistId) = true)
    (turn : ∀ u id, id ∈ u.server.db.clients.map (·.id) →
      u.clientStore.allows (.value playlistId) = true → ∃ v, f u id = some v ∧ Frame u v) :
    ∃ t, ids.foldlM f s = some t ∧ Frame s t := by
  refine foldlM_isSome .refl fun u id hid hframe => ?_
  obtain ⟨v, hturn, hv⟩ := turn u id (hframe.ids ▸ hids id hid) (by rw [hframe.allows, known])
  exact ⟨v, hturn, hframe.trans hv⟩

theorem assignAll_isSome (now : String) {ids : List String}
    (hids : ∀ id ∈ ids, id ∈ s.server.db.clients.map (·.id))
    (known : s.clientStore.allows (.value playlistId) = true) :
    ∃ t, s.assignAll ids playlistId now = some t := by
  have hturn : ∀ (u : AssignmentState) id, id ∈ u.server.db.clients.map (·.id) →
      u.clientStore.allows (.value playlistId) = true →
      ∃ v, (u.assign id (.value playlistId) now).map (·.2) = some v ∧ Frame u v := by
    intro u id hrow known
    obtain ⟨c, v, hassign⟩ := assign_isSome now hrow known
    obtain ⟨old, hwrites, -⟩ := assign_spec hassign
    exact ⟨v, by rw [hassign, Option.map_some], hwrites.frame⟩
  obtain ⟨t, hall, -⟩ := foldlM_assign_isSome hids known hturn
  exact ⟨t, hall⟩

/-- The client of a client-scoped schedule and the playlist of every schedule exist. -/
structure Referenced (s : AssignmentState) (schedule : Schedule) : Prop where
  playlist : s.clientStore.allows (.value schedule.playlistId) = true
  client : ∀ id, truthy schedule.clientId = some id → id ∈ s.server.db.clients.map (·.id)

theorem Frame.referenced (frame : Frame s t) (h : Referenced s schedule) :
    Referenced t schedule :=
  ⟨by rw [frame.allows, h.playlist], fun id hid => by rw [frame.ids]; exact h.client id hid⟩

theorem dispatchSchedule_isSome (cfg : ServerConfig) (now : String)
    (referenced : Referenced s schedule) :
    ∃ t, s.dispatchSchedule cfg schedule now = some t := by
  unfold dispatchSchedule
  split
  · exact ⟨_, rfl⟩
  · split
    next id hid => exact assignAndPush_isSome cfg now (referenced.client id hid) referenced.playlist
    · split
      next n _ =>
        have hmembers : ∀ id ∈ (s.getGroupMembers (n + 1)).map (·.id),
            id ∈ s.server.db.clients.map (·.id) := fun id hid => (mem_getGroupMembers.mp hid).1
        obtain ⟨t, hall⟩ := assignAll_isSome now hmembers referenced.playlist
        exact ⟨_, Option.map_eq_some_iff.mpr ⟨t, hall, rfl⟩⟩
      · have hturn : ∀ (u : AssignmentState) id, id ∈ u.server.db.clients.map (·.id) →
            u.clientStore.allows (.value schedule.playlistId) = true →
            ∃ v, u.assignAndPush cfg id schedule.playlistId now = some v ∧ Frame u v := by
          intro u id hrow known
          obtain ⟨v, hv⟩ := assignAndPush_isSome cfg now hrow known
          exact ⟨v, hv, frame_assignAndPush hv⟩
        obtain ⟨t, hall, -⟩ := foldlM_assign_isSome (fun id hid => hid) referenced.playlist hturn
        exact ⟨t, hall⟩

theorem assignedTo_push : (s.push cfg id playlistId).assignedTo clientId =
    s.assignedTo clientId := by
  unfold push
  split <;> rfl

theorem assignedTo_pushAll (ids : List String) :
    (s.pushAll cfg ids playlistId).assignedTo clientId = s.assignedTo clientId :=
  List.foldlRecOn
    (motive := fun u : AssignmentState => u.assignedTo clientId = s.assignedTo clientId) ids _ rfl
    fun _ hu _ _ => assignedTo_push.trans hu

/-- One client written and told. -/
theorem assignedTo_assignAndPush (h : s.assignAndPush cfg id playlistId now = some t) :
    t.assignedTo clientId = if clientId = id then some playlistId else s.assignedTo clientId := by
  obtain ⟨⟨new, u⟩, hassign, rfl⟩ := Option.map_eq_some_iff.mp h
  obtain ⟨old, hwrites, -, hassigned, -⟩ := assign_spec hassign
  show (u.push cfg id playlistId).assignedTo clientId = _
  rw [assignedTo_push]
  split
  next heq =>
    rw [heq, hwrites.assignedTo, hassigned]
    rfl
  next hne => exact (hwrites.sameFor hne).assignedTo

/-- What an assigning schedule does to the row of a client. -/
theorem assignedTo_dispatchSchedule (mode : schedule.interruptMode = .assign)
    (h : s.dispatchSchedule cfg schedule now = some t) :
    t.assignedTo clientId =
      if clientId ∈ s.targets schedule then some schedule.playlistId
      else s.assignedTo clientId := by
  unfold dispatchSchedule at h
  rw [if_neg (by rw [mode]; decide)] at h
  unfold targets
  split at h
  next id hid =>
    rw [assignedTo_assignAndPush h]
    simp
  next hid =>
    split at h
    next n hgroup =>
      obtain ⟨u, hall, rfl⟩ := Option.map_eq_some_iff.mp h
      rw [assignedTo_pushAll]
      split
      next hmem => exact (assignedTo_assignAll hmem hall).1
      next hmem => exact (sameFor_assignAll hmem hall).assignedTo
    next hgroup =>
      split
      next hmem =>
        refine foldlM_reaches (P := fun u => u.assignedTo clientId = some schedule.playlistId) hmem
          (fun u v hv => ?_) (fun u id v hu hv => ?_) h
        · rw [assignedTo_assignAndPush hv, if_pos rfl]
        · rw [assignedTo_assignAndPush hv, hu, ite_self]
      next hmem =>
        refine foldlM_keeps (P := fun u => u.assignedTo clientId = s.assignedTo clientId) rfl
          (fun u id v hid hu hv => ?_) h
        have hne : clientId ≠ id := fun heq => hmem (heq ▸ hid)
        rw [assignedTo_assignAndPush hv, if_neg hne, hu]

/-! ### A tick -/

/-- `evaluateSchedules`, with the rows it leaves; `none` when a dispatch throws. -/
def evaluateTick (cfg : ServerConfig) (env : ScheduleEnv) (rows : List Schedule)
    (last : LastTriggered) (tick : Int) (s : AssignmentState) (now : String) :
    Option AssignmentState :=
  (evaluateSchedules env rows last tick).dispatched.foldlM
    (fun s schedule => s.dispatchSchedule cfg schedule now) s

/-- The triggered schedules in whose scope the client is. -/
def applicable (s : AssignmentState) (clientId : String) (triggered : List Schedule) :
    List Schedule :=
  triggered.filter fun schedule => (s.targets schedule).contains clientId

/-- The target of the client that occurs last among the triggered schedules has the playlist of
    the best schedule: `w` is the first choice of that target. -/
def LastTargetAgrees (s : AssignmentState) (clientId : String) (triggered : List Schedule) :
    Prop :=
  ∃ w ∈ s.applicable clientId triggered,
    (∀ v ∈ s.applicable clientId triggered, targetKeyFor v = targetKeyFor w → w.Outranks v) ∧
    (∀ v ∈ s.applicable clientId triggered, targetIndex triggered v ≤ targetIndex triggered w) ∧
    some w.playlistId = (selectBest (s.applicable clientId triggered)).map (·.playlistId)

variable {env : ScheduleEnv} {rows triggered winners : List Schedule} {last : LastTriggered}
  {tick : Int} {w : Schedule}

theorem mem_applicable : schedule ∈ s.applicable clientId triggered ↔
    schedule ∈ triggered ∧ clientId ∈ s.targets schedule := by
  simp [applicable]

/-- Dispatching the winners: the last one with the client in its scope decides. -/
theorem assignedTo_of_last (hwinners : Winners triggered winners)
    (mode : ∀ v ∈ triggered, v.interruptMode = .assign) (hw : w ∈ winners)
    (own : clientId ∈ s.targets w)
    (latest : ∀ v ∈ winners, clientId ∈ s.targets v →
      targetIndex triggered v ≤ targetIndex triggered w)
    (h : winners.foldlM (fun s schedule => s.dispatchSchedule cfg schedule now) s = some t) :
    t.assignedTo clientId = some w.playlistId := by
  have hkeep : ∀ u v z, v ∈ winners → Frame s u → u.dispatchSchedule cfg v now = some z →
      Frame s z := fun u v z _ hframe hturn => hframe.trans (frame_dispatchSchedule hturn)
  refine foldlM_last (P := fun u => u.assignedTo clientId = some w.playlistId)
    hwinners.order hw .refl hkeep ?_ ?_ h
  · intro u z hframe hturn
    have hmode := mode w (hwinners.first w hw).1
    rw [assignedTo_dispatchSchedule hmode hturn, if_pos (hframe.mem_targets.mpr own)]
  · intro u v z hlater hv hframe hu hturn
    -- a later winner does not have the client in its scope
    have hnot : clientId ∉ s.targets v := fun hmem => by
      have := latest v hv hmem
      omega
    have hmode := mode v (hwinners.first v hv).1
    rw [assignedTo_dispatchSchedule hmode hturn,
      if_neg fun hmem => hnot (hframe.mem_targets.mp hmem), hu]

/-- The winner of the target that occurs last among those that have the client. -/
theorem exists_last_winner (hwinners : Winners triggered winners)
    (inScope : ∃ v ∈ triggered, clientId ∈ s.targets v) :
    ∃ w ∈ winners, clientId ∈ s.targets w ∧ ∀ v ∈ triggered, clientId ∈ s.targets v →
      targetIndex triggered v ≤ targetIndex triggered w := by
  obtain ⟨v, hv, hmem⟩ := inScope
  obtain ⟨m, hm, hmax⟩ := (s.applicable clientId triggered).toFinset.exists_max_image
    (targetIndex triggered) ⟨v, List.mem_toFinset.mpr (mem_applicable.mpr ⟨hv, hmem⟩)⟩
  obtain ⟨hm, hown⟩ := mem_applicable.mp (List.mem_toFinset.mp hm)
  obtain ⟨w, hw, hkey⟩ := hwinners.covers m hm
  refine ⟨w, hw, by rwa [targets_congr hkey], fun x hx hxown => ?_⟩
  have hle := hmax x (List.mem_toFinset.mpr (mem_applicable.mpr ⟨hx, hxown⟩))
  rwa [targetIndex, targetIndex, ← hkey] at hle

/-- What the condition says of the winner of the last target. -/
theorem lastTargetAgrees_iff (hwinners : Winners triggered winners)
    (distinct : (triggered.map (·.id)).Nodup) (hw : w ∈ winners)
    (own : clientId ∈ s.targets w)
    (latest : ∀ v ∈ triggered, clientId ∈ s.targets v →
      targetIndex triggered v ≤ targetIndex triggered w) :
    LastTargetAgrees s clientId triggered ↔
      some w.playlistId = (selectBest (s.applicable clientId triggered)).map (·.playlistId) := by
  obtain ⟨hmem, hbest⟩ := hwinners.first w hw
  constructor
  · rintro ⟨x, hx, hxbest, hxlatest, hagrees⟩
    obtain ⟨hxmem, hxown⟩ := mem_applicable.mp hx
    -- the two targets occur last, so they are one
    have hindex : targetIndex triggered x = targetIndex triggered w :=
      le_antisymm (latest x hxmem hxown) (hxlatest w (mem_applicable.mpr ⟨hmem, own⟩))
    have hkey : targetKeyFor x = targetKeyFor w :=
      eq_of_firstIndex ⟨x, hxmem, rfl⟩ ⟨w, hmem, rfl⟩ hindex
    have hid : x.id = w.id := (hxbest w (mem_applicable.mpr ⟨hmem, own⟩) hkey.symm).antisymm
      (hbest x hxmem hkey)
    obtain rfl : x = w := List.inj_on_of_nodup_map distinct hxmem hmem hid
    exact hagrees
  · intro hagrees
    refine ⟨w, mem_applicable.mpr ⟨hmem, own⟩, fun v hv hkey => ?_, fun v hv => ?_, hagrees⟩
    · exact hbest v (mem_applicable.mp hv).1 hkey
    · obtain ⟨hv, hvown⟩ := mem_applicable.mp hv
      exact latest v hv hvown

/-- The selected schedules are rows, and as distinct. -/
theorem selected_sublist :
    ((evaluateSchedules env rows last tick).selected).Sublist
      (findTriggering env (getEnabledSchedules rows) tick) :=
  dedupe_sublist _ _ _

theorem selected_mem (h : schedule ∈ (evaluateSchedules env rows last tick).selected) :
    schedule ∈ rows := by
  have hmem := (List.mem_filter.mp (selected_sublist.subset h)).1
  rw [getEnabledSchedules, List.mem_mergeSort] at hmem
  exact (List.mem_filter.mp hmem).1

theorem selected_nodup (env : ScheduleEnv) (last : LastTriggered) (tick : Int)
    (distinct : (rows.map (·.id)).Nodup) :
    ((evaluateSchedules env rows last tick).selected.map (·.id)).Nodup :=
  (nodup_findTriggering distinct).sublist (selected_sublist.map _)

theorem dispatched_eq (h : schedule ∈ (evaluateSchedules env rows last tick).selected) :
    (evaluateSchedules env rows last tick).dispatched =
      (resolveConflicts (evaluateSchedules env rows last tick).selected).winners.map (·.2) := by
  have hne : (evaluateSchedules env rows last tick).selected.isEmpty = false := by
    rw [List.isEmpty_eq_false_iff]
    exact List.ne_nil_of_mem h
  show (if (evaluateSchedules env rows last tick).selected.isEmpty = true then [] else _) = _
  rw [hne]
  rfl

/-- A tick over rows whose references hold does not throw. -/
theorem evaluateTick_isSome (cfg : ServerConfig) (now : String)
    (hwinners : Winners triggered winners) (referenced : ∀ v ∈ triggered, Referenced s v) :
    ∃ t, winners.foldlM (fun s schedule => s.dispatchSchedule cfg schedule now) s = some t := by
  have hturn : ∀ u v, v ∈ winners → Frame s u →
      ∃ z, u.dispatchSchedule cfg v now = some z ∧ Frame s z := by
    intro u v hv hframe
    have hreferenced := hframe.referenced (referenced v (hwinners.first v hv).1)
    obtain ⟨z, hz⟩ := dispatchSchedule_isSome cfg now hreferenced
    exact ⟨z, hz, hframe.trans (frame_dispatchSchedule hz)⟩
  obtain ⟨t, ht, -⟩ := foldlM_isSome .refl hturn
  exact ⟨t, ht⟩

end

/-- **Exactly when priority is effective.**  For every tick whose triggered schedules all assign and
    whose references hold, and every client in the scope of one of them: the tick leaves the client
    with the playlist of the schedule that `select_active_schedule` would pick exactly when the
    first choice of the client's last target has that playlist. -/
theorem assigned_best_iff (cfg : ServerConfig) (env : ScheduleEnv) {rows : List Schedule}
    (last : LastTriggered) (tick : Int) (s : AssignmentState) (now : String) {clientId : String}
    (distinct : (rows.map (·.id)).Nodup) (referenced : ∀ v ∈ rows, Referenced s v)
    (mode : ∀ v ∈ (evaluateSchedules env rows last tick).selected, v.interruptMode = .assign)
    (inScope : ∃ v ∈ (evaluateSchedules env rows last tick).selected, clientId ∈ s.targets v) :
    ∃ t best, evaluateTick cfg env rows last tick s now = some t ∧
      selectBest (s.applicable clientId (evaluateSchedules env rows last tick).selected) =
        some best ∧
      (t.assignedTo clientId = some best.playlistId ↔
        LastTargetAgrees s clientId (evaluateSchedules env rows last tick).selected) := by
  have hids := selected_nodup env last tick distinct
  have hrows : ∀ v ∈ (evaluateSchedules env rows last tick).selected, v ∈ rows :=
    fun v hv => selected_mem hv
  obtain ⟨v, hv, hown⟩ := inScope
  have hdispatched := dispatched_eq hv
  unfold evaluateTick
  rw [hdispatched]
  generalize (evaluateSchedules env rows last tick).selected = triggered at *
  have hwinners := winners_resolveConflicts triggered
  obtain ⟨t, ht⟩ := evaluateTick_isSome cfg now hwinners
    fun v hv => referenced v (hrows v hv)
  obtain ⟨best, hbest⟩ := selectBest_isSome
    (List.ne_nil_of_mem (mem_applicable.mpr ⟨hv, hown⟩))
  obtain ⟨w, hw, hwown, hlatest⟩ := exists_last_winner hwinners ⟨v, hv, hown⟩
  have hassigned := assignedTo_of_last hwinners mode hw hwown
    (fun x hx => hlatest x (hwinners.first x hx).1) ht
  refine ⟨t, best, ht, hbest, ?_⟩
  rw [lastTargetAgrees_iff hwinners hids hw hwown hlatest, hassigned, hbest, Option.map_some]

/-! ### Two targets -/

/-- A schedule at midnight that assigns playlist 8 to the client, ... -/
def lobbySchedule : Schedule :=
  { alarm with startTime := some "00:00", priority := 10, interruptMode := .assign }

/-- ... and one of lower priority that assigns playlist 9 to every client. -/
def globalSchedule : Schedule :=
  { alarm with
    id := 2, playlistId := 9, clientId := none, startTime := some "00:00", priority := 1
    interruptMode := .assign }

theorem selected_of_sorted {rows : List Schedule}
    (sorted : rows.Pairwise fun a b => b.priority ≤ a.priority)
    (enabled : ∀ v ∈ rows, v.enabled = true) (last : LastTriggered) (tick : Int) :
    (evaluateSchedules noCronEnv rows last tick).selected =
      (dedupe (noCronEnv.zone.minuteKey tick) last (findTriggering noCronEnv rows tick)).1 := by
  have hrows : getEnabledSchedules rows = rows := by
    rw [getEnabledSchedules, List.filter_eq_self.mpr enabled]
    exact List.mergeSort_of_pairwise (sorted.imp fun h => decide_eq_true h)
  simp only [evaluateSchedules, hrows]

theorem selected_lobby : (evaluateSchedules noCronEnv [lobbySchedule] (fun _ => none) 0).selected =
    [lobbySchedule] := by
  rw [selected_of_sorted (by decide) (by decide)]
  decide

theorem selected_overlap :
    (evaluateSchedules noCronEnv [lobbySchedule, globalSchedule] (fun _ => none) 0).selected =
      [lobbySchedule, globalSchedule] := by
  rw [selected_of_sorted (by decide) (by decide)]
  decide

/-- Their targets differ, so both are dispatched. -/
theorem dispatched_overlap :
    (evaluateSchedules noCronEnv [lobbySchedule, globalSchedule] (fun _ => none) 0).dispatched =
      [lobbySchedule, globalSchedule] := by
  have hmem : lobbySchedule ∈ (evaluateSchedules noCronEnv [lobbySchedule, globalSchedule]
      (fun _ => none) 0).selected := by
    rw [selected_overlap]
    exact List.mem_cons_self
  have hcollect : collect targetKeyFor [lobbySchedule, globalSchedule] =
      [("client:lobby", [lobbySchedule]), ("global", [globalSchedule])] := by decide
  rw [dispatched_eq hmem, selected_overlap, winners_eq]
  simp [hcollect, winnerOf]

theorem referenced_hall :
    ∀ v ∈ [lobbySchedule, globalSchedule], Referenced hallAssignment v := by
  intro v hv
  rcases List.mem_cons.mp hv with rfl | hv
  · refine ⟨rfl, fun id hid => ?_⟩
    obtain rfl : "lobby" = id :=
      Option.some.inj ((show truthy (some "lobby") = some "lobby" from rfl).symm.trans hid)
    decide
  · obtain rfl := List.mem_singleton.mp hv
    exact ⟨rfl, fun id hid => absurd (show none = some id from hid) (by simp)⟩

/-- One schedule alone is effective. -/
theorem assigned_best_iff_lobby :
    ∃ t best, evaluateTick ServerState.lobbyConfig noCronEnv [lobbySchedule] (fun _ => none) 0
        hallAssignment "t1" = some t ∧
      selectBest (hallAssignment.applicable "lobby"
        (evaluateSchedules noCronEnv [lobbySchedule] (fun _ => none) 0).selected) = some best ∧
      (t.assignedTo "lobby" = some best.playlistId ↔
        LastTargetAgrees hallAssignment "lobby"
          (evaluateSchedules noCronEnv [lobbySchedule] (fun _ => none) 0).selected) := by
  refine assigned_best_iff ServerState.lobbyConfig noCronEnv (fun _ => none) 0 hallAssignment "t1"
    (by decide) (fun v hv => referenced_hall v ?_) ?_ ?_
  · exact List.mem_cons.mpr (.inl (List.mem_singleton.mp hv))
  · rw [selected_lobby]
    decide
  · rw [selected_lobby]
    exact ⟨lobbySchedule, List.mem_singleton.mpr rfl, by decide⟩

/-- **Counterexample.** The client's own schedule has priority 10 and playlist 8, the global one
    priority 1 and playlist 9; both trigger, and the client ends up with playlist 9. -/
theorem not_best_overlap :
    (evaluateSchedules noCronEnv [lobbySchedule, globalSchedule] (fun _ => none) 0).selected =
        [lobbySchedule, globalSchedule] ∧
      selectBest (hallAssignment.applicable "lobby" [lobbySchedule, globalSchedule]) =
        some lobbySchedule ∧
      lobbySchedule.playlistId = 8 ∧
      ∃ t, evaluateTick ServerState.lobbyConfig noCronEnv [lobbySchedule, globalSchedule]
          (fun _ => none) 0 hallAssignment "t1" = some t ∧ t.assignedTo "lobby" = some 9 := by
  refine ⟨selected_overlap, by decide, rfl, ?_⟩
  unfold evaluateTick
  rw [dispatched_overlap]
  exact ⟨_, rfl, by decide⟩

end AssignmentState

end Montr.Server
