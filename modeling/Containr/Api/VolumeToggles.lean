import Containr.Api.SharedMounts

/-!
# Volumes that switch sides

What `plan`, `apply` and `undo` of `shared_mounts.rs` do to the contents of the volumes. The
disk after some migrations is the disk before the update, patched: a move patches its two
directories, a copy the private one. Undoing a move takes its patches back; the patch of a copy
stays, whatever follows it.
-/

namespace Containr.Api.SharedMounts

open Containr.Effect Containr.Effect.Program Containr.Api.Services
open Containr.Patches (Patched relocate)

def switchVolumes (server : Server) (app : App) (previous updated : ContainerService) :
    Handler Updated := do
  let migrations ← planMounts server app.id previous updated.mounts
  let moved ← applyMigrations [] migrations
  let now ← utcNow
  let edited := { app with updatedAt := now }
  saveUpdated edited moved
  return ⟨edited, previous, updated, moved⟩

def settleUpdate (server : Server) (userId serviceId : Uuid) (request : UpdateServiceRequest) :
    Handler (App × ContainerService × ContainerService) := do
  let (current, previousService) ← resolveOwnedAppServiceRecord userId serviceId
  let settled ← updateAppSettings request current
  let services ← updatedServices server userId serviceId request.service settled
  let edited := { settled with services := services }
  ensure (!(edited.requiresSourceCheckout && Text.blank edited.githubUrl &&
      !Text.blank current.githubUrl))
    (badRequest "github_url is required when a service needs a source build")
  let some updatedService := lookup (·.id) serviceId services | throw internalError
  validateApp server edited
  return (edited, previousService, updatedService)

theorem update_service_eq (server : Server) (userId serviceId : Uuid)
    (request : UpdateServiceRequest) :
    updateService server userId serviceId request = (do
      let (app, previous, updated) ← settleUpdate server userId serviceId request
      switchVolumes server app previous updated) := by
  unfold updateService prepareUpdate settleUpdate switchVolumes
  simp only [LawfulMonad.bind_assoc]
  apply bind_congr
  intro resolved
  apply bind_congr
  intro settled
  apply bind_congr
  intro services
  apply bind_congr
  intro needed
  cases lookup (·.id) serviceId services with
  | none => rfl
  | some updated =>
      simp only [LawfulMonad.bind_assoc, LawfulMonad.pure_bind]

/-- What the plan does about a volume that switches sides, from what it takes for empty. -/
def decision (listed : String → Bool) (isShared : Bool) (own shared : String) :
    List MountMigration :=
  if isShared then
    if listed own then [] else [.moveToShared own shared]
  else if listed own && !listed shared then [.copyFromShared shared own]
  else []

/-- Both directories of a volume that gets shared are taken for full. -/
def blocked (listed : String → Bool) (isShared : Bool) (own shared : String) : Bool :=
  isShared && !listed own && !listed shared

/-- The plan changes nothing. It fails for a call that failed or for a conflict. -/
def Decided (listed : String → Bool) (isShared : Bool) (own shared : String) (before : Volumes) :
    Except ApiError (List MountMigration) → Volumes → Prop
  | .ok planned, after => after = before ∧ planned = decision listed isShared own shared ∧
      blocked listed isShared own shared = false
  | .error _, after => after = before.noted false ∨
      after = before ∧ blocked listed isShared own shared = true

theorem is_empty_dir_bind {broken : String → Bool} {Value : Type} {continuation : Bool → Handler Value}
    {post : Except ApiError Value → Volumes → Prop} (path : String) (before : Volumes)
    (refused : ∀ error, post (.error error) (before.noted false))
    (reads : (continuation (before.disk.listedEmpty broken path)).run.Ensures
      (Volumes.machine broken).can post before) :
    (isEmptyDir path >>= continuation).run.Ensures (Volumes.machine broken).can post before := by
  apply (Volumes.is_empty_dir_ensures path before).run_bind
  intro result after listed
  cases result with
  | error error =>
      rw [listed]
      exact refused error
  | ok empty =>
      rw [listed.1, listed.2]
      exact reads

theorem plan_mount_ensures {broken : String → Bool} (crates : Crates) (isShared : Bool)
    (name own shared : String) (before : Volumes) :
    (planMount crates isShared name own shared).run.Ensures (Volumes.machine broken).can
      (Decided (before.disk.listedEmpty broken) isShared own shared before) before := by
  unfold planMount
  cases isShared with
  | true =>
      apply is_empty_dir_bind own before fun _ => Or.inl rfl
      cases isOwn : before.disk.listedEmpty broken own with
      | true =>
          apply always_run_pure.mpr
          exact ⟨rfl, by simp [decision, isOwn], by simp [blocked, isOwn]⟩
      | false =>
          apply is_empty_dir_bind shared before fun _ => Or.inl rfl
          cases isShared : before.disk.listedEmpty broken shared with
          | true =>
              apply always_run_pure.mpr
              exact ⟨rfl, by simp [decision, isOwn], by simp [blocked, isShared]⟩
          | false =>
              apply always_run_throw.mpr
              exact Or.inr ⟨rfl, by simp [blocked, isOwn, isShared]⟩
  | false =>
      apply is_empty_dir_bind own before fun _ => Or.inl rfl
      cases isOwn : before.disk.listedEmpty broken own with
      | false =>
          apply always_run_pure.mpr
          exact ⟨rfl, by simp [decision, isOwn], rfl⟩
      | true =>
          apply is_empty_dir_bind shared before fun _ => Or.inl rfl
          cases isShared : before.disk.listedEmpty broken shared with
          | true =>
              apply always_run_pure.mpr
              exact ⟨rfl, by simp [decision, isShared], rfl⟩
          | false =>
              apply always_run_pure.mpr
              exact ⟨rfl, by simp [decision, isOwn, isShared], rfl⟩

section Plan

variable (server : Server) (appId : Uuid) (previous : ContainerService)

def ownPath (name : String) : String :=
  Path.join (serviceMountRoot server.dataDir appId previous.id) name

def sharedPath (name : String) : String :=
  Path.join (Path.join (appMountRoot server.dataDir appId) sharedMountsDir) name

/-- A managed volume of both versions whose side changes. -/
def switched (mount : ServiceMount) : Bool :=
  match lookup (·.name) mount.name previous.mounts with
  | none => false
  | some before =>
      before.hostPath.isNone && mount.hostPath.isNone && before.isShared ≠ mount.isShared

def migrationsFor (listed : String → Bool) (mount : ServiceMount) : List MountMigration :=
  if switched previous mount then
    decision listed mount.isShared (ownPath server appId previous mount.name)
      (sharedPath server appId mount.name)
  else []

def conflicts (listed : String → Bool) (mount : ServiceMount) : Bool :=
  switched previous mount && blocked listed mount.isShared
    (ownPath server appId previous mount.name) (sharedPath server appId mount.name)

def migrations (listed : String → Bool) (mounts : List ServiceMount) : List MountMigration :=
  mounts.flatMap (migrationsFor server appId previous listed)

variable {broken : String → Bool}

def Planned (broken : String → Bool) (mounts : List ServiceMount) (before : Volumes) :
    Except ApiError (List MountMigration) → Volumes → Prop
  | .ok planned, after => after = before ∧
      planned = migrations server appId previous (before.disk.listedEmpty broken) mounts ∧
      ∀ mount ∈ mounts,
        conflicts server appId previous (before.disk.listedEmpty broken) mount = false
  | .error _, after => after = before.noted false ∨ after = before ∧
      ∃ mount ∈ mounts, conflicts server appId previous (before.disk.listedEmpty broken) mount = true

theorem plan_mount_change_ensures (mount : ServiceMount) (before : Volumes) :
    (planMountChange server appId previous mount).run.Ensures (Volumes.machine broken).can
      (Planned server appId previous broken [mount] before) before := by
  have unswitched (stays : switched previous mount = false) :
      (Pure.pure [] : Handler (List MountMigration)).run.Ensures (Volumes.machine broken).can
        (Planned server appId previous broken [mount] before) before := by
    apply always_run_pure.mpr
    refine ⟨rfl, by simp [migrations, migrationsFor, stays], fun other member => ?_⟩
    rw [List.mem_singleton.mp member, conflicts, stays]
    rfl
  unfold planMountChange
  cases found : lookup (·.name) mount.name previous.mounts with
  | none => exact unswitched (by simp [switched, found])
  | some earlier =>
      dsimp only
      split_ifs with changes
      · have switches : switched previous mount = true := by
          simpa [switched, found] using changes
        apply (plan_mount_ensures _ _ _ _ _ before).mono
        intro result after decided
        cases result with
        | error error =>
            apply decided.imp_right
            intro conflict
            refine ⟨conflict.1, mount, List.mem_singleton_self _, ?_⟩
            rw [conflicts, switches]
            exact conflict.2
        | ok planned =>
            obtain ⟨unchanged, isDecision, clear⟩ := decided
            refine ⟨unchanged, ?_, fun other member => ?_⟩
            · rw [isDecision]
              simp [migrations, migrationsFor, switches, ownPath, sharedPath]
            · rw [List.mem_singleton.mp member, conflicts, switches]
              exact clear
      · exact unswitched (by simpa [switched, found] using changes)

theorem plan_mounts_ensures (mounts : List ServiceMount) (before : Volumes) :
    (planMounts server appId previous mounts).run.Ensures (Volumes.machine broken).can
      (Planned server appId previous broken mounts before) before := by
  induction mounts with
  | nil =>
      apply always_run_pure.mpr
      exact ⟨rfl, rfl, fun mount absent => absurd absent List.not_mem_nil⟩
  | cons mount mounts ih =>
      apply (plan_mount_change_ensures server appId previous mount before).run_bind
      intro result after first
      cases result with
      | error error =>
          rcases first with failed | ⟨unchanged, conflict⟩
          · exact Or.inl failed
          · refine Or.inr ⟨unchanged, mount, List.mem_cons_self, ?_⟩
            simpa using conflict
      | ok planned =>
          obtain ⟨unchanged, isPlanned, clear⟩ := first
          rw [unchanged]
          apply ih.run_bind
          intro result last rest
          cases result with
          | error error =>
              rcases rest with failed | ⟨unchanged, other, member, conflict⟩
              · exact Or.inl failed
              · exact Or.inr ⟨unchanged, other, List.mem_cons_of_mem _ member, conflict⟩
          | ok others =>
              obtain ⟨same, isOthers, clearOthers⟩ := rest
              apply always_run_pure.mpr
              refine ⟨same, ?_, ?_⟩
              · rw [isPlanned, isOthers]
                simp [migrations]
              · intro other member
                rcases List.mem_cons.mp member with isFirst | later
                · rw [isFirst]
                  exact clear mount List.mem_cons_self
                · exact clearOthers other later

end Plan

def isMove : MountMigration → Bool
  | .moveToShared _ _ => true
  | .copyFromShared _ _ => false

def origin : MountMigration → String
  | .moveToShared source _ | .copyFromShared source _ => source

def destination : MountMigration → String
  | .moveToShared _ target | .copyFromShared _ target => target

def slots (migration : MountMigration) : List String := [origin migration, destination migration]

/-- What a migration changes, given the contents before the update. -/
def patches (first : String → Entries) : MountMigration → List (String × Entries)
  | .moveToShared source target => [(source, .none), (target, first source)]
  | .copyFromShared source target => [(target, first source)]

def fills (first : String → Entries) (migration : MountMigration) : Bool :=
  !isMove migration && !(first (origin migration)).isEmpty

def carries (first : String → Entries) (migration : MountMigration) : Bool :=
  isMove migration && !(first (origin migration)).isEmpty

section Migrations

variable (first : String → Entries) (source target : String)

@[simp] theorem is_move_move : isMove (.moveToShared source target) = true := rfl

@[simp] theorem is_move_copy : isMove (.copyFromShared source target) = false := rfl

@[simp] theorem slots_move : slots (.moveToShared source target) = [source, target] := rfl

@[simp] theorem slots_copy : slots (.copyFromShared source target) = [source, target] := rfl

@[simp] theorem patches_move : patches first (.moveToShared source target) =
    [(source, .none), (target, first source)] := rfl

@[simp] theorem patches_copy :
    patches first (.copyFromShared source target) = [(target, first source)] := rfl

@[simp] theorem fills_move : fills first (.moveToShared source target) = false := rfl

@[simp] theorem fills_copy :
    fills first (.copyFromShared source target) = !(first source).isEmpty := rfl

@[simp] theorem carries_move :
    carries first (.moveToShared source target) = !(first source).isEmpty := rfl

end Migrations

def hasEntries (patch : String × Entries) : Bool := !patch.2.isEmpty

/-- Each migration has two directories of its own, and its target is empty. -/
structure Ready (first : String → Entries) (planned : List MountMigration) : Prop where
  apart : (planned.flatMap slots).Nodup
  room : ∀ migration ∈ planned, first (destination migration) = .none

section Patches

variable {first : String → Entries} {done rest : List MountMigration} {migration : MountMigration}

theorem patched_slot {path : String}
    (covered : path ∈ (done.flatMap (patches first)).map Prod.fst) : path ∈ done.flatMap slots := by
  obtain ⟨patch, isPatch, isPath⟩ := List.mem_map.mp covered
  obtain ⟨migration, member, ofMigration⟩ := List.mem_flatMap.mp isPatch
  apply List.mem_flatMap.mpr
  refine ⟨migration, member, ?_⟩
  rw [← isPath]
  cases migration with
  | moveToShared source target =>
      simp only [patches_move, List.mem_cons, List.not_mem_nil, or_false] at ofMigration
      rcases ofMigration with same | same
      · simp [same]
      · simp [same]
  | copyFromShared source target =>
      rw [patches_copy, List.mem_singleton] at ofMigration
      simp [ofMigration]

/-- The directories of the next migration are as they were. -/
theorem Ready.fresh (ready : Ready first (done ++ migration :: rest)) {path : String}
    (isSlot : path ∈ slots migration) : path ∉ (done.flatMap (patches first)).map Prod.fst := by
  have apart := ready.apart
  rw [List.flatMap_append, List.flatMap_cons, List.nodup_append] at apart
  intro covered
  exact apart.2.2 path (patched_slot covered) path (List.mem_append_left _ isSlot) rfl

theorem Ready.different (ready : Ready first (done ++ migration :: rest)) :
    origin migration ≠ destination migration := by
  have apart := ready.apart
  rw [List.flatMap_append, List.flatMap_cons, List.nodup_append] at apart
  have own : (slots migration).Nodup := (List.nodup_append.mp apart.2.1).1
  simpa [slots] using own

theorem Ready.empty_target (ready : Ready first (done ++ migration :: rest)) :
    first (destination migration) = .none :=
  ready.room migration (List.mem_append_right _ List.mem_cons_self)

theorem patches_sorted (first : String → Entries) (done : List MountMigration) :
    (done.flatMap (patches first)).Perm ((done.filter isMove).flatMap (patches first) ++
      (done.filter fun migration => !isMove migration).flatMap (patches first)) := by
  rw [← List.flatMap_append]
  exact ((List.filter_append_perm isMove done).symm).flatMap_right (patches first)

theorem copies_have_entries (first : String → Entries) (done : List MountMigration) :
    ((done.filter fun migration => !isMove migration).flatMap (patches first)).any hasEntries =
      done.any (fills first) := by
  induction done with
  | nil => rfl
  | cons migration done ih =>
      cases migration with
      | moveToShared source target => simpa using ih
      | copyFromShared source target =>
          have others : (done.any fun migration => !isMove migration &&
              (patches first migration).any hasEntries) = done.any (fills first) := by
            simpa using ih
          simp [hasEntries, others]

end Patches

section Undo

variable {broken : String → Bool} {first : String → Entries} {others : List (String × Entries)}

structure LeftOver (first : String → Entries) (others : List (String × Entries))
    (failed copied : Bool) (left : List MountMigration) (after : Volumes) : Prop where
  moves : ∀ migration ∈ left, isMove migration = true ∧ first (destination migration) = .none
  patched : Patched first after.disk.content (left.flatMap (patches first) ++ others)
  mishaps : after.mishaps = ⟨failed, copied, left.any (carries first)⟩

/-- Undoing goes through the moves backwards; the ones before are still in place. -/
theorem undo_ensures {failed copied : Bool} (moved left : List MountMigration) (before : Volumes)
    (moves : ∀ migration ∈ moved ++ left,
      isMove migration = true ∧ first (destination migration) = .none)
    (patched : Patched first before.disk.content
      (moved.flatMap (patches first) ++ (left.flatMap (patches first) ++ others)))
    (mishaps : before.mishaps = ⟨failed, copied, left.any (carries first)⟩) :
    (undoMigrations moved).Ensures (Volumes.machine broken).can
      (fun _ after => ∃ left, LeftOver first others failed copied left after) before := by
  induction moved using List.reverseRecOn generalizing left before with
  | nil =>
      apply always_pure.mpr
      exact ⟨left, moves, patched, mishaps⟩
  | append_singleton rest migration ih =>
      cases migration with
      | copyFromShared source target =>
          have isMove := (moves (.copyFromShared source target) (by simp)).1
          cases isMove
      | moveToShared source target =>
          have room : first target = .none := (moves (.moveToShared source target) (by simp)).2
          have remaining : ∀ migration ∈ rest ++ left,
              isMove migration = true ∧ first (destination migration) = .none := by
            intro migration member
            apply moves
            rcases List.mem_append.mp member with isRest | isLeft
            · simp [isRest]
            · simp [isLeft]
          have turned : undoMigrations (rest ++ [.moveToShared source target]) =
              (external (.rename target source)).bind fun _ => undoMigrations rest := by
            unfold undoMigrations
            rw [List.reverse_append]
            exact Program.bind_assoc _ _ _
          rw [turned]
          apply (Volumes.rename_ensures target source before).bind
          intro result after returned
          cases result with
          | ok _ =>
              apply ih left after remaining
              · rw [returned.2]
                apply Patched.restored _ room
                apply patched.perm
                rw [List.flatMap_append, List.flatMap_singleton, patches_move]
                exact List.perm_append_comm.append_right _
              · rw [returned.1]
                exact mishaps
          | error message =>
              obtain ⟨sameDisk, marked⟩ := returned
              have arrived : before.disk.content target = first source := by
                apply patched.written (target, first source)
                simp
              apply ih (.moveToShared source target :: left) after
              · intro migration member
                apply moves
                simpa using member
              · rw [sameDisk]
                simpa using patched
              · rw [marked, mishaps, arrived]
                simp [Bool.or_comm]

variable {failed copied : Bool} {left : List MountMigration} {after : Volumes}

/-- Nothing has changed when only empty directories were left where they had been moved, and
the copies brought nothing. -/
theorem LeftOver.same_iff (leftOver : LeftOver first others failed copied left after)
    (room : ∀ patch ∈ others, first patch.1 = .none) :
    (∀ path, after.disk.content path = first path) ↔
      others.any hasEntries = false ∧ after.mishaps.stranded = false := by
  have stranded : after.mishaps.stranded = left.any (carries first) := by
    rw [leftOver.mishaps]
  rw [leftOver.patched.same_iff, stranded, List.any_eq_false, List.any_eq_false]
  constructor
  · intro repeats
    constructor
    · intro patch member
      have same := repeats patch (List.mem_append_right _ member)
      rw [room patch member] at same
      simp [hasEntries, same, Entries.isEmpty]
    · intro migration member
      cases migration with
      | copyFromShared source target => simp [carries]
      | moveToShared source target =>
          have isPatch : (source, Entries.none) ∈ left.flatMap (patches first) :=
            List.mem_flatMap.mpr ⟨_, member, by simp⟩
          have same : Entries.none = first source :=
            repeats (source, .none) (List.mem_append_left _ isPatch)
          simp [← same, Entries.isEmpty]
  · intro harmless patch member
    rcases List.mem_append.mp member with isLeft | isOther
    · obtain ⟨migration, isMigration, isPatch⟩ := List.mem_flatMap.mp isLeft
      have light := harmless.2 migration isMigration
      have known := leftOver.moves migration isMigration
      cases migration with
      | copyFromShared source target => cases known.1
      | moveToShared source target =>
          have nothing : first source = .none := by simpa using light
          have roomy : first target = .none := known.2
          simp only [patches_move, List.mem_cons, List.not_mem_nil, or_false] at isPatch
          rcases isPatch with same | same
          · rw [same, nothing]
          · rw [same, nothing, roomy]
    · have empty := harmless.1 patch isOther
      rw [room patch isOther]
      simpa [hasEntries] using empty

/-- The update failed, and nothing has changed exactly when the copies brought no entries and
no volume with entries was left where it had been moved. -/
def Unmade (first : String → Entries) (after : Volumes) : Prop :=
  after.mishaps.failed = true ∧ ((∀ path, after.disk.content path = first path) ↔
    after.mishaps.copied = false ∧ after.mishaps.stranded = false)

/-- The moves are undone after a failure; `extra` is what a copy has made that did not go
through. -/
theorem undo_all_ensures {done : List MountMigration} {extra : List (String × Entries)}
    {before : Volumes} (room : ∀ migration ∈ done, first (destination migration) = .none)
    (roomy : ∀ patch ∈ extra, first patch.1 = .none)
    (patched : Patched first before.disk.content (extra ++ done.flatMap (patches first)))
    (mishaps : before.mishaps = ⟨true, done.any (fills first) || extra.any hasEntries, false⟩) :
    (undoMigrations (done.filter isMove)).Ensures (Volumes.machine broken).can
      (fun _ after => Unmade first after) before := by
  have sorted : (extra ++ done.flatMap (patches first)).Perm
      ((done.filter isMove).flatMap (patches first) ++ ([].flatMap (patches first) ++
        ((done.filter fun migration => !isMove migration).flatMap (patches first) ++ extra))) := by
    rw [List.flatMap_nil, List.nil_append, ← List.append_assoc]
    exact List.perm_append_comm.trans ((patches_sorted first done).append_right extra)
  have moves : ∀ migration ∈ done.filter isMove ++ [],
      isMove migration = true ∧ first (destination migration) = .none := by
    intro migration member
    rw [List.append_nil] at member
    exact ⟨List.of_mem_filter member, room migration (List.mem_of_mem_filter member)⟩
  apply (undo_ensures _ [] before moves (patched.perm sorted) mishaps).mono
  intro _ after undone
  obtain ⟨left, leftOver⟩ := undone
  have copies : ∀ patch ∈ (done.filter fun migration => !isMove migration).flatMap (patches first) ++
      extra, first patch.1 = .none := by
    intro patch member
    rcases List.mem_append.mp member with isCopy | isExtra
    · obtain ⟨migration, isMigration, isPatch⟩ := List.mem_flatMap.mp isCopy
      have roomHere := room migration (List.mem_of_mem_filter isMigration)
      have noMove := List.of_mem_filter isMigration
      cases migration with
      | moveToShared source target => cases noMove
      | copyFromShared source target =>
          rw [patches_copy, List.mem_singleton] at isPatch
          rw [isPatch]
          exact roomHere
    · exact roomy patch isExtra
  constructor
  · rw [leftOver.mishaps]
  · rw [leftOver.same_iff copies, List.any_append, copies_have_entries, leftOver.mishaps]

end Undo

section Apply

variable {broken : String → Bool} {first : String → Entries}

/-- So many migrations have gone through. -/
structure Applied (first : String → Entries) (done : List MountMigration) (volumes : Volumes) :
    Prop where
  patched : Patched first volumes.disk.content (done.flatMap (patches first))
  mishaps : volumes.mishaps = ⟨false, done.any (fills first), false⟩

def AllApplied (first : String → Entries) (planned : List MountMigration) :
    Except ApiError (List MountMigration) → Volumes → Prop
  | .ok moved, after => moved = planned.filter isMove ∧ Applied first planned after
  | .error _, after => Unmade first after

variable {target : String} {rest done : List MountMigration} {after : Volumes} {source : String}
  {before : Volumes}

theorem Applied.move (applied : Applied first done before)
    (ready : Ready first (done ++ .moveToShared source target :: rest))
    (moved : Volumes.Moved source target before (.ok ()) after) :
    Applied first (done ++ [.moveToShared source target]) after := by
  obtain ⟨sameMishaps, content⟩ := moved
  have sourceFresh : source ∉ (done.flatMap (patches first)).map Prod.fst := ready.fresh (by simp)
  have targetFresh : target ∉ (done.flatMap (patches first)).map Prod.fst := ready.fresh (by simp)
  constructor
  · rw [content]
    apply (applied.patched.relocated .none ready.different sourceFresh targetFresh).perm
    rw [List.flatMap_append, List.flatMap_singleton, patches_move]
    exact @List.perm_append_comm _ [(source, Entries.none), (target, first source)] _
  · rw [sameMishaps, applied.mishaps]
    simp

/-- A copy adds its patch, whether it goes through or not. -/
theorem Applied.filled {made : Entries} {succeeded : Bool} (applied : Applied first done before)
    (ready : Ready first (done ++ .copyFromShared source target :: rest))
    (filled : Volumes.Filled target made succeeded before after) :
    Patched first after.disk.content ((target, made) :: done.flatMap (patches first)) ∧
      after.mishaps = ⟨!succeeded, done.any (fills first) || !made.isEmpty, false⟩ := by
  obtain ⟨content, mishaps⟩ := filled
  have targetFresh : target ∉ (done.flatMap (patches first)).map Prod.fst := ready.fresh (by simp)
  constructor
  · rw [content]
    exact applied.patched.add made targetFresh
  · rw [mishaps]
    simp [Volumes.noted, applied.mishaps]

theorem Applied.copy (applied : Applied first done before)
    (ready : Ready first (done ++ .copyFromShared source target :: rest))
    (copied : Volumes.CopiedTo source target before (.ok ()) after) :
    Applied first (done ++ [.copyFromShared source target]) after := by
  have sourceFresh : source ∉ (done.flatMap (patches first)).map Prod.fst := ready.fresh (by simp)
  have whole : before.disk.content source = first source := applied.patched.kept source sourceFresh
  obtain ⟨patched, mishaps⟩ := applied.filled ready copied
  rw [whole] at patched mishaps
  constructor
  · apply patched.perm
    rw [List.flatMap_append, List.flatMap_singleton, patches_copy]
    exact @List.perm_append_comm _ [(target, first source)] _
  · rw [mishaps]
    simp

theorem apply_migrations_ensures (done rest : List MountMigration) (before : Volumes)
    (ready : Ready first (done ++ rest)) (applied : Applied first done before) :
    (applyMigrations (done.filter isMove) rest).run.Ensures (Volumes.machine broken).can
      (AllApplied first (done ++ rest)) before := by
  induction rest generalizing done before with
  | nil =>
      apply always_run_pure.mpr
      rw [List.append_nil]
      exact ⟨rfl, applied⟩
  | cons migration rest ih =>
      have roomDone : ∀ other ∈ done, first (destination other) = .none := by
        intro other member
        exact ready.room other (List.mem_append_left _ member)
      have regrouped : done ++ migration :: rest = (done ++ [migration]) ++ rest := by simp
      unfold applyMigrations
      apply always_run_lift_bind.mpr
      cases migration with
      | moveToShared source target =>
          apply (Volumes.run_move_ensures source target before).mono
          intro result after moved
          cases result with
          | error message =>
              apply always_run_lift_bind.mpr
              have mishaps : after.mishaps =
                  ⟨true, done.any (fills first) || List.any [] hasEntries, false⟩ := by
                rw [moved.1]
                simp [Volumes.noted, applied.mishaps]
              have patched : Patched first after.disk.content
                  ([] ++ done.flatMap (patches first)) := by
                rw [moved.2]
                exact applied.patched
              apply (undo_all_ensures roomDone (by simp) patched mishaps).mono
              intro _ last unmade
              exact always_run_throw.mpr unmade
          | ok _ =>
              have kept : (done ++ [MountMigration.moveToShared source target]).filter isMove =
                  done.filter isMove ++ [.moveToShared source target] := by
                rw [List.filter_append]
                rfl
              have next := applied.move ready moved
              rw [regrouped] at ready ⊢
              have later := ih (done ++ [.moveToShared source target]) after ready next
              rw [kept] at later
              exact later
      | copyFromShared source target =>
          have room : before.disk.content target = .none := by
            rw [applied.patched.kept target (ready.fresh (by simp))]
            exact ready.empty_target
          apply (Volumes.run_copy_ensures room).mono
          intro result after copied
          cases result with
          | error message =>
              obtain ⟨made, filled⟩ := copied
              obtain ⟨patched, mishaps⟩ := applied.filled ready filled
              apply always_run_lift_bind.mpr
              have extra : ∀ patch ∈ [(target, made)], first patch.1 = .none := by
                intro patch member
                rw [List.mem_singleton.mp member]
                exact ready.empty_target
              have noted : after.mishaps =
                  ⟨true, done.any (fills first) || List.any [(target, made)] hasEntries, false⟩ := by
                rw [mishaps]
                simp [hasEntries]
              apply (undo_all_ensures roomDone extra patched noted).mono
              intro _ last unmade
              exact always_run_throw.mpr unmade
          | ok _ =>
              have kept : (done ++ [MountMigration.copyFromShared source target]).filter isMove =
                  done.filter isMove := by
                rw [List.filter_append]
                exact List.append_nil _
              have next := applied.copy ready copied
              rw [regrouped] at ready ⊢
              have later := ih (done ++ [.copyFromShared source target]) after ready next
              rw [kept] at later
              exact later

theorem save_updated_ensures {planned : List MountMigration} (app : App)
    (ready : Ready first planned) (applied : Applied first planned before) :
    (saveUpdated app (planned.filter isMove)).run.Ensures (Volumes.machine broken).can
      (fun result after => AllApplied first planned (result.map fun _ => planned.filter isMove) after)
      before := by
  unfold saveUpdated
  apply (Volumes.save_app_ensures app before).run_lift_bind
  intro result after saved
  have noted : after = before.noted (Except.isOk result) := saved
  cases result with
  | ok _ =>
      apply always_run_pure.mpr
      refine ⟨rfl, ?_⟩
      rw [noted]
      simpa [Except.isOk, Except.toBool] using applied
  | error message =>
      apply always_run_lift_bind.mpr
      have mishaps : after.mishaps =
          ⟨true, planned.any (fills first) || List.any [] hasEntries, false⟩ := by
        rw [noted]
        simp [Volumes.noted, applied.mishaps, Except.isOk, Except.toBool]
      have patched : Patched first after.disk.content
          ([] ++ planned.flatMap (patches first)) := by
        rw [noted]
        exact applied.patched
      apply (undo_all_ensures ready.room (by simp) patched mishaps).mono
      intro _ last unmade
      exact always_run_throw.mpr unmade

end Apply

end Containr.Api.SharedMounts
