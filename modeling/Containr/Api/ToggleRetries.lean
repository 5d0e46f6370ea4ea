import Containr.Api.FieldRules
import Containr.Api.Identity
import Containr.Api.VolumeToggles

/-!
# Retried toggles

A toggle that failed may be tried again, from the disk the failed attempt left. Each attempt
keeps the data of the volumes exactly when nothing goes wrong after a copy has put an entry into
a private volume, and no undone move stays where it was.
-/

namespace Containr.Api.SharedMounts

open Containr.Effect Containr.Effect.Program Containr.Api.Services
open Containr.Patches (Patched)
open Containr.Pushes

theorem mount_name_plain {name : String} (valid : validateMountName name = true) :
    Path.PlainName name := by
  rw [validateMountName, Bool.and_eq_true, List.all_eq_true] at valid
  obtain ⟨nonempty, allowed⟩ := valid
  have ordinary : ∀ ch ∈ name.toList, ch ≠ '/' ∧ ch ≠ '.' := by
    intro ch member
    have isAllowed := allowed ch member
    constructor
    · intro same
      rw [same] at isAllowed
      exact absurd isAllowed (by decide)
    · intro same
      rw [same] at isAllowed
      exact absurd isAllowed (by decide)
  constructor
  · simpa using nonempty
  · intro member
    exact (ordinary '/' member).1 rfl
  · intro same
    exact (ordinary '.' (by simp [same])).2 rfl
  · intro same
    exact (ordinary '.' (by simp [same])).2 rfl

structure Named (mounts : List ServiceMount) : Prop where
  apart : (mounts.map ServiceMount.name).Nodup
  plain : ∀ mount ∈ mounts, Path.PlainName mount.name

theorem build_service_mounts_named {asked : Option (List ServiceMountRequest)}
    {existing mounts : List ServiceMount} {isAdmin : Bool}
    (accepted : buildServiceMounts asked existing isAdmin = .ok mounts) : Named mounts := by
  have pushed := (pushed_of_foldlM (push_mount_appends existing isAdmin) accepted).1
  constructor
  · apply nodup_of_fresh
    intro before mount after split
    obtain ⟨request, -, accepted⟩ := pushed before mount after split
    obtain ⟨-, -, fresh, -, hostPath, -, -, -, same⟩ := push_mount_iff.mp accepted
    have isMount := List.singleton_inj.mp (List.append_cancel_left same)
    rw [isMount]
    exact fresh
  · intro mount member
    obtain ⟨before, after, split⟩ := List.append_of_mem member
    obtain ⟨request, -, accepted⟩ := pushed before mount after split
    obtain ⟨valid, -, -, -, hostPath, -, -, -, same⟩ := push_mount_iff.mp accepted
    have isMount := List.singleton_inj.mp (List.append_cancel_left same)
    rw [isMount]
    exact mount_name_plain valid

section Paths

variable (server : Server) (appId : Uuid) (previous : ContainerService)

def boundPath (isShared : Bool) (name : String) : String :=
  if isShared then sharedPath server appId name else ownPath server appId previous name

def sideName (isShared : Bool) : String :=
  if isShared then sharedMountsDir else previous.id.toString

theorem side_name_inj {first second : Bool}
    (same : sideName previous first = sideName previous second) : first = second := by
  have apart : previous.id.toString ≠ sharedMountsDir := by
    intro equal
    have long := uuid_chars_length previous.id
    rw [equal] at long
    exact absurd long (by decide)
  cases first with
  | true =>
      cases second with
      | true => rfl
      | false => exact absurd same.symm apart
  | false =>
      cases second with
      | true => exact absurd same apart
      | false => rfl

theorem bound_path_components (isShared : Bool) {name : String} (plain : Path.PlainName name) :
    Path.components (boundPath server appId previous isShared name) =
      Path.components (appMountRoot server.dataDir appId) ++
        [.normal (sideName previous isShared).toList, .normal name.toList] := by
  have side : Path.PlainName sharedMountsDir := by constructor <;> decide
  cases isShared with
  | true =>
      unfold boundPath sharedPath sideName
      rw [if_pos rfl, if_pos rfl, Path.components_join plain, Path.components_join side,
        List.append_assoc]
      rfl
  | false =>
      unfold boundPath ownPath sideName serviceMountRoot
      rw [if_neg (by decide), if_neg (by decide), Path.components_join plain,
        Path.components_join (uuid_plain previous.id), List.append_assoc]
      rfl

theorem bound_path_inj {first second : Bool} {name other : String} (plain : Path.PlainName name)
    (plainOther : Path.PlainName other)
    (same : boundPath server appId previous first name =
      boundPath server appId previous second other) : first = second ∧ name = other := by
  have parts := congrArg Path.components same
  rw [bound_path_components _ _ _ _ plain, bound_path_components _ _ _ _ plainOther] at parts
  have ends := List.append_cancel_left parts
  simp only [List.cons.injEq, Path.Component.normal.injEq, String.toList_inj, and_true] at ends
  exact ⟨side_name_inj previous ends.1, ends.2⟩

end Paths

section Attempt

variable (server : Server) (appId : Uuid) (previous updated : ContainerService)

/-- A failed update leaves the contents as they were; after a successful one the service sees
what it saw before in every volume that switched. -/
def KeepsData (first : Disk) : Except ApiError Updated → Disk → Prop
  | .error _, after => ∀ path, after.content path = first.content path
  | .ok _, after => ∀ mount ∈ updated.mounts, switched previous mount = true →
      after.content (boundPath server appId previous mount.isShared mount.name) =
        first.content (boundPath server appId previous (!mount.isShared) mount.name)

/-- The side a volume switches to has what the service saw, or the plan brings it there. -/
def Shown (broken : String → Bool) (first : Disk) (mount : ServiceMount) : Prop :=
  let own := ownPath server appId previous mount.name
  let shared := sharedPath server appId mount.name
  if mount.isShared then
    first.listedEmpty broken own = true → first.content shared = .none
  else first.listedEmpty broken own = false → first.content own = first.content shared

/-- No move stays undone and no copy is followed by a failure; and the update fails, or every
volume that switches is shown on its new side. -/
def Harmless (broken : String → Bool) (first : Disk) (mishaps : Mishaps) : Prop :=
  mishaps.stranded = false ∧ (mishaps.failed = true → mishaps.copied = false) ∧
    (mishaps.failed = true ∨
      (∃ mount ∈ updated.mounts,
        conflicts server appId previous (first.listedEmpty broken) mount = true) ∨
      ∀ mount ∈ updated.mounts, switched previous mount = true →
        Shown server appId previous broken first mount)

/-! The plan of an attempt is ready to be applied. -/

variable {server appId previous updated} {broken : String → Bool} {first : Disk}
  {listed : String → Bool} {isShared : Bool}

theorem decision_slots {own shared path : String}
    (isSlot : path ∈ (decision listed isShared own shared).flatMap slots) :
    path = own ∨ path = shared := by
  unfold decision at isSlot
  split_ifs at isSlot
  · cases isSlot
  · simpa using isSlot
  · simpa [or_comm] using isSlot
  · cases isSlot

theorem decision_nodup {own shared : String} (different : own ≠ shared) :
    ((decision listed isShared own shared).flatMap slots).Nodup := by
  unfold decision
  split_ifs
  · exact List.nodup_nil
  · simpa using different
  · simpa using different.symm
  · exact List.nodup_nil

theorem decision_room {own shared : String}
    (clear : blocked (first.listedEmpty broken) isShared own shared = false) :
    ∀ migration ∈ decision (first.listedEmpty broken) isShared own shared,
      first.content (destination migration) = .none := by
  unfold decision
  split_ifs with toShared ownEmpty copies
  · simp
  · have sharedEmpty : first.listedEmpty broken shared = true := by
      simpa [blocked, toShared, ownEmpty] using clear
    intro migration member
    rw [List.mem_singleton.mp member]
    exact Disk.listed_empty sharedEmpty
  · intro migration member
    rw [List.mem_singleton.mp member]
    exact Disk.listed_empty (Bool.and_eq_true_iff.mp copies).1
  · simp

theorem migrations_slots {mount : ServiceMount} {path : String}
    (isSlot : path ∈ (migrationsFor server appId previous listed mount).flatMap slots) :
    ∃ side, path = boundPath server appId previous side mount.name := by
  unfold migrationsFor at isSlot
  split_ifs at isSlot
  · rcases decision_slots isSlot with isOwn | isShared
    · exact ⟨false, isOwn⟩
    · exact ⟨true, isShared⟩
  · cases isSlot

theorem own_ne_shared {name : String} (plain : Path.PlainName name) :
    ownPath server appId previous name ≠ sharedPath server appId name := by
  intro same
  have sides := (@bound_path_inj server appId previous false true name name plain plain same).1
  cases sides

theorem migrations_ready {mounts : List ServiceMount} (named : Named mounts)
    (clear : ∀ mount ∈ mounts,
      conflicts server appId previous (first.listedEmpty broken) mount = false) :
    Ready first.content (migrations server appId previous (first.listedEmpty broken) mounts) := by
  constructor
  · unfold migrations
    rw [List.flatMap_assoc, List.nodup_flatMap]
    constructor
    · intro mount member
      unfold migrationsFor
      split_ifs
      · exact decision_nodup (own_ne_shared (named.plain mount member))
      · exact List.nodup_nil
    · have distinct : mounts.Pairwise fun mount other => mount.name ≠ other.name :=
        List.pairwise_map.mp named.apart
      apply distinct.imp_of_mem
      intro mount other isMount isOther different path ofMount ofOther
      obtain ⟨side, isPath⟩ := migrations_slots ofMount
      obtain ⟨otherSide, alsoPath⟩ := migrations_slots ofOther
      rw [isPath] at alsoPath
      exact different (bound_path_inj server appId previous (named.plain mount isMount)
        (named.plain other isOther) alsoPath).2
  · intro migration member
    obtain ⟨mount, isMount, planned⟩ := List.mem_flatMap.mp member
    have clearHere := clear mount isMount
    unfold migrationsFor at planned
    unfold conflicts at clearHere
    split_ifs at planned with switches
    · rw [switches] at clearHere
      exact decision_room clearHere migration planned
    · cases planned

/-! What an attempt ends with. -/

def SwitchEnded (server : Server) (appId : Uuid) (previous updated : ContainerService)
    (broken : String → Bool) (first : Disk) : Except ApiError Updated → Volumes → Prop
  | .ok _, after => (∀ mount ∈ updated.mounts,
        conflicts server appId previous (first.listedEmpty broken) mount = false) ∧
      Applied first.content
        (migrations server appId previous (first.listedEmpty broken) updated.mounts) after
  | .error _, after => (after = .untouched first ∧ ∃ mount ∈ updated.mounts,
        conflicts server appId previous (first.listedEmpty broken) mount = true) ∨
      Unmade first.content after

theorem switch_volumes_ensures (app : App) (named : Named updated.mounts) :
    (switchVolumes server app previous updated).run.Ensures (Volumes.machine broken).can
      (SwitchEnded server app.id previous updated broken first) (.untouched first) := by
  unfold switchVolumes
  apply (plan_mounts_ensures server app.id previous updated.mounts _).run_bind
  intro result planned isPlanned
  cases result with
  | error error =>
      rcases isPlanned with refused | ⟨unchanged, conflict⟩
      · right
        rw [refused]
        exact ⟨rfl, fun _ => ⟨rfl, rfl⟩, fun _ _ => rfl⟩
      · exact Or.inl ⟨unchanged, conflict⟩
  | ok migrations =>
      obtain ⟨unchanged, same, clear⟩ := isPlanned
      have ready := migrations_ready named clear
      have start : Applied first.content [] (.untouched first) :=
        ⟨Patched.unpatched first.content, rfl⟩
      rw [unchanged, same]
      apply (apply_migrations_ensures [] _ (.untouched first) ready start).run_bind
      intro result moved applied
      cases result with
      | error error => exact Or.inr applied
      | ok moves =>
          obtain ⟨isMoves, whole⟩ := applied
          rw [isMoves]
          apply (Volumes.utc_now_ensures moved).run_lift_bind
          intro now later sameVolumes
          rw [sameVolumes]
          apply (save_updated_ensures _ ready whole).run_bind
          intro result last saved
          cases result with
          | error error => exact Or.inr saved
          | ok _ =>
              apply always_run_pure.mpr
              exact ⟨clear, saved.2⟩

section Seen

/-- After its migrations a volume is shown on its new side unless the plan passed over entries
there, or over other entries. -/
theorem decision_shown {isShared : Bool} {own shared : String} {now : String → Entries}
    (stays : decision (first.listedEmpty broken) isShared own shared = [] →
      now own = first.content own ∧ now shared = first.content shared)
    (wrote : ∀ {migration}, migration ∈ decision (first.listedEmpty broken) isShared own shared →
      ∀ {path entries}, (path, entries) ∈ patches first.content migration → now path = entries) :
    (isShared = true → (now shared = first.content own ↔
      (first.listedEmpty broken own = true → first.content shared = .none))) ∧
    (isShared = false → (now own = first.content shared ↔
      (first.listedEmpty broken own = false → first.content own = first.content shared))) := by
  cases ownEmpty : first.listedEmpty broken own with
  | true =>
      have nothing : first.content own = .none := Disk.listed_empty ownEmpty
      constructor
      · intro toShared
        rw [(stays (by simp [decision, toShared, ownEmpty])).2, nothing]
        simp
      · intro toOwn
        cases sharedEmpty : first.listedEmpty broken shared with
        | true =>
            rw [(stays (by simp [decision, toOwn, ownEmpty, sharedEmpty])).1, nothing,
              Disk.listed_empty sharedEmpty]
            simp
        | false =>
            have copies : MountMigration.copyFromShared shared own ∈
                decision (first.listedEmpty broken) isShared own shared := by
              simp [decision, toOwn, ownEmpty, sharedEmpty]
            have arrived : now own = first.content shared := wrote copies (by simp)
            simp [arrived]
  | false =>
      constructor
      · intro toShared
        have moves : MountMigration.moveToShared own shared ∈
            decision (first.listedEmpty broken) isShared own shared := by
          simp [decision, toShared, ownEmpty]
        have arrived : now shared = first.content own := wrote moves (by simp)
        simp [arrived]
      · intro toOwn
        rw [(stays (by simp [decision, toOwn, ownEmpty])).1]
        simp

variable {after : Volumes} {mounts : List ServiceMount} {mount : ServiceMount}

theorem migrated (applied : Applied first.content
      (migrations server appId previous (first.listedEmpty broken) mounts) after)
    (member : mount ∈ mounts) {migration : MountMigration}
    (planned : migration ∈ migrationsFor server appId previous (first.listedEmpty broken) mount)
    {path : String} {entries : Entries}
    (isPatch : (path, entries) ∈ patches first.content migration) :
    after.disk.content path = entries := by
  apply applied.patched.written (path, entries)
  apply List.mem_flatMap.mpr
  exact ⟨migration, List.mem_flatMap.mpr ⟨mount, member, planned⟩, isPatch⟩

theorem not_migrated (applied : Applied first.content
      (migrations server appId previous (first.listedEmpty broken) mounts) after)
    (named : Named mounts) (member : mount ∈ mounts)
    (nothing : migrationsFor server appId previous (first.listedEmpty broken) mount = [])
    (side : Bool) :
    after.disk.content (boundPath server appId previous side mount.name) =
      first.content (boundPath server appId previous side mount.name) := by
  apply applied.patched.kept
  intro covered
  obtain ⟨migration, isMigration, isSlot⟩ := List.mem_flatMap.mp (patched_slot covered)
  obtain ⟨other, isOther, planned⟩ := List.mem_flatMap.mp isMigration
  obtain ⟨otherSide, same⟩ := migrations_slots (List.mem_flatMap.mpr ⟨migration, planned, isSlot⟩)
  have sameName : mount.name = other.name :=
    (bound_path_inj server appId previous (named.plain mount member) (named.plain other isOther)
      same).2
  have sameMount : mount = other := List.inj_on_of_nodup_map named.apart member isOther sameName
  rw [← sameMount, nothing] at planned
  cases planned

theorem shown_iff (applied : Applied first.content
      (migrations server appId previous (first.listedEmpty broken) mounts) after)
    (named : Named mounts) (member : mount ∈ mounts) (switches : switched previous mount = true) :
    after.disk.content (boundPath server appId previous mount.isShared mount.name) =
        first.content (boundPath server appId previous (!mount.isShared) mount.name) ↔
      Shown server appId previous broken first mount := by
  have planned : migrationsFor server appId previous (first.listedEmpty broken) mount =
      decision (first.listedEmpty broken) mount.isShared
        (ownPath server appId previous mount.name) (sharedPath server appId mount.name) := by
    unfold migrationsFor
    rw [if_pos switches]
  have stays := not_migrated applied named member
  have wrote := @migrated server appId previous broken first after mounts mount applied member
  rw [planned] at stays wrote
  have ends := decision_shown (fun nothing => ⟨stays nothing false, stays nothing true⟩) wrote
  cases isShared : mount.isShared with
  | true => simpa [Shown, isShared, boundPath] using ends.1 isShared
  | false => simpa [Shown, isShared, boundPath] using ends.2 isShared

end Seen

theorem switch_ended_iff (named : Named updated.mounts) {result : Except ApiError Updated}
    {after : Volumes}
    (ended : SwitchEnded server appId previous updated broken first result after) :
    KeepsData server appId previous updated first result after.disk ↔
      Harmless server appId previous updated broken first after.mishaps := by
  cases result with
  | ok value =>
      obtain ⟨clear, applied⟩ := ended
      have noConflict : ¬∃ mount ∈ updated.mounts,
          conflicts server appId previous (first.listedEmpty broken) mount = true := by
        intro found
        obtain ⟨mount, member, conflict⟩ := found
        rw [clear mount member] at conflict
        cases conflict
      have shown : KeepsData server appId previous updated first (.ok value) after.disk ↔
          ∀ mount ∈ updated.mounts, switched previous mount = true →
            Shown server appId previous broken first mount := by
        apply forall₃_congr
        intro mount member switches
        exact shown_iff applied named member switches
      unfold Harmless
      rw [shown, applied.mishaps]
      simp [noConflict]
  | error error =>
      rcases ended with ⟨unchanged, conflict⟩ | ⟨failed, same⟩
      · unfold Harmless
        rw [unchanged]
        exact ⟨fun _ => ⟨rfl, fun _ => rfl, Or.inr (Or.inl conflict)⟩, fun _ _ => rfl⟩
      · unfold Harmless
        rw [failed]
        exact same.trans ⟨fun both => ⟨both.2, fun _ => both.1, Or.inl rfl⟩,
          fun harmless => ⟨harmless.2.1 rfl, harmless.1⟩⟩

end Attempt

structure Attempt where
  broken : String → Bool
  before : Disk
  result : Except ApiError Updated
  after : Volumes

/-- The same update again and again, as long as it fails, each time from the disk it left. -/
inductive Retried (program : Handler Updated) : Disk → List Attempt → Prop where
  | none (disk : Disk) : Retried program disk []
  | attempt {attempt : Attempt} {attempts : List Attempt}
      (run : Runs (Volumes.machine attempt.broken).can program.run (.untouched attempt.before)
        attempt.result attempt.after)
      (failed : attempts ≠ [] → ∃ error, attempt.result = .error error)
      (again : Retried program attempt.after.disk attempts) :
      Retried program attempt.before (attempt :: attempts)

section Retries

variable {server : Server} {app : App} {previous updated : ContainerService}

theorem keeps_data_congr {first second : Disk} (same : ∀ path, first.content path = second.content path)
    (result : Except ApiError Updated) (after : Disk) :
    KeepsData server app.id previous updated first result after ↔
      KeepsData server app.id previous updated second result after := by
  have contents : first.content = second.content := funext same
  unfold KeepsData
  rw [contents]

/-- Attempt after attempt the volumes keep the data they had before the first, exactly as long
as each attempt is harmless. -/
theorem toggling_keeps_data_iff {asked : Option (List ServiceMountRequest)}
    {existing : List ServiceMount} {isAdmin : Bool}
    (accepted : buildServiceMounts asked existing isAdmin = .ok updated.mounts) {first : Disk}
    {attempts : List Attempt}
    (retried : Retried (switchVolumes server app previous updated) first attempts) :
    (∀ attempt ∈ attempts,
      KeepsData server app.id previous updated first attempt.result attempt.after.disk) ↔
    ∀ attempt ∈ attempts, Harmless server app.id previous updated attempt.broken attempt.before
      attempt.after.mishaps := by
  have named := build_service_mounts_named accepted
  induction retried with
  | none disk => simp
  | @attempt attempt attempts run failed again ih =>
      have ended := (switch_volumes_ensures app named).runs run
      have here := switch_ended_iff named ended
      rw [List.forall_mem_cons, List.forall_mem_cons]
      refine (and_congr_right fun kept => ?_).trans (and_congr here ih)
      by_cases last : attempts = []
      · rw [last]
        simp
      · obtain ⟨error, isError⟩ := failed last
        rw [isError] at kept
        have unchanged : ∀ path, attempt.after.disk.content path = attempt.before.content path :=
          kept
        apply forall₂_congr
        intro later member
        exact (keeps_data_congr unchanged later.result later.after.disk).symm

end Retries

/-! A database directory with a socket in it cannot be copied. -/

def demoMount (isShared : Bool) : ServiceMount :=
  ⟨"data", "/db", false, none, isShared⟩

def demoVolume (isShared : Bool) : ContainerService :=
  { ContainerService.new ⟨1⟩ 0 ⟨1⟩ "db" "mysql" 3306 with mounts := [demoMount isShared] }

def demoShop : App where
  id := ⟨1⟩
  name := "shop"
  githubUrl := ""
  branch := "main"
  domains := []
  envVars := []
  autoDeployEnabled := false
  autoDeployWatchPaths := []
  autoDeployCleanupStaleDeployments := false
  deployWebhookToken := none
  port := 80
  services := [demoVolume false]
  rolloutStrategy := .stopFirst
  ownerId := ⟨2⟩
  createdAt := 0
  updatedAt := 0

/-- The volume stops being shared. -/
def demoToggle : Handler Updated :=
  switchVolumes demoServer demoShop (demoVolume true) (demoVolume false)

/-- No call is refused. -/
def willing : (Volumes.machine fun _ => false).Policy
  | .write _, _ => (.ok (), ⟨[], .none⟩)
  | op, _ => ((Op.exec op (calm op .empty) .empty).1, ⟨[], .none⟩)

def demoDisk : Disk := fun path =>
  if path = sharedPath demoServer ⟨1⟩ "data" then
    some (.more "ibdata" (.file "rows") (.more "mysql.sock" .special .none))
  else none

def demoAttempt (disk : Disk) : Attempt :=
  let ended := demoToggle.run.run (Volumes.machine fun _ => false) willing (.untouched disk)
  ⟨fun _ => false, disk, ended.1, ended.2⟩

def demoFirst : Attempt := demoAttempt demoDisk

def demoSecond : Attempt := demoAttempt demoFirst.after.disk

/-- The copy stops at the socket; the second attempt finds the volume full and leaves it so. -/
theorem demo_attempts : demoFirst.result.isOk = false ∧ demoSecond.result.isOk = true ∧
    demoSecond.after.disk.content (boundPath demoServer demoShop.id (demoVolume true)
        (demoMount false).isShared (demoMount false).name) ≠
      demoDisk.content (boundPath demoServer demoShop.id (demoVolume true)
        (!(demoMount false).isShared) (demoMount false).name) := by
  decide +kernel

theorem demo_pushed :
    pushMount [] false [] ⟨"data", "/db", none, none, none⟩ = .ok [demoMount false] :=
  push_mount_iff.mpr ⟨by decide +kernel, by decide +kernel, List.not_mem_nil, List.not_mem_nil,
    none, rfl, by decide, by decide, rfl⟩

theorem demo_accepted : buildServiceMounts (some [⟨"data", "/db", none, none, none⟩]) [] false =
    .ok (demoVolume false).mounts := demo_pushed

theorem demo_run (disk : Disk) : Runs (Volumes.machine (demoAttempt disk).broken).can demoToggle.run
    (.untouched disk) (demoAttempt disk).result (demoAttempt disk).after :=
  runs_run _ willing (fun _ _ => trivial) demoToggle.run (.untouched disk)

theorem demo_retries {disk : Disk} {error : ApiError}
    (failed : (demoAttempt disk).result = .error error) : Retried demoToggle disk
      [demoAttempt disk, demoAttempt (demoAttempt disk).after.disk] := by
  have last : Retried demoToggle (demoAttempt disk).after.disk
      [demoAttempt (demoAttempt disk).after.disk] :=
    @Retried.attempt _ (demoAttempt (demoAttempt disk).after.disk) [] (demo_run _)
      (fun more => absurd rfl more) (Retried.none _)
  exact @Retried.attempt _ (demoAttempt disk) _ (demo_run disk) (fun _ => ⟨error, failed⟩) last

theorem demo_retried : Retried demoToggle demoDisk [demoFirst, demoSecond] := by
  have refused : demoFirst.result.isOk = false := demo_attempts.1
  cases result : demoFirst.result with
  | ok value =>
      rw [result] at refused
      cases refused
  | error error => exact demo_retries result

theorem demo_keeps_data_iff :
    (∀ attempt ∈ [demoFirst, demoSecond], KeepsData demoServer demoShop.id (demoVolume true)
      (demoVolume false) demoDisk attempt.result attempt.after.disk) ↔
    ∀ attempt ∈ [demoFirst, demoSecond], Harmless demoServer demoShop.id (demoVolume true)
      (demoVolume false) attempt.broken attempt.before attempt.after.mishaps :=
  toggling_keeps_data_iff demo_accepted demo_retried

theorem shown_of_kept {server : Server} {appId : Uuid} {previous updated : ContainerService}
    {first : Disk} {attempts : List Attempt}
    (kept : ∀ attempt ∈ attempts,
      KeepsData server appId previous updated first attempt.result attempt.after.disk)
    {attempt : Attempt} (member : attempt ∈ attempts) {value : Updated}
    (succeeded : attempt.result = .ok value) :
    ∀ mount ∈ updated.mounts, switched previous mount = true →
      attempt.after.disk.content (boundPath server appId previous mount.isShared mount.name) =
        first.content (boundPath server appId previous (!mount.isShared) mount.name) := by
  have keptHere := kept attempt member
  rw [succeeded] at keptHere
  exact keptHere

/-- The retried toggle succeeds and the service sees a part of its data. -/
theorem retried_toggle_hides_data :
    ¬∀ (server : Server) (app : App) (previous updated : ContainerService)
      (asked : Option (List ServiceMountRequest)) (existing : List ServiceMount) (isAdmin : Bool)
      (first : Disk) (attempts : List Attempt),
      buildServiceMounts asked existing isAdmin = .ok updated.mounts →
      Retried (switchVolumes server app previous updated) first attempts →
      ∀ attempt ∈ attempts,
        KeepsData server app.id previous updated first attempt.result attempt.after.disk := by
  intro claimed
  have kept := claimed demoServer demoShop (demoVolume true) (demoVolume false) _ _ _ demoDisk
    [demoFirst, demoSecond] demo_accepted demo_retried
  have second : demoSecond ∈ [demoFirst, demoSecond] :=
    List.mem_cons_of_mem demoFirst List.mem_cons_self
  have succeeded : demoSecond.result.isOk = true := demo_attempts.2.1
  cases result : demoSecond.result with
  | error error =>
      rw [result] at succeeded
      cases succeeded
  | ok value =>
      have shown := shown_of_kept kept second result (demoMount false) List.mem_cons_self (by decide)
      exact demo_attempts.2.2 shown

end Containr.Api.SharedMounts
