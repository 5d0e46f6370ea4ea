import Containr.Api.WellFormed

/-!
# Host paths in mounts

Only admins may mount a host path. Others may send back what an admin has set, and the check
for that compares the name of the mount and its host path. Where the mount points in the
container and whether it is read only are not compared.
-/

namespace Containr.Api

open Containr.Effect Containr.Effect.Program Containr.Pushes Containr.Api.Services

structure Grants (granted mount : ServiceMount) : Prop where
  hostPath : granted.hostPath = mount.hostPath
  target : granted.target = mount.target
  noWrites : granted.readOnly = true → mount.readOnly = true

theorem Grants.refl (mount : ServiceMount) : Grants mount mount := ⟨rfl, rfl, id⟩

theorem Grants.trans {first second third : ServiceMount} (one : Grants first second)
    (two : Grants second third) : Grants first third where
  hostPath := one.hostPath.trans two.hostPath
  target := one.target.trans two.target
  noWrites := fun readOnly => two.noWrites (one.noWrites readOnly)

def storedMounts (existing : List ContainerService) (name : String) : List ServiceMount :=
  ((lookup (·.name) name existing.reverse).map (·.mounts)).getD []

def GrantedBy (granted : List ServiceMount) (mount : ServiceMount) : Prop :=
  mount.hostPath.isSome = true → ∃ other ∈ granted, Grants other mount

def HostMountsKept (existing services : List ContainerService) : Prop :=
  ∀ service ∈ services, ∀ mount ∈ service.mounts,
    GrantedBy (storedMounts existing service.name) mount

/-- A host path that is asked for is that of a stored mount with the requested target, which
is not read only unless the request is. -/
def AsksGranted (stored : List ServiceMount) (request : ServiceMountRequest) : Prop :=
  ∀ path, normalizeHostPath request.hostPath = .ok (some path) →
    ∃ other ∈ stored, other.hostPath = some path ∧ other.target = Text.trim request.target ∧
      (other.readOnly = true → request.readOnly = some true)

def AsksNoMore (existing : List ContainerService) (request : ServiceRequest) : Prop :=
  ∀ mount ∈ request.mounts.getD [],
    AsksGranted (storedMounts existing (Text.trim request.name)) mount

structure StoredAs (request : ServiceMountRequest) (mount : ServiceMount) : Prop where
  hostPath : normalizeHostPath request.hostPath = .ok mount.hostPath
  target : mount.target = Text.trim request.target
  rooted : Text.startsWith mount.target "/" = true
  readOnly : mount.readOnly = request.readOnly.getD false

theorem build_service_mounts_stored {mounts : Option (List ServiceMountRequest)}
    {existing result : List ServiceMount} {isAdmin : Bool}
    (accepted : buildServiceMounts mounts existing isAdmin = .ok result) :
    List.Forall₂ StoredAs (mounts.getD []) result := by
  have appends : ∀ parsed mount next, pushMount existing isAdmin parsed mount = .ok next →
      ∃ out, StoredAs mount out ∧ next = parsed ++ [out] := by
    intro parsed mount next pushed
    obtain ⟨-, rooted, -, -, hostPath, found, -, -, same⟩ := push_mount_iff.mp pushed
    refine ⟨_, ?_, same⟩
    exact { hostPath := found, target := rfl, rooted := rooted, readOnly := rfl }
  obtain ⟨outs, matched, whole⟩ := foldlM_matched appends accepted
  rw [whole]
  exact matched

variable {existing : List ContainerService}

/-- A round starts from the stored mounts, and from none for a new service. -/
theorem StartsFrom.mounts {name : String} {origin : ContainerService}
    (starts : StartsFrom existing name origin) : origin.mounts = storedMounts existing name := by
  unfold storedMounts
  cases starts with
  | stored found =>
      rw [found]
      rfl
  | new missing id now appId image port =>
      rw [missing]
      rfl

section Call

variable {granted : List ServiceMount}

theorem granted_by_iff {request : ServiceMountRequest} {mount : ServiceMount}
    (stored : StoredAs request mount) : GrantedBy granted mount ↔ AsksGranted granted request := by
  obtain ⟨hostPath, target, -, readOnly⟩ := stored
  have writes : mount.readOnly = true ↔ request.readOnly = some true := by
    rw [readOnly]
    cases request.readOnly with
    | none => simp
    | some asked => simp
  constructor
  · intro kept path asked
    have same : mount.hostPath = some path := Except.ok.inj (hostPath.symm.trans asked)
    obtain ⟨other, member, grants⟩ := kept (by rw [same]; rfl)
    exact ⟨other, member, grants.hostPath.trans same, grants.target.trans target,
      fun isReadOnly => writes.mp (grants.noWrites isReadOnly)⟩
  · intro asks hasPath
    obtain ⟨path, same⟩ := Option.isSome_iff_exists.mp hasPath
    obtain ⟨other, member, samePath, sameTarget, noWrites⟩ := asks path (by rw [hostPath, same])
    exact ⟨other, member, samePath.trans same.symm, sameTarget.trans target.symm,
      fun isReadOnly => writes.mpr (noWrites isReadOnly)⟩

theorem matched_granted_iff {asked : List ServiceMountRequest} {mounts : List ServiceMount}
    (matched : List.Forall₂ StoredAs asked mounts) :
    (∀ mount ∈ mounts, GrantedBy granted mount) ↔
      ∀ request ∈ asked, AsksGranted granted request := by
  induction matched with
  | nil => simp
  | cons first rest ih =>
      rw [List.forall_mem_cons, List.forall_mem_cons, granted_by_iff first, ih]

variable {crates : Crates} {appId : Uuid} {existing services : List ContainerService}
  {isAdmin : Bool} {requests : List ServiceRequest}

theorem Rounds.host_mounts_iff (rounds : Rounds crates appId existing isAdmin requests services) :
    HostMountsKept existing services ↔ ∀ request ∈ requests, AsksNoMore existing request := by
  induction rounds with
  | nil => simp [HostMountsKept]
  | @cons request service requests services first rest ih =>
      obtain ⟨origin, serviceType, schedule, round⟩ := first
      have named : service.name = Text.trim request.name := round.configured.named
      have matched := build_service_mounts_stored round.configured.mounts
      unfold HostMountsKept at ih ⊢
      rw [List.forall_mem_cons, List.forall_mem_cons, ih, named]
      exact and_congr (matched_granted_iff matched) Iff.rfl

end Call

structure EditCall extends BuildCall where
  isAdmin : Bool

/-- The services of an app after some accepted calls of admins and others; services may be
renamed before a call and deleted between two. -/
inductive Edited (crates : Crates) (appId : Uuid) :
    List EditCall → List ContainerService → Prop where
  | none : Edited crates appId [] []
  | build {calls : List EditCall} {previous existing services : List ContainerService}
      {requests : List ServiceRequest} {isAdmin : Bool}
      (earlier : Edited crates appId calls previous) (carried : Renamed previous existing)
      (accepted : (buildServices crates appId existing requests isAdmin).run.Yields (.ok services)) :
      Edited crates appId (calls ++ [⟨⟨existing, requests, services⟩, isAdmin⟩]) services
  | add {calls : List EditCall} {previous added : List ContainerService}
      {requests : List ServiceRequest} {isAdmin : Bool}
      (earlier : Edited crates appId calls previous)
      (accepted : (buildServices crates appId [] requests isAdmin).run.Yields (.ok added)) :
      Edited crates appId (calls ++ [⟨⟨[], requests, added⟩, isAdmin⟩]) (previous ++ added)
  | delete {calls : List EditCall} {previous services : List ContainerService}
      (earlier : Edited crates appId calls previous) (left : List.Sublist services previous) :
      Edited crates appId calls services

def AdminGranted (calls : List EditCall) (services : List ContainerService) : Prop :=
  ∀ service ∈ services, ∀ mount ∈ service.mounts, mount.hostPath.isSome = true →
    ∃ call ∈ calls, call.isAdmin = true ∧ ∃ owner ∈ call.services, ∃ granted ∈ owner.mounts,
      Grants granted mount

section Edited

variable {crates : Crates} {appId : Uuid} {calls : List EditCall}
  {services : List ContainerService} {call : EditCall}

theorem Edited.rounds (edited : Edited crates appId calls services) (member : call ∈ calls) :
    Rounds crates appId call.existing call.isAdmin call.requests call.services := by
  induction edited with
  | none => cases member
  | build earlier carried accepted ih =>
      rcases List.mem_append.mp member with old | new
      · exact ih old
      · rw [List.mem_singleton.mp new]
        exact (build_services_rounds accepted).1
  | add earlier accepted ih =>
      rcases List.mem_append.mp member with old | new
      · exact ih old
      · rw [List.mem_singleton.mp new]
        exact (build_services_rounds accepted).1
  | delete earlier left ih => exact ih member

theorem AdminGranted.later (granted : AdminGranted calls services) :
    AdminGranted (calls ++ [call]) services := by
  intro service member mount inMounts hasPath
  obtain ⟨earlier, isCall, found⟩ := granted service member mount inMounts hasPath
  exact ⟨earlier, List.mem_append_left _ isCall, found⟩

/-- The stored mounts are those of a service, under another name perhaps. -/
theorem Renamed.stored_mounts {previous existing : List ContainerService}
    (carried : Renamed previous existing) {name : String} {mount : ServiceMount}
    (member : mount ∈ storedMounts existing name) :
    ∃ service ∈ previous, mount ∈ service.mounts := by
  unfold storedMounts at member
  cases found : lookup (·.name) name existing.reverse with
  | none =>
      rw [found] at member
      cases member
  | some owner =>
      rw [found] at member
      have isOwner := List.mem_reverse.mp (lookup_eq_some_mem found).1
      obtain ⟨service, inPrevious, newName, same⟩ := matched_right carried isOwner
      rw [same] at member
      exact ⟨service, inPrevious, member⟩

/-- One call: what an admin builds the admin grants, what others build was there before. -/
theorem admin_granted_call {previous : List ContainerService}
    (granted : AdminGranted calls previous)
    (from_ : ∀ name, ∀ mount ∈ storedMounts call.existing name,
      ∃ service ∈ previous, mount ∈ service.mounts)
    (kept : call.isAdmin = false → HostMountsKept call.existing call.services) :
    AdminGranted (calls ++ [call]) call.services := by
  intro service member mount inMounts hasPath
  cases admin : call.isAdmin with
  | true =>
      exact ⟨call, List.mem_append_right _ (List.mem_singleton_self _), admin, service, member,
        mount, inMounts, Grants.refl mount⟩
  | false =>
      obtain ⟨before, inStored, grants⟩ := kept admin service member mount inMounts hasPath
      obtain ⟨owner, inPrevious, inOwner⟩ := from_ service.name before inStored
      have stillPath : before.hostPath.isSome = true := by rw [grants.hostPath, hasPath]
      obtain ⟨earlier, isCall, isAdmin, builder, built, first, inBuilder, firstGrants⟩ :=
        granted owner inPrevious before inOwner stillPath
      exact ⟨earlier, List.mem_append_left _ isCall, isAdmin, builder, built, first, inBuilder,
        firstGrants.trans grants⟩

theorem Edited.admin_granted (edited : Edited crates appId calls services)
    (kept : ∀ call ∈ calls, call.isAdmin = false → HostMountsKept call.existing call.services) :
    AdminGranted calls services := by
  induction edited with
  | none => exact fun _ member => absurd member List.not_mem_nil
  | build earlier carried accepted ih =>
      have before := ih fun call member => kept call (List.mem_append_left _ member)
      have last := kept _ (List.mem_append_right _ (List.mem_singleton_self _))
      exact admin_granted_call before (fun name mount member => carried.stored_mounts member) last
  | add earlier accepted ih =>
      have before := ih fun call member => kept call (List.mem_append_left _ member)
      have last := kept _ (List.mem_append_right _ (List.mem_singleton_self _))
      intro service member
      rcases List.mem_append.mp member with old | new
      · exact before.later service old
      · exact admin_granted_call before (fun name mount inNone => absurd inNone List.not_mem_nil)
          last service new
  | delete earlier left ih =>
      intro service member
      exact ih kept service (left.subset member)

end Edited

/-- In every sequence of accepted calls, those of others keep the host paths they found
exactly when their requests ask for no other target and for no writes; and then an admin has
granted every host path there is. -/
theorem host_mounts_granted_iff {crates : Crates} {appId : Uuid} {calls : List EditCall}
    {services : List ContainerService} (edited : Edited crates appId calls services) :
    ((∀ call ∈ calls, call.isAdmin = false → HostMountsKept call.existing call.services) ↔
      ∀ call ∈ calls, call.isAdmin = false →
        ∀ request ∈ call.requests, AsksNoMore call.existing request) ∧
    ((∀ call ∈ calls, call.isAdmin = false →
        ∀ request ∈ call.requests, AsksNoMore call.existing request) →
      AdminGranted calls services) := by
  have each : (∀ call ∈ calls, call.isAdmin = false → HostMountsKept call.existing call.services) ↔
      ∀ call ∈ calls, call.isAdmin = false →
        ∀ request ∈ call.requests, AsksNoMore call.existing request := by
    apply forall₂_congr
    intro call member
    exact imp_congr Iff.rfl (edited.rounds member).host_mounts_iff
  exact ⟨each, fun asks => edited.admin_granted (each.mpr asks)⟩

/-- The services a call of an admin or of someone else returns when nothing fails. -/
def demoEdited (existing : List ContainerService) (request : ServiceRequest) (isAdmin : Bool) :
    Option (List ContainerService) :=
  ((buildServices demoCrates ⟨1⟩ existing [request] isAdmin).run.run system calm
    World.empty).1.toOption

variable {services : List ContainerService}

theorem demo_edited_yields {request : ServiceRequest} {isAdmin : Bool}
    (built : demoEdited existing request isAdmin = some services) :
    (buildServices demoCrates ⟨1⟩ existing [request] isAdmin).run.Yields (.ok services) := by
  have run := runs_run system calm calm_admitted
    (buildServices demoCrates ⟨1⟩ existing [request] isAdmin).run World.empty
  rw [← ok_of_to_option built]
  exact run.yields

def demoMountRequest (target : String) (readOnly : Bool) : ServiceRequest :=
  { demoServiceRequest "files" with
    mounts := some [⟨"host", target, some readOnly, some "/srv", none⟩] }

def demoMounted (target : String) (readOnly : Bool) : ContainerService :=
  { ContainerService.new ⟨1⟩ 0 ⟨1⟩ "files" "nginx" 80 with
    mounts := [⟨"host", target, readOnly, some "/srv", false⟩] }

/-- An admin mounts the path read only, and someone else sends that mount back. -/
theorem demo_edited {target : String} {readOnly : Bool}
    (built : demoEdited [demoMounted "/files" true] (demoMountRequest target readOnly) false =
      some services) : Edited demoCrates ⟨1⟩
      [⟨⟨[], [demoMountRequest "/files" true], [demoMounted "/files" true]⟩, true⟩,
        ⟨⟨[demoMounted "/files" true], [demoMountRequest target readOnly], services⟩, false⟩]
      services := by
  have first : demoEdited [] (demoMountRequest "/files" true) true =
      some [demoMounted "/files" true] := by decide +kernel
  exact .build (.build .none .nil (demo_edited_yields first)) (renamed_refl _)
    (demo_edited_yields built)

/-- A mount that is sent back as it was stays within what the admin granted. -/
theorem host_mount_sent_back :
    ∃ calls services, Edited demoCrates ⟨1⟩ calls services ∧
      services = [demoMounted "/files" true] ∧ (∃ call ∈ calls, call.isAdmin = false) ∧
      AdminGranted calls services := by
  have built : demoEdited [demoMounted "/files" true] (demoMountRequest "/files" true) false =
      some [demoMounted "/files" true] := by decide +kernel
  have edited := demo_edited built
  refine ⟨_, _, edited, rfl, ⟨_, List.mem_cons_of_mem _ (List.mem_singleton_self _), rfl⟩, ?_⟩
  apply (host_mounts_granted_iff edited).2
  intro call member notAdmin request asked
  rcases List.mem_cons.mp member with first | second
  · rw [first] at notAdmin
    cases notAdmin
  · rw [List.mem_singleton.mp second] at asked ⊢
    rw [List.mem_singleton.mp asked]
    intro mount inMounts path normal
    rw [List.mem_singleton.mp inMounts] at normal ⊢
    have same : path = "/srv" := (Option.some.inj (Except.ok.inj normal)).symm
    rw [same]
    exact ⟨⟨"host", "/files", true, some "/srv", false⟩, List.mem_singleton_self _, rfl, by decide,
      fun _ => rfl⟩

/-- Sent back to be written, and at another target, it is accepted too. -/
theorem host_mount_becomes_writable :
    ∃ calls services, Edited demoCrates ⟨1⟩ calls services ∧ ∃ call ∈ calls,
      call.isAdmin = false ∧ call.existing = [demoMounted "/files" true] ∧
      call.services = [demoMounted "/etc" false] ∧
      ¬HostMountsKept call.existing call.services ∧ ¬AdminGranted calls services := by
  have built : demoEdited [demoMounted "/files" true] (demoMountRequest "/etc" false) false =
      some [demoMounted "/etc" false] := by decide +kernel
  have unlike : ∀ mount, mount ∈ (demoMounted "/files" true).mounts →
      ¬Grants mount ⟨"host", "/etc", false, some "/srv", false⟩ := by
    intro mount member grants
    rw [List.mem_singleton.mp member] at grants
    cases grants.noWrites rfl
  refine ⟨_, _, demo_edited built, _, List.mem_cons_of_mem _ (List.mem_singleton_self _), rfl, rfl,
    rfl, ?_, ?_⟩
  · intro kept
    obtain ⟨mount, member, grants⟩ := kept _ (List.mem_singleton_self _) _
      (List.mem_singleton_self _) rfl
    exact unlike mount member grants
  · intro granted
    obtain ⟨call, member, isAdmin, owner, built, mount, inMounts, grants⟩ :=
      granted _ (List.mem_singleton_self _) _ (List.mem_singleton_self _) rfl
    rcases List.mem_cons.mp member with first | second
    · rw [first] at built
      rw [List.mem_singleton.mp built] at inMounts
      exact unlike mount inMounts grants
    · rw [List.mem_singleton.mp second] at isAdmin
      cases isAdmin

end Containr.Api
