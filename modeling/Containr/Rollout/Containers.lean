import Containr.Rollout.Frame

/-!
# Containers during a rollout

`Held containers base` describes the daemon exactly. Under an environment in which
removals work, `create_container` leaves what was there and at most its own
container, and `remove_container` takes the container of that name away.
-/

namespace Containr.Rollout

open Containr.Effect Containr.Effect.Program Containr.Worker

/-- Some behaviours of the world, among them no failed removal of a container that
exists. -/
structure Environment (can : Behaviour Effects World) : Prop where
  sound : ∀ op before answer after, can op before answer after → Possible op before answer after
  removes : ∀ name before answer after,
    can (.docker (.removeContainer name)) before answer after →
      before.hasContainer name = true → after ≠ before

structure Held (containers : List Container) (base : Nat) (world : World) : Prop where
  same : world.containers = containers
  numbered : ∀ container ∈ containers, container.serial < world.nextSerial
  later : base ≤ world.nextSerial

def without (name : String) (containers : List Container) : List Container :=
  containers.filter (·.name ≠ name)

theorem without_absent {name : String} {containers : List Container}
    (absent : ∀ container ∈ containers, container.name ≠ name) :
    without name containers = containers := by
  unfold without
  rw [List.filter_eq_self]
  intro container member
  simpa using absent container member

theorem without_append (name : String) (first second : List Container) :
    without name (first ++ second) = without name first ++ without name second :=
  List.filter_append _ _

theorem without_set_running (name : String) (containers : List Container) (value : Bool) :
    without name (setRunning (·.name = name) value containers) = without name containers := by
  unfold without setRunning
  induction containers with
  | nil => rfl
  | cons container rest ih =>
      rw [List.map_cons]
      by_cases same : container.name = name
      · simpa [same] using ih
      · simpa [same] using ih

theorem has_container_iff (world : World) (name : String) :
    world.hasContainer name = true ↔ ∃ container ∈ world.containers, container.name = name := by
  simp [World.hasContainer]

theorem environment_where {check : (op : Op) → op.Choice → World → Bool}
    (removes : ∀ name fault world,
      check (.docker (.removeContainer name)) fault world = true → fault = none) :
    Environment (systemWhere check).can where
  sound _ _ _ _ can := where_possible can
  removes name before answer after can present := by
    obtain ⟨fault, ⟨-, allowed⟩, result⟩ := can
    have noFault : fault = none := removes name fault before allowed
    subst noFault
    have served : before.removeContainer name = (answer, after) := result
    rcases before.remove_container_cases name with ⟨absent, -⟩ | ⟨-, removed⟩
    · rw [absent] at present
      cases present
    · rw [removed] at served
      cases served
      intro same
      obtain ⟨container, member, named⟩ := (has_container_iff before name).mp present
      have kept : before.containers.filter (·.name ≠ name) = before.containers :=
        congrArg World.containers same
      rw [← kept] at member
      simp [named] at member

/-- The container `create_container` makes. -/
def Created (config : DockerContainerConfig) (base : Nat) (container : Container) : Prop :=
  container.name = config.id ∧ container.body = .service config ∧ base ≤ container.serial

theorem set_running_other {containers : List Container} {serial : Nat} (value : Bool)
    (numbered : ∀ container ∈ containers, container.serial < serial) :
    setRunning (·.serial = serial) value containers = containers := by
  have each : ∀ container ∈ containers,
      (if container.serial = serial then { container with running := value } else container) =
        id container := by
    intro container member
    rw [if_neg (Nat.ne_of_lt (numbered container member))]
    rfl
  unfold setRunning
  simp only [decide_eq_true_eq]
  rw [List.map_congr_left each, List.map_id]

section Docker

variable {can : Behaviour Effects World} (environment : Environment can) {containers : List Container}
  {base : Nat} {world : World}

theorem held_of_quietly {after : World} (held : Held containers base world)
    (quietly : Quietly world after) : Held containers base after := by
  constructor
  · rw [quietly.containers, held.same]
  · rw [quietly.serial]
    exact held.numbered
  · rw [quietly.serial]
    exact held.later

theorem held_of_create (name : String) (body : ContainerBody) (held : Held containers base world) :
    Held (containers ++ [⟨world.nextSerial, name, body, false⟩]) base { world with
      containers := world.containers ++ [⟨world.nextSerial, name, body, false⟩]
      nextSerial := world.nextSerial + 1 } := by
  constructor
  · rw [held.same]
  · intro container member
    rcases List.mem_append.mp member with old | new
    · exact Nat.lt_succ_of_lt (held.numbered container old)
    · rw [List.mem_singleton.mp new]
      exact Nat.lt_succ_self _
  · exact Nat.le_succ_of_le held.later

include environment

theorem quiet_holds {Value : Type} {program : Sys Value} (quiet : program.Calls Op.Quiet)
    (held : Held containers base world) :
    program.Ensures can (fun _ after => Held containers base after) world :=
  (quiet_ensures environment.sound quiet world).mono fun _ _ => held_of_quietly held

theorem remove_request_holds (name : String) (held : Held containers base world) :
    (ignore (docker (.removeContainer name))).Ensures can
      (fun _ after => Held (without name containers) base after) world := by
  apply ignore_always.mpr
  apply always_op trivial
  intro answer after possible
  have kept : ∀ container ∈ without name containers, container.serial < world.nextSerial := by
    intro container member
    exact held.numbered container (List.mem_filter.mp member).1
  rcases possible_remove (environment.sound _ _ _ _ possible) with rfl | rfl
  · have absent : ∀ container ∈ containers, container.name ≠ name := by
      intro container member same
      apply environment.removes name _ answer _ possible _ rfl
      rw [has_container_iff, held.same]
      exact ⟨container, member, same⟩
    rw [without_absent absent]
    exact held
  · exact ⟨congrArg (without name) held.same, kept, held.later⟩

theorem stop_container_holds (name : String) (held : Held containers base world) :
    (stopContainer name).Ensures can (fun _ after =>
      Held containers base after ∨
        Held (setRunning (·.name = name) false containers) base after) world := by
  apply ignore_always.mpr
  apply always_op trivial
  intro answer after possible
  rcases possible_stop (environment.sound _ _ _ _ possible) with rfl | rfl
  · exact Or.inl held
  · right
    refine ⟨congrArg (setRunning _ false) held.same, ?_, held.later⟩
    intro container member
    obtain ⟨source, inList, shape⟩ := List.mem_map.mp member
    rw [← shape]
    split
    · exact held.numbered source inList
    · exact held.numbered source inList

theorem remove_container_holds (name : String) (held : Held containers base world) :
    (removeContainer name).Ensures can
      (fun _ after => Held (without name containers) base after) world := by
  unfold removeContainer
  apply (stop_container_holds environment name held).bind
  intro _ after stopped
  rcases stopped with same | switched
  · exact remove_request_holds environment name same
  · have removed := remove_request_holds environment name switched
    rw [without_set_running] at removed
    exact removed

/-- Stopping a container before it is removed makes no difference afterwards. -/
theorem stop_remove_holds (name : String) (held : Held containers base world) :
    ((stopContainer name).bind fun _ => removeContainer name).Ensures can
      (fun _ after => Held (without name containers) base after) world := by
  apply (stop_container_holds environment name held).bind
  intro _ after stopped
  rcases stopped with same | switched
  · exact remove_container_holds environment name same
  · have removed := remove_container_holds environment name switched
    rw [without_set_running] at removed
    exact removed

theorem external_holds (action : External) (held : Held containers base world) :
    (external action).Ensures can (fun _ after => Held containers base after) world :=
  quiet_holds environment (external_quiet action) held

/-- The helper container is created and taken away again. -/
theorem copy_seed_holds {helper : String} (image target archive source : String)
    (absent : ∀ container ∈ containers, container.name ≠ helper)
    (held : Held containers base world) :
    (copySeed helper image target archive source).run.Ensures can
      (fun _ after => Held containers base after) world := by
  unfold copySeed
  apply (remove_request_holds environment helper held).run_lift_bind
  intro _ cleared still
  rw [without_absent absent] at still
  apply always_run_bind.mpr
  apply always_op trivial
  intro answer created possible
  rcases possible_create (environment.sound _ _ _ _ possible) with
    ⟨rfl, message, rfl⟩ | ⟨-, rfl, rfl⟩
  · exact still
  have helperHeld := held_of_create helper (.seed image) still
  apply (external_holds environment _ helperHeld).run_lift_bind
  intro downloaded _ kept
  apply (remove_request_holds environment helper kept).run_lift_bind
  intro _ after removed
  have gone : without helper (containers ++ [⟨cleared.nextSerial, helper, .seed image, false⟩]) =
      containers := by
    rw [without_append, without_absent absent]
    simp [without]
  rw [gone] at removed
  have cleans : (ignore (ExceptT.mk (external (.removeFile archive)))).Calls Op.Quiet :=
    ignore_calls (external_quiet _)
  rcases downloaded with message | found
  · apply (quiet_holds environment cleans removed).run_lift_bind
    intro _ _ kept
    exact always_run_throw.mpr kept
  · cases found with
    | true =>
        apply (external_holds environment _ removed).run_lift_bind
        intro unpacked _ kept
        apply (quiet_holds environment cleans kept).run_lift_bind
        intro _ _ kept
        exact always_pure.mpr kept
    | false =>
        apply (quiet_holds environment cleans removed).run_lift_bind
        intro _ _ kept
        exact always_run_pure.mpr kept

theorem seed_bind_mount_holds {containerId : String} (image : String) (mount : DockerBindMount)
    (absent : ∀ container ∈ containers, container.name ≠ seedHelperName containerId)
    (held : Held containers base world) :
    (seedBindMount containerId image mount).Ensures can
      (fun _ after => Held containers base after) world := by
  apply ignore_always.mpr
  unfold trySeedBindMount
  dsimp only
  split
  · exact always_run_pure.mpr held
  · apply (external_holds environment _ held).run_bind
    intro isEmpty _ kept
    rcases isEmpty with message | isEmpty
    · exact kept
    dsimp only
    split
    · exact always_run_pure.mpr kept
    · split
      · exact always_run_pure.mpr kept
      · exact copy_seed_holds environment _ _ _ _ absent kept

/-- Either nothing was created, or one container; it runs when the call succeeds. -/
theorem create_container_holds (config : DockerContainerConfig)
    (absent : ∀ container ∈ containers, container.name ≠ seedHelperName config.id)
    (held : Held containers base world) :
    (createContainer config).run.Ensures can (fun result after =>
      (Held containers base after ∧ ∃ message, result = .error message) ∨
        ∃ container, Held (containers ++ [container]) base after ∧ Created config base container ∧
          ∀ name, result = .ok name → name = config.id ∧ container.running = true) world := by
  unfold createContainer createContainerAs
  apply always_run_lift_bind.mpr
  have seeded : (forAll (seedBindMount config.id config.image)
      (config.mounts.filter (·.seedFromImage))).Ensures can
        (fun _ after => Held containers base after) world := by
    apply always_for_all (fun _ after => Held containers base after) _ []
    · exact held
    · exact fun _ kept => kept
    · intro _ mount _ _ _ kept
      exact seed_bind_mount_holds environment config.image mount absent kept
  apply seeded.mono
  intro _ ready kept
  apply always_run_bind.mpr
  apply always_op trivial
  intro answer created possible
  rcases possible_create (environment.sound _ _ _ _ possible) with
    ⟨rfl, message, rfl⟩ | ⟨-, rfl, rfl⟩
  · exact Or.inl ⟨kept, message, rfl⟩
  have isNew : ∀ running, Created config base ⟨ready.nextSerial, config.id, .service config, running⟩ :=
    fun _ => ⟨rfl, rfl, kept.later⟩
  have createdHeld := held_of_create config.id (.service config) kept
  apply always_run_bind.mpr
  have connects : (connectNetworks ready.nextSerial config.additionalNetworks).run.Calls Op.Quiet :=
    calls_for_each _ fun network _ => external_quiet _
  apply (quiet_holds environment connects createdHeld).mono
  intro connected next stillHeld
  rcases connected with message | _
  · right
    refine ⟨_, stillHeld, isNew false, ?_⟩
    intro name absurd
    cases absurd
  apply always_run_bind.mpr
  apply always_op trivial
  intro answer started possible
  rcases possible_start (environment.sound _ _ _ _ possible) with ⟨rfl, message, rfl⟩ | ⟨rfl, rfl⟩
  · right
    refine ⟨_, stillHeld, isNew false, ?_⟩
    intro name absurd
    cases absurd
  · apply always_run_pure.mpr
    right
    refine ⟨⟨ready.nextSerial, config.id, .service config, true⟩, ?_, isNew true, ?_⟩
    · have runs : setRunning (·.serial = ready.nextSerial) true
          (containers ++ [⟨ready.nextSerial, config.id, .service config, false⟩]) =
          containers ++ [⟨ready.nextSerial, config.id, .service config, true⟩] := by
        have others := set_running_other true kept.numbered
        unfold setRunning at others ⊢
        rw [List.map_append, others]
        simp
      refine ⟨?_, ?_, stillHeld.later⟩
      · rw [← runs]
        exact congrArg (setRunning _ true) stillHeld.same
      · intro container member
        rcases List.mem_append.mp member with old | new
        · exact stillHeld.numbered container (List.mem_append_left _ old)
        · rw [List.mem_singleton.mp new]
          exact stillHeld.numbered ⟨ready.nextSerial, config.id, .service config, false⟩
            (List.mem_append_right _ (List.mem_singleton_self _))
    · intro name same
      cases same
      exact ⟨rfl, rfl⟩

end Docker

end Containr.Rollout
