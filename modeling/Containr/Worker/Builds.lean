import Containr.Api.Identity

/-!
# The builds of one `build_service_images` call

Services built from source share an image when the text of their cache key is the
same, and every other build writes the tag made of the name of its service. `firsts`
picks the services that are built: the first of each key. No two builds are confused
exactly when equal keys mean equal configurations and the tags of the built services
differ.
-/

namespace Containr.Worker

open Containr.Effect Containr.Effect.Program

/-- What the checkout answers; it does not change during the call. -/
structure SourceTree where
  pathExists : String → Bool
  isDir : String → Bool
  isFile : String → Bool
  canonicalize : String → Except String String

def SourceTree.oracle (tree : SourceTree) : (op : Op) → op.Answer
  | .external (.pathExists path) => tree.pathExists path
  | .external (.isDir path) => tree.isDir path
  | .external (.isFile path) => tree.isFile path
  | .external (.canonicalize path) => tree.canonicalize path
  | op => (op.exec (calm op World.empty) World.empty).1

def Asked (op : Op) : Prop := ∃ action : External, action.AsksTree ∧ op = .external action

abbrev Build : Type := String × ImageBuildConfig

def completed : (op : Op) → op.Answer → List Build
  | .external (.buildImage name config), (_, .ok ()) => [(name, config)]
  | _, _ => []

def building (tree : SourceTree) : Machine Effects (World × List Build) where
  Choice := Op.Choice
  exec op choice state :=
    let result := op.exec choice state.1
    (result.1, result.2, state.2 ++ completed op result.1)
  Admits op choice state :=
    op.Admits choice state.1 ∧ (Asked op → (op.exec choice state.1).1 = tree.oracle op)

/-- The arguments of `build_service_images` and the checkout it works on. -/
structure BuildCall where
  tree : SourceTree
  app : App
  deployment : Deployment
  repoPath : Option String
  commitSha : String
  localTarget : Option Uuid

namespace BuildCall

variable (call : BuildCall)

def program : Fallible ServiceImages :=
  buildServiceImages call.app call.deployment call.repoPath call.commitSha call.localTarget

def isLocal (service : ContainerService) : Bool := decide (call.localTarget = some service.id)

def fromSource (service : ContainerService) : Bool :=
  call.isLocal service || call.localTarget.isNone && service.image.isEmpty

def sources : List ContainerService := call.app.services.filter call.fromSource

def configOf (service : ContainerService) : Except String ImageBuildConfig :=
  (buildConfig call.repoPath (call.isLocal service) service).run.evaluate call.tree.oracle

def keyOf (service : ContainerService) : String :=
  match call.configOf service with
  | .ok config => serviceBuildCacheKey service config
  | .error _ => ""

def nameOf (service : ContainerService) : String :=
  imageName call.app call.deployment call.commitSha service

def SameBuild (first second : ContainerService) : Prop :=
  ∃ left right, call.configOf first = .ok left ∧ call.configOf second = .ok right ∧
    left.contextPath = right.contextPath ∧ left.dockerfile = right.dockerfile ∧
      left.target = right.target ∧
        (first.buildArgs.map fun arg => (arg.key, arg.value)).Perm
          (second.buildArgs.map fun arg => (arg.key, arg.value))

/-- Services share a built image only with the same build, and no tag is written twice. -/
structure NeverConfused (images : ServiceImages) (log : List Build) : Prop where
  shared : ∀ first ∈ call.sources, ∀ second ∈ call.sources,
    images.get first.id = images.get second.id → call.SameBuild first second
  written : (log.map Prod.fst).Nodup

structure Unconfusable : Prop where
  keys : ∀ first ∈ call.sources, ∀ second ∈ call.sources,
    call.keyOf first = call.keyOf second → call.SameBuild first second
  tags : ((firsts call.keyOf call.sources).map call.nameOf).Nodup

end BuildCall

section Calls

variable {tree : SourceTree} {Value : Type}

def BuildsNothing (op : Op) : Prop := ∀ name config, op ≠ .external (.buildImage name config)

theorem completed_of_builds_nothing {op : Op} {answer : op.Answer} (nothing : BuildsNothing op) :
    completed op answer = [] := by
  unfold completed
  split
  · exact absurd rfl (nothing _ _)
  · rfl

theorem asked_answers {op : Op} {before after : World × List Build} {answer : op.Answer}
    (asked : Asked op) (possible : (building tree).can op before answer after) :
    answer = tree.oracle op ∧ after = before := by
  obtain ⟨choice, ⟨-, answers⟩, result⟩ := possible
  have follows := answers asked
  obtain ⟨action, asks, rfl⟩ := asked
  cases result
  refine ⟨follows, ?_⟩
  have nothing : BuildsNothing (.external action) := by
    rintro name config same
    cases same
    exact asks
  have logged := @completed_of_builds_nothing _ (Op.exec (.external action) choice before.1).1 nothing
  rw [logged, List.append_nil]
  rfl

theorem log_kept {program : Sys Value} (calls : program.Calls BuildsNothing)
    (state : World × List Build) :
    program.Ensures (building tree).can (fun _ after => after.2 = state.2) state := by
  have kept : program.Always (building tree).can (fun _ op => BuildsNothing op)
      (fun _ after => after.2 = state.2) state := by
    apply calls.always
    · rintro op before answer after nothing held ⟨choice, -, result⟩
      cases result
      dsimp only
      rw [completed_of_builds_nothing nothing, List.append_nil]
      exact held
    · rfl
  exact kept.restrict (fun _ _ _ _ can => can) fun _ _ _ => trivial

theorem config_ensures (call : BuildCall) (service : ContainerService)
    (state : World × List Build) :
    (buildConfig call.repoPath (call.isLocal service) service).run.Ensures (building call.tree).can
      (fun result after => result = call.configOf service ∧ after = state) state := by
  have asks : (buildConfig call.repoPath (call.isLocal service) service).run.Calls Asked :=
    build_config_calls (fun action asks => ⟨action, asks, rfl⟩) _ _ _
  exact asks.evaluates (fun _ _ _ _ asked possible => asked_answers asked possible) state

theorem log_builds_nothing (id : Uuid) (line : String) :
    (ignore (Store.appendDeploymentLog id line)).Calls BuildsNothing := by
  apply ignore_calls
  apply op_calls
  intro name config same
  cases same

theorem previous_image_builds_nothing (appId current : Uuid) (service : ContainerService) :
    (previousServiceImage appId current service).run.Calls BuildsNothing := by
  unfold previousServiceImage
  apply Calls.run_bind
  · apply Calls.run_bind
    · apply op_calls
      intro name config same
      cases same
    intro rows
    apply with_service_deployments_calls
    intro id name config same
    cases same
  intro deployments
  dsimp only
  split
  · exact calls_pure _
  · exact calls_pure _

theorem build_image_ensures (name : String) (config : ImageBuildConfig)
    (state : World × List Build) :
    (external (.buildImage name config)).Ensures (building tree).can (fun answer after =>
      answer.2 = .ok () → after.2 = state.2 ++ [(name, config)]) state := by
  apply always_op trivial
  rintro ⟨lines, outcome⟩ after ⟨choice, -, result⟩ built
  cases result
  dsimp only at built
  subst built
  rfl

end Calls

/-- What is known after some of the services. -/
structure BuiltSoFar (call : BuildCall) (done : List ContainerService) (built : Built)
    (log : List Build) : Prop where
  logged : log.map Prod.fst =
    (firsts call.keyOf (done.filter call.fromSource)).map call.nameOf
  byKey : built.byKey = (firsts call.keyOf (done.filter call.fromSource)).map fun service =>
    (call.keyOf service, call.nameOf service)
  images : ∀ service ∈ done, call.fromSource service = true →
    ∃ first ∈ firsts call.keyOf (done.filter call.fromSource),
      call.keyOf first = call.keyOf service ∧
        built.images.get service.id = some (call.nameOf first)

section Loop

variable {call : BuildCall} {done : List ContainerService} {built : Built} {log : List Build}
  {service : ContainerService}

theorem BuiltSoFar.skip (known : BuiltSoFar call done built log)
    (notBuilt : call.fromSource service = false) (new : ∀ other ∈ done, other.id ≠ service.id)
    (image : String) :
    BuiltSoFar call (done ++ [service]) { built with images := built.images.insert service.id image }
      log := by
  have same : (done ++ [service]).filter call.fromSource = done.filter call.fromSource := by
    simp [List.filter_append, notBuilt]
  constructor
  · rw [same]
    exact known.logged
  · rw [same]
    exact known.byKey
  · rw [same]
    intro other member isBuilt
    rcases List.mem_append.mp member with earlier | last
    · obtain ⟨first, inFirsts, sameKey, found⟩ := known.images other earlier isBuilt
      refine ⟨first, inFirsts, sameKey, ?_⟩
      rw [images_get_insert, if_neg (new other earlier)]
      exact found
    · rw [List.mem_singleton.mp last, notBuilt] at isBuilt
      cases isBuilt

theorem filter_built (isBuilt : call.fromSource service = true) :
    (done ++ [service]).filter call.fromSource = done.filter call.fromSource ++ [service] := by
  simp [List.filter_append, isBuilt]

theorem BuiltSoFar.share (known : BuiltSoFar call done built log)
    (isBuilt : call.fromSource service = true) (new : ∀ other ∈ done, other.id ≠ service.id)
    {first : ContainerService}
    (inFirsts : first ∈ firsts call.keyOf (done.filter call.fromSource))
    (sameKey : call.keyOf first = call.keyOf service) :
    BuiltSoFar call (done ++ [service])
      { built with images := built.images.insert service.id (call.nameOf first) } log := by
  have same : firsts call.keyOf ((done ++ [service]).filter call.fromSource) =
      firsts call.keyOf (done.filter call.fromSource) := by
    rw [filter_built isBuilt, firsts_append, keep_first_old _ inFirsts sameKey]
  constructor
  · rw [same]
    exact known.logged
  · rw [same]
    exact known.byKey
  · rw [same]
    intro other member otherBuilt
    rcases List.mem_append.mp member with earlier | last
    · obtain ⟨source, inSources, key, found⟩ := known.images other earlier otherBuilt
      refine ⟨source, inSources, key, ?_⟩
      rw [images_get_insert, if_neg (new other earlier)]
      exact found
    · rw [List.mem_singleton.mp last]
      exact ⟨first, inFirsts, sameKey, by rw [images_get_insert, if_pos rfl]⟩

theorem BuiltSoFar.build (known : BuiltSoFar call done built log)
    (isBuilt : call.fromSource service = true) (new : ∀ other ∈ done, other.id ≠ service.id)
    (absent : ∀ first ∈ firsts call.keyOf (done.filter call.fromSource),
      call.keyOf first ≠ call.keyOf service) (config : ImageBuildConfig) :
    BuiltSoFar call (done ++ [service])
      ⟨built.images.insert service.id (call.nameOf service),
        upsert Prod.fst (call.keyOf service, call.nameOf service) built.byKey⟩
      (log ++ [(call.nameOf service, config)]) := by
  have grown : firsts call.keyOf ((done ++ [service]).filter call.fromSource) =
      firsts call.keyOf (done.filter call.fromSource) ++ [service] := by
    rw [filter_built isBuilt, firsts_append, keep_first_new _ absent]
  constructor
  · rw [grown, List.map_append, List.map_append, known.logged]
    rfl
  · have newKey : ∀ entry ∈ built.byKey, entry.1 ≠ call.keyOf service := by
      rw [known.byKey]
      intro entry member
      obtain ⟨first, inFirsts, rfl⟩ := List.mem_map.mp member
      exact absent first inFirsts
    rw [grown, List.map_append, ← known.byKey]
    exact upsert_new _ _ _ newKey
  · rw [grown]
    intro other member otherBuilt
    rcases List.mem_append.mp member with earlier | last
    · obtain ⟨source, inSources, key, found⟩ := known.images other earlier otherBuilt
      refine ⟨source, List.mem_append_left _ inSources, key, ?_⟩
      rw [images_get_insert, if_neg (new other earlier)]
      exact found
    · rw [List.mem_singleton.mp last]
      refine ⟨service, List.mem_append_right _ List.mem_cons_self, rfl, ?_⟩
      rw [images_get_insert, if_pos rfl]

theorem build_from_source_ensures (known : BuiltSoFar call done built log)
    (isBuilt : call.fromSource service = true) (new : ∀ other ∈ done, other.id ≠ service.id)
    (world : World) :
    (buildFromSource call.app call.deployment call.repoPath call.commitSha (call.isLocal service)
      built service).run.Ensures (building call.tree).can (fun result after =>
        ∀ next, result = .ok next → BuiltSoFar call (done ++ [service]) next after.2)
      (world, log) := by
  unfold buildFromSource
  apply (config_ensures call service _).run_bind
  rintro result after ⟨resolved, rfl⟩
  cases result with
  | error message =>
      intro next absurd
      cases absurd
  | ok config =>
      have key : serviceBuildCacheKey service config = call.keyOf service := by
        unfold BuildCall.keyOf
        rw [← resolved]
      dsimp only
      rw [key]
      cases found : lookup Prod.fst (call.keyOf service) built.byKey with
      | some entry =>
          obtain ⟨member, sameKey⟩ := lookup_eq_some_mem found
          rw [known.byKey] at member
          obtain ⟨first, inFirsts, rfl⟩ := List.mem_map.mp member
          apply always_run_pure.mpr
          intro next same
          cases same
          exact known.share isBuilt new inFirsts sameKey
      | none =>
          have absent : ∀ first ∈ firsts call.keyOf (done.filter call.fromSource),
              call.keyOf first ≠ call.keyOf service := by
            intro first inFirsts same
            have stored : (call.keyOf first, call.nameOf first) ∈ built.byKey := by
              rw [known.byKey]
              exact List.mem_map.mpr ⟨first, inFirsts, rfl⟩
            have other := List.find?_eq_none.mp found _ stored
            exact other (decide_eq_true same)
          dsimp only
          apply (log_kept (log_builds_nothing _ _) _).run_lift_bind
          intro _ announced keptAnnounced
          apply (build_image_ensures _ config _).run_lift_bind
          rintro ⟨lines, outcome⟩ after logged
          apply always_run_lift_bind.mpr
          have logs : (Program.forAll (fun line => ignore (Store.appendDeploymentLog
              call.deployment.id line)) lines).Calls BuildsNothing :=
            calls_for_all _ fun line _ => log_builds_nothing _ _
          apply (log_kept logs _).mono
          intro _ final keptFinal
          apply always_run_bind.mpr
          apply always_pure.mpr
          cases outcome with
          | error message =>
              intro next absurd
              cases absurd
          | ok _ =>
              apply always_run_pure.mpr
              intro next same
              cases same
              rw [keptFinal, logged rfl, keptAnnounced]
              exact known.build isBuilt new absent config

theorem build_service_ensures (known : BuiltSoFar call done built log)
    (new : ∀ other ∈ done, other.id ≠ service.id) (world : World) :
    (buildServiceImage call.app call.deployment call.repoPath call.commitSha call.localTarget built
      service).run.Ensures (building call.tree).can (fun result after =>
        ∀ next, result = .ok next → BuiltSoFar call (done ++ [service]) next after.2)
      (world, log) := by
  unfold buildServiceImage
  have local_iff : call.isLocal service = decide (call.localTarget = some service.id) := rfl
  have built_iff : call.fromSource service =
      (call.isLocal service || call.localTarget.isNone && service.image.isEmpty) := rfl
  have skips : ∀ image : String, call.fromSource service = false →
      ∀ after : World × List Build, after.2 = log →
        (Pure.pure { built with images := built.images.insert service.id image } :
          Fallible Built).run.Ensures (building call.tree).can (fun result after =>
            ∀ next, result = .ok next → BuiltSoFar call (done ++ [service]) next after.2) after := by
    rintro image notBuilt after same
    apply always_run_pure.mpr
    intro next isNext
    cases isNext
    rw [same]
    exact known.skip notBuilt new image
  dsimp only
  rw [← local_iff]
  split
  · rename_i sibling
    rw [Bool.and_eq_true, Bool.not_eq_true'] at sibling
    have notBuilt : call.fromSource service = false := by
      rw [built_iff, sibling.2, Option.isNone_eq_false_iff.mpr sibling.1]
      rfl
    split
    · apply (log_kept (previous_image_builds_nothing _ _ _) _).run_bind
      intro result after kept
      cases result with
      | error message =>
          intro next absurd
          cases absurd
      | ok image => exact skips image notBuilt after kept
    · exact skips service.image notBuilt _ rfl
  · rename_i notSibling
    split
    · rename_i configured
      rw [Bool.and_eq_true, Bool.not_eq_true', Bool.not_eq_true'] at configured
      apply skips service.image _ _ rfl
      rw [built_iff, configured.1, configured.2]
      simp
    · rename_i notConfigured
      apply build_from_source_ensures known _ new world
      rw [built_iff]
      cases isLocal : call.isLocal service with
      | true => rfl
      | false =>
          have unnamed : call.localTarget.isNone = true := by simpa [isLocal] using notSibling
          have empty : service.image.isEmpty = true := by simpa [isLocal] using notConfigured
          rw [unnamed, empty]
          rfl

theorem built_nothing : BuiltSoFar call [] ⟨[], []⟩ [] where
  logged := rfl
  byKey := rfl
  images _ member := absurd member List.not_mem_nil

theorem build_service_images_ensures (distinct : (call.app.services.map (·.id)).Nodup)
    (world : World) :
    call.program.run.Ensures (building call.tree).can (fun result after => ∀ images,
      result = .ok images → ∃ byKey, BuiltSoFar call call.app.services ⟨images, byKey⟩ after.2)
      (world, []) := by
  unfold BuildCall.program buildServiceImages
  apply (log_kept (ensure_calls _ _) _).run_bind
  intro checked start kept
  cases checked with
  | error message =>
      intro images absurd
      cases absurd
  | ok _ =>
      apply always_run_bind.mpr
      apply always_run_foldlM (fun done built state => BuiltSoFar call done built state.2)
        call.app.services []
      · rw [kept]
        exact built_nothing
      · intro built state known
        apply always_run_pure.mpr
        intro images same
        cases same
        exact ⟨built.byKey, known⟩
      · intro before service after built state split known
        have new : ∀ other ∈ before, other.id ≠ service.id := by
          intro other member same
          rw [split, List.map_append, List.map_cons, List.nodup_append] at distinct
          exact distinct.2.2 other.id (List.mem_map_of_mem member) service.id List.mem_cons_self same
        apply (build_service_ensures known new state.1).mono
        intro result next reached
        cases result with
        | error message =>
            intro images absurd
            cases absurd
        | ok built => exact reached built rfl

end Loop

section Confused

variable {call : BuildCall} {images : ServiceImages} {byKey : List (String × String)}
  {log : List Build}

theorem firsts_eq_of_key {first second : ContainerService}
    (inFirst : first ∈ firsts call.keyOf call.sources)
    (inSecond : second ∈ firsts call.keyOf call.sources)
    (same : call.keyOf first = call.keyOf second) : first = second :=
  List.inj_on_of_nodup_map (firsts_nodup _ _) inFirst inSecond same

theorem BuiltSoFar.image_of (known : BuiltSoFar call call.app.services ⟨images, byKey⟩ log)
    {service : ContainerService} (member : service ∈ call.sources) :
    ∃ first ∈ firsts call.keyOf call.sources, call.keyOf first = call.keyOf service ∧
      images.get service.id = some (call.nameOf first) :=
  known.images service (List.mem_filter.mp member).1 (List.mem_filter.mp member).2

theorem never_confused_iff (known : BuiltSoFar call call.app.services ⟨images, byKey⟩ log) :
    call.NeverConfused images log ↔ call.Unconfusable := by
  have tags : log.map Prod.fst = (firsts call.keyOf call.sources).map call.nameOf := known.logged
  constructor
  · intro held
    refine ⟨fun first inFirst second inSecond sameKey => ?_, tags ▸ held.written⟩
    obtain ⟨left, inLeft, leftKey, leftImage⟩ := known.image_of inFirst
    obtain ⟨right, inRight, rightKey, rightImage⟩ := known.image_of inSecond
    have same : left = right :=
      firsts_eq_of_key inLeft inRight (leftKey.trans (sameKey.trans rightKey.symm))
    apply held.shared first inFirst second inSecond
    rw [leftImage, rightImage, same]
  · intro held
    refine ⟨fun first inFirst second inSecond sameImage => ?_, tags.symm ▸ held.tags⟩
    obtain ⟨left, inLeft, leftKey, leftImage⟩ := known.image_of inFirst
    obtain ⟨right, inRight, rightKey, rightImage⟩ := known.image_of inSecond
    have sameName : call.nameOf left = call.nameOf right := by
      rw [leftImage, rightImage] at sameImage
      exact Option.some.inj sameImage
    have same : left = right := List.inj_on_of_nodup_map held.tags inLeft inRight sameName
    apply held.keys first inFirst second inSecond
    rw [← leftKey, ← rightKey, same]

/-- A successful call confuses no builds exactly when the keys and the tags of its
services keep them apart. -/
theorem builds_never_confused_iff (distinct : (call.app.services.map (·.id)).Nodup)
    {world final : World}
    (run : Runs (building call.tree).can call.program.run (world, []) (.ok images) (final, log)) :
    call.NeverConfused images log ↔ call.Unconfusable := by
  obtain ⟨byKey, known⟩ := (build_service_images_ensures distinct world).runs run images rfl
  exact never_confused_iff known

end Confused

/-- Every path exists, and is canonical. -/
def calmTree : SourceTree := ⟨fun _ => true, fun _ => true, fun _ => true, .ok⟩

def calmBuilding : (building calmTree).Policy := fun op state => calm op state.1

theorem calm_building_admitted (op : Op) (state : World × List Build) :
    (building calmTree).Admits op (calmBuilding op state) state := by
  refine ⟨calm_admitted op state.1, ?_⟩
  rintro ⟨action, asks, rfl⟩
  cases action with
  | pathExists path => rfl
  | isDir path => rfl
  | isFile path => rfl
  | canonicalize path => rfl
  | _ => exact asks.elim

/-- Both are built from source, each from a directory of its own. -/
def demoBuildRequests (first second : String) : List Api.ServiceRequest :=
  [{ Api.Services.demoServiceRequest first with image := none, buildContext := some "left" },
    { Api.Services.demoServiceRequest second with image := none, buildContext := some "right" }]

def demoBuildServices (first second : String) : Except ApiError (List ContainerService) × World :=
  (Api.buildServices Api.Services.demoCrates ⟨1⟩ [] (demoBuildRequests first second) false).run.run
    system calm World.empty

def demoBuildCall (services : List ContainerService) : BuildCall where
  tree := calmTree
  app := { demoApp with services := services }
  deployment := demoDeployment
  repoPath := some "/srv/checkout"
  commitSha := "main"
  localTarget := none

def demoBuilds (services : List ContainerService) : Except String ServiceImages × World × List Build :=
  (demoBuildCall services).program.run.run (building calmTree) calmBuilding (World.empty, [])

theorem demo_builds_run {services : List ContainerService} {images : ServiceImages}
    (built : (demoBuilds services).1 = .ok images) :
    Runs (building calmTree).can (demoBuildCall services).program.run (World.empty, []) (.ok images)
      (demoBuilds services).2 := by
  have run := runs_run (building calmTree) calmBuilding calm_building_admitted
    (demoBuildCall services).program.run (World.empty, [])
  rw [← built]
  exact run

/-- The services that a request with these two names is accepted with. -/
theorem demo_services_accepted (first second : String) {services : List ContainerService}
    (accepted : (demoBuildServices first second).1 = .ok services) :
    Runs Possible (Api.buildServices Api.Services.demoCrates ⟨1⟩ [] (demoBuildRequests first second)
      false).run World.empty (.ok services) (demoBuildServices first second).2 := by
  have run := runs_run system calm calm_admitted (Api.buildServices Api.Services.demoCrates ⟨1⟩ []
    (demoBuildRequests first second) false).run World.empty
  rw [← accepted]
  exact run

/-- `a b` and `a-b` are accepted, and the second build overwrites the tag of the first. -/
theorem builds_confused :
    ∃ services accepted images final log,
      Runs Possible (Api.buildServices Api.Services.demoCrates ⟨1⟩ [] (demoBuildRequests "a b" "a-b")
        false).run World.empty (.ok services) accepted ∧
      Runs (building calmTree).can (demoBuildCall services).program.run (World.empty, [])
        (.ok images) (final, log) ∧
      ¬(demoBuildCall services).NeverConfused images log := by
  have ran : ((demoBuildServices "a b" "a-b").1.toOption.bind fun services =>
      (demoBuilds services).1.toOption.map fun _ =>
        decide ((demoBuilds services).2.2.map Prod.fst).Nodup) = some false := by decide +kernel
  obtain ⟨services, isServices, rest⟩ := Option.bind_eq_some_iff.mp ran
  obtain ⟨images, isImages, twice⟩ := Option.map_eq_some_iff.mp rest
  refine ⟨services, _, images, (demoBuilds services).2.1, (demoBuilds services).2.2,
    demo_services_accepted "a b" "a-b" (ok_of_to_option isServices),
    demo_builds_run (ok_of_to_option isImages), fun held => ?_⟩
  exact of_decide_eq_false twice held.written

theorem builds_apart :
    ∃ services images final log,
      Runs (building calmTree).can (demoBuildCall services).program.run (World.empty, [])
        (.ok images) (final, log) ∧
      (log.map Prod.fst).length = 2 ∧
      ((demoBuildCall services).NeverConfused images log ↔ (demoBuildCall services).Unconfusable) := by
  have ran : ((demoBuildServices "left" "right").1.toOption.bind fun services =>
      (demoBuilds services).1.toOption.map fun _ => ((demoBuilds services).2.2.length,
        decide (services.map (·.id)).Nodup)) = some (2, true) := by decide +kernel
  obtain ⟨services, isServices, rest⟩ := Option.bind_eq_some_iff.mp ran
  obtain ⟨images, isImages, found⟩ := Option.map_eq_some_iff.mp rest
  have run := demo_builds_run (ok_of_to_option isImages)
  have distinct : ((demoBuildCall services).app.services.map (·.id)).Nodup :=
    of_decide_eq_true (congrArg Prod.snd found)
  refine ⟨services, images, (demoBuilds services).2.1, (demoBuilds services).2.2, run, ?_,
    builds_never_confused_iff distinct run⟩
  rw [List.length_map]
  exact congrArg Prod.fst found

end Containr.Worker
