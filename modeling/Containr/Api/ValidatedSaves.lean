import Containr.Api.SavedLast

/-!
# Names and ports are checked before they are saved

A creation, an addition or an update saves only services whose domains and host ports it has
found free. An addition that is undone saves fewer of them.
-/

namespace Containr.Api.Services

open Containr.Effect Containr.Effect.Program Containr.Worker

def savesValidated : Rule Effects := fun calls op =>
  ∀ app, op = .write (.saveApp app) → Validated calls app.id app.services

theorem saveless_permitted (calls : List (Call Effects)) (op : Op) (saveless : Saveless op) :
    savesValidated calls op := fun app isSave => absurd isSave (saveless app)

theorem save_permitted {app : App} {calls : List (Call Effects)}
    (validated : Validated calls app.id app.services) :
    savesValidated calls (.write (.saveApp app)) := by
  intro other isSave
  cases isSave
  exact validated

/-- The services of the project as it was found are among those that were checked. -/
theorem undo_permitted {addition : ProjectAddition} {enlarged : Enlarged}
    {made later : List (Call Effects)}
    (validated : Validated made enlarged.app.id enlarged.app.services)
    (joined : Joined addition made enlarged) (grown : Grown made later) :
    savesValidated later (.write (.saveApp enlarged.previous)) := by
  obtain ⟨added, adds, -⟩ := joined.services
  apply save_permitted
  apply grown.validated
  rw [← joined.sameId]
  apply validated.subset
  intro service member
  rw [adds.behind]
  exact List.mem_append_left _ member

section Runs

variable {Thread : Type} [DecidableEq Thread]

def Naming : Writer → Prop
  | .createRepository _ _ | .createStack _ _ | .addServices _ _ _ | .updateService _ _ _ => True
  | _ => False

theorem naming_validates (server : Server) {writer : Writer} (naming : Naming writer) :
    (task server writer).Always Recording savesValidated (fun _ _ => True) [] := by
  have ignored : ∀ {Value : Type} {handler : Handler Value},
      Leaves savesValidated handler [] (fun _ _ => True) →
        (ignore handler).Always Recording savesValidated (fun _ _ => True) [] :=
    fun leaves => ignore_always.mpr (Always.mono leaves fun _ _ _ => trivial)
  cases writer with
  | createRepository userId request =>
      exact ignored (creation_leaves saveless_permitted (prepare_repository_leaves request)
        fun _ _ prepared => save_permitted prepared.1)
  | createStack userId request =>
      exact ignored (creation_leaves saveless_permitted (prepare_stack_leaves request)
        fun _ _ prepared => save_permitted prepared.1)
  | addServices userId groupId addition =>
      have leaves := @add_services_leaves savesValidated saveless_permitted server userId groupId
        addition _ prepare_addition_leaves (fun _ _ prepared => save_permitted prepared.1)
        fun enlarged made later prepared still => by
          obtain ⟨validated, -, joined⟩ := prepared
          obtain ⟨new, grown, -⟩ := still
          exact undo_permitted validated joined ⟨_ :: new, by rw [grown, List.append_assoc]; rfl⟩
      exact ignored (leaves.mono fun _ _ _ _ _ => trivial)
  | updateService userId serviceId request =>
      have leaves := @update_service_leaves savesValidated saveless_permitted server userId
        serviceId request _ prepare_update_leaves fun _ _ prepared => save_permitted prepared.1
      exact ignored (leaves.mono fun _ _ _ _ _ => trivial)
  | _ => exact absurd naming id

/-- Whatever runs beside it, a creation, an addition or an update saves an app only after it has
itself listed the apps and found every custom domain and host port it saves free there, or
already the app's own, and no two of the services to clash. -/
theorem saves_validated {servers : Thread → Server} {writers : Thread → Writer}
    {thread : Thread} (naming : Naming (writers thread)) {app : App} {answer : Except String Unit}
    {front back : List (Event Effects Thread)} {pool : Pool Effects Thread Unit World}
    (run : Pool.Trace Possible (fun _ _ _ => True) (writing servers writers)
      (front ++ ⟨thread, .write (.saveApp app), answer⟩ :: back) pool) :
    Validated (Pool.own thread front) app.id app.services :=
  Pool.Trace.ruled (naming_validates (servers thread) naming) run app rfl

def savedRow (event : Event Effects Bool) : Option App :=
  match event.op with
  | .write (.saveApp app) => some app
  | _ => none

/-- Every name leads to the server. -/
def resolving : system.Policy
  | .external (.lookupIp _), _ => ["203.0.113.7"]
  | op, world => calm op world

theorem resolving_admitted (op : Op) (world : World) :
    system.Admits op (resolving op world) world := by
  cases op with
  | newUuid => exact world.fresh_uuid_new
  | _ => trivial

def demoNamed (domain : String) (port : Nat) : ServiceRequest :=
  { demoServiceRequest "web" with
    serviceType := some "web_service"
    domains := some [domain]
    portMappings := some [⟨port, 80, none⟩] }

def demoNaming (first : Bool) : Writer :=
  .createStack ⟨7⟩ ⟨"shop", none,
    [if first then demoNamed "a.example.org" 8080 else demoNamed "b.example.org" 9090]⟩

/-- The second stack is saved beside the first one. -/
theorem demo_save_validated : ∃ front app answer pool,
    Pool.Trace Possible (fun _ _ _ => True) (writing (fun _ => demoServer) demoNaming)
      (front ++ [⟨false, .write (.saveApp app), answer⟩]) pool ∧
      app.services.flatMap checkedClaims = [.domain "b.example.org", .port (9090, .tcp)] ∧
      Validated (Pool.own false front) app.id app.services := by
  have ran : ((Pool.execute system ((List.replicate 15 true ++ List.replicate 13 false).map
      fun thread => (thread, resolving)) (writing (fun _ => demoServer) demoNaming)).bind fun run =>
        run.1.getLast?.bind fun event => (savedRow event).map fun app =>
          (event.thread, app.services.flatMap checkedClaims)) =
      some (false, [.domain "b.example.org", .port (9090, .tcp)]) := by
    decide +kernel
  obtain ⟨⟨history, pool⟩, executed, saved⟩ := Option.bind_eq_some_iff.mp ran
  obtain ⟨⟨thread, op, answer⟩, isLast, isSave⟩ := Option.bind_eq_some_iff.mp saved
  obtain ⟨app, saves, facts⟩ := Option.map_eq_some_iff.mp isSave
  obtain ⟨second, named⟩ := Prod.mk.inj facts
  obtain ⟨front, rfl⟩ := List.getLast?_eq_some_iff.mp isLast
  cases second
  unfold savedRow at saves
  split at saves
  · rename_i other same
    cases saves
    cases same
    have admitted : ∀ entry ∈ (List.replicate 15 true ++ List.replicate 13 false).map
        fun thread => (thread, resolving),
        ∀ op state, system.Admits op (entry.2 op state) state := by
      intro entry member
      obtain ⟨thread, -, rfl⟩ := List.mem_map.mp member
      exact resolving_admitted
    have run := Pool.Trace.of_execute admitted executed
    have naming : Naming (demoNaming false) := trivial
    have validated := @saves_validated Bool _ (fun _ => demoServer) demoNaming false naming app
      answer front [] pool run
    exact ⟨front, app, answer, pool, run, named, validated⟩
  · cases saves

end Runs

end Containr.Api.Services
