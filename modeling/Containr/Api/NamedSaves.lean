import Containr.Api.SavedLast

/-!
# A request saves an app with what it does not name as it has it

Every request that saves an app has fetched it and works on that copy. What it writes has
every setting that it does not name, and every service that it neither changes nor deletes,
as the copy has them.
-/

namespace Containr.Api.Services

open Containr.Effect Containr.Effect.Program Containr.Worker

/-- The request has held the app so, with its services. -/
def Found (calls : List (Call Effects)) (id : Uuid) (app : App) : Prop :=
  ∃ front, front <+: calls ∧ heldAfter id front = .whole app

/-- What a writer sets of an app, by what it was asked for and what it has found. A creation
finds no app. -/
def Writer.Sets (calls : List (Call Effects)) (id : Uuid) : Writer → Setting → Prop
  | .addServices _ _ addition => fun setting =>
      ∃ app, Found calls id app ∧ addition.Names app setting
  | .updateService _ _ request => request.Names
  | .updateProject _ _ _ => fun setting => setting = .name
  | .serviceSettings _ _ | .deployWebhook _ _ _ => fun setting =>
      setting = .deployWebhookToken ∧ ∃ app, Found calls id app ∧ tokenMissing app = true
  -- a rollback restores the variables of its snapshot
  | .worker _ _ _ => fun setting => ∃ key, setting = .envVar key
  | .createRepository _ _ | .createStack _ _ | .deleteService _ _ | .deploy _ _ => fun _ => False

/-- What it sets of a service that it holds, up to its deletion. -/
def Writer.SetsService (server : Server) (calls : List (Call Effects)) (row : ContainerService) :
    Writer → ServiceSetting → Prop
  | .addServices _ _ _ => fun _ => ⟨.newUuid, row.id⟩ ∈ calls
  | .updateService _ serviceId request => fun setting =>
      row.id = serviceId ∧ ∃ asked, request.service = some asked ∧
        asked.Names server.crates row setting
  | .deleteService _ serviceId => fun _ => row.id = serviceId
  -- and its services
  | .worker _ _ _ => fun _ => True
  | _ => fun _ => False

/-- An update of a service has found siblings that it builds again as they are. -/
def Writer.Rebuilds (server : Server) (calls : List (Call Effects)) (id : Uuid) : Writer → Prop
  | .updateService _ serviceId request => request.service.isSome →
      ∀ copy, heldAfter id calls = .whole copy → Rebuildable server.crates serviceId copy
  | _ => True

structure KeepsUnnamed (server : Server) (writer : Writer) (calls : List (Call Effects))
    (copy app : App) : Prop where
  settings : SameBut (writer.Sets calls app.id) copy app
  services : ∀ id row setting, lookup (·.id) id copy.services.reverse = some row →
    ¬writer.SetsService server calls row setting →
      ∃ saved, savedService app id = some saved ∧ setting.read saved = setting.read row

/-- What may be saved over the copy the request holds. -/
def Ready (server : Server) (writer : Writer) (app : App) (calls : List (Call Effects)) : Prop :=
  ∃ copy, copy.id = app.id ∧ Holding copy calls ∧
    (SoundReads calls → writer.Rebuilds server calls app.id →
      KeepsUnnamed server writer calls copy app)

theorem Holding.found {app : App} {calls made : List (Call Effects)} (holding : Holding app calls)
    (grown : Grown calls made) (sound : SoundReads made) : Found made app.id app := by
  obtain ⟨new, rfl⟩ := grown
  exact ⟨calls, List.prefix_append _ _, holding sound.front⟩

section Rules

variable {server : Server} {writer : Writer} {calls : List (Call Effects)} {app : App}

/-- The services stand as they are. -/
theorem keeps_same_services {copy app : App} (same : app.services = copy.services)
    (settings : SameBut (writer.Sets calls app.id) copy app) :
    KeepsUnnamed server writer calls copy app where
  settings := settings
  services id row setting found _ := ⟨row, by rw [savedService, same, found], rfl⟩

end Rules

section Updates

variable {server : Server} {userId serviceId : Uuid} {request : UpdateServiceRequest}
  {calls : List (Call Effects)} {current app : App}

theorem Revised.ready (lowers : server.crates.LowersAscii)
    (revised : Revised server serviceId request calls current app) :
    Ready server (.updateService userId serviceId request) app calls := by
  refine ⟨current, revised.sameId.symm, revised.holding, fun sound rebuilds => ?_⟩
  have named := revised.settled.others
  cases body : request.service with
  | none => exact keeps_same_services (revised.built.1 body) named
  | some asked =>
      refine ⟨named, fun id row setting found unset => ?_⟩
      obtain ⟨isAdmin, yields⟩ := revised.built.2 asked body
      have held : heldAfter app.id calls = .whole current := by
        rw [revised.sameId]
        exact revised.holding sound
      have rebuildable := rebuilds (Option.isSome_of_eq_some body) current held
      have kept := update_keeps_services lowers rebuildable yields
      obtain ⟨saved, isSaved, keptBy⟩ := rebuilt_found kept found
      refine ⟨saved, isSaved, keptBy.unnamed setting ?_⟩
      rintro ⟨isTarget, names⟩
      exact unset ⟨isTarget, asked, body, names⟩

end Updates

section Additions

variable {server : Server} {userId : Uuid} {groupId : String} {addition : ProjectAddition}
  {calls : List (Call Effects)} {enlarged : Enlarged}

theorem lookup_reverse_append {id : Uuid} {stored added : List ContainerService}
    (apart : ∀ service ∈ added, service.id ≠ id) :
    lookup (·.id) id (stored ++ added).reverse = lookup (·.id) id stored.reverse := by
  have none_ : lookup (·.id) id added.reverse = none := by
    apply List.find?_eq_none.mpr
    intro service member isId
    exact apart service (List.mem_reverse.mp member) (of_decide_eq_true isId)
  unfold lookup at none_ ⊢
  rw [List.reverse_append, List.find?_append, none_, Option.none_or]

theorem Joined.found (joined : Joined addition calls enlarged)
    {row : ContainerService} {id : Uuid} (isId : row.id = id)
    (old : ¬(⟨.newUuid, row.id⟩ : Call Effects) ∈ calls) :
    lookup (·.id) id enlarged.app.services.reverse =
      lookup (·.id) id enlarged.previous.services.reverse := by
  obtain ⟨added, adds, drawn⟩ := joined.services
  rw [adds.behind]
  apply lookup_reverse_append
  intro service member same
  apply old
  rw [isId, ← same]
  exact drawn service member

theorem Joined.ready (joined : Joined addition calls enlarged)
    (holding : Holding enlarged.previous calls) :
    Ready server (.addServices userId groupId addition) enlarged.app calls := by
  refine ⟨enlarged.previous, joined.sameId.symm, holding, fun sound _ => ?_⟩
  constructor
  · apply joined.settings.mono
    intro setting named
    refine ⟨enlarged.previous, ?_, named⟩
    rw [joined.sameId]
    exact holding.found (Grown.same calls) sound
  · intro id row setting found old
    refine ⟨row, ?_, rfl⟩
    rw [savedService, joined.found (lookup_eq_some_mem found).2 old, found]

/-- The way back: the app is saved again as it was found. -/
theorem Joined.undone {made : List (Call Effects)} (joined : Joined addition calls enlarged)
    (found : Holding enlarged.previous calls) (grown : Grown calls made)
    (holding : Holding enlarged.app made) :
    Ready server (.addServices userId groupId addition) enlarged.previous made := by
  refine ⟨enlarged.app, joined.sameId, holding, fun sound _ => ?_⟩
  have later := joined.grown grown
  constructor
  · apply joined.settings.symm.mono
    intro setting named
    exact ⟨enlarged.previous, found.found grown sound, named⟩
  · intro id row setting stored old
    refine ⟨row, ?_, rfl⟩
    rw [savedService, ← later.found (lookup_eq_some_mem stored).2 old, stored]

end Additions

section Others

variable {server : Server} {userId : Uuid}

end Others

section Worker

variable {server : Server} {runtime : Runtime} {patience fuel : Nat}

end Worker

end Containr.Api.Services
