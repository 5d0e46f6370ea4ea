import Containr.Api.AppRecords
import Containr.Api.NameChecks
import Containr.Api.RebuiltServices

/-!
# What a request has found when it saves an app

Before it saves, a request has only looked: it holds the app it has fetched, has compared
the services with those of the other apps, and has changed its copy as it was asked to.
-/

namespace Containr.Api.Services

open Containr.Effect Containr.Effect.Program Containr.Worker

/-- A row that was asked for by its id has that id. -/
structure SoundReads (calls : List (Call Effects)) : Prop where
  apps : ∀ id row, ⟨.query (.app id), .ok (some row)⟩ ∈ calls → App.id row = id
  services : ∀ id row, ⟨.query (.service id), .ok (some row)⟩ ∈ calls →
    ContainerService.id row = id

/-- The calls go on beside the app. -/
def Still (calls made : List (Call Effects)) : Prop :=
  ∃ new, made = calls ++ new ∧ ∀ call ∈ new, Op.Aside call.1

/-- The request holds the app. -/
def Holding (app : App) (calls : List (Call Effects)) : Prop :=
  SoundReads calls → heldAfter app.id calls = .whole app

section Held

variable {calls made : List (Call Effects)} {id : Uuid} {app : App}

theorem SoundReads.front {new : List (Call Effects)} (sound : SoundReads (calls ++ new)) :
    SoundReads calls where
  apps id row member := sound.apps id row (List.mem_append_left _ member)
  services id row member := sound.services id row (List.mem_append_left _ member)

theorem held_append (calls new : List (Call Effects)) : heldAfter id (calls ++ new) =
    new.foldl (fun held call => held.after id call.1 call.2) (heldAfter id calls) :=
  List.foldl_append

theorem held_after_aside {op : Op} {answer : op.Answer} (aside : Op.Aside op) {held : Held}
    (settled : ∀ services, held.join services = held) : held.after id op answer = held := by
  cases op with
  | query wanted =>
      cases answer with
      | error message => cases wanted <;> rfl
      | ok found =>
          cases wanted with
          | app other => exact aside.elim
          | servicesByApp other =>
              change (if other = id then held.join found else held) = held
              rw [settled found, ite_self]
          | _ => rfl
  | write change =>
      cases answer with
      | error message => cases change <;> rfl
      | ok done =>
          cases change with
          | saveApp app => exact aside.elim
          | deleteApp other => exact aside.elim
          | _ => rfl
  | _ => rfl

theorem held_still (still : Still calls made) {held : Held} (before : heldAfter id calls = held)
    (settled : ∀ services, held.join services = held) : heldAfter id made = held := by
  obtain ⟨new, rfl, aside⟩ := still
  rw [held_append, before]
  induction new with
  | nil => rfl
  | cons call new ih =>
      rw [List.foldl_cons, held_after_aside (aside call List.mem_cons_self) settled]
      exact ih fun other member => aside other (List.mem_cons_of_mem _ member)

theorem Holding.still (holding : Holding app calls) (still : Still calls made) :
    Holding app made := by
  intro sound
  have before : SoundReads calls := by
    obtain ⟨new, rfl, -⟩ := still
    exact sound.front
  exact held_still still (holding before) fun _ => rfl

theorem Still.refl (calls : List (Call Effects)) : Still calls calls :=
  ⟨[], by simp, fun call member => absurd member List.not_mem_nil⟩

theorem Still.trans {more : List (Call Effects)} (first : Still calls made)
    (second : Still made more) : Still calls more := by
  obtain ⟨new, rfl, aside⟩ := first
  obtain ⟨newer, rfl, asideToo⟩ := second
  refine ⟨new ++ newer, by rw [List.append_assoc], fun call member => ?_⟩
  rcases List.mem_append.mp member with old | late
  · exact aside call old
  · exact asideToo call late

end Held

section Looks

variable {calls : List (Call Effects)}

theorem Still.grown {made : List (Call Effects)} (still : Still calls made) : Grown calls made := by
  obtain ⟨new, grown, -⟩ := still
  exact ⟨new, grown⟩

variable {Error Value : Type} {program : ExceptT Error (Program Effects) Value}

theorem looking_leaves {held : Value → Prop}
    (under : program.run.Under (fun _ _ => True) Op.Looking (OnOk held))
    (calls : List (Call Effects)) :
    Leaves reads program calls fun value made => held value ∧ Still calls made := by
  apply (under_leaves under (fun _ op looking => reading_of_looking op looking) calls).mono
  intro result made left value same
  obtain ⟨known, new, grown, looking⟩ := left value same
  exact ⟨known, new, grown, fun call member => looks (looking call member)⟩

theorem looked (looking : program.run.Calls Op.Looking) (calls : List (Call Effects)) :
    Leaves reads program calls fun _ made => Still calls made := by
  have under : program.run.Under (fun _ _ => True) Op.Looking (OnOk fun _ => True) :=
    looking.under_ok
  exact (looking_leaves under calls).mono fun _ _ left value same => (left value same).2

theorem looked_at {program : Sys Value} (looking : program.Calls Op.Looking)
    (calls : List (Call Effects)) :
    program.Always Recording reads (fun _ made => Still calls made) calls := by
  have under : program.Under (fun _ _ => True) Op.Looking fun _ => True := looking.under
  apply (under.recorded (fun _ op looking => reading_of_looking op looking) calls).mono
  rintro _ made ⟨-, new, grown, looking⟩
  exact ⟨new, grown, fun call member => looks (looking call member)⟩

theorem leaves_grown {rule : Rule Effects} {post : Value → List (Call Effects) → Prop}
    (leaves : Leaves rule program calls post) :
    Leaves rule program calls fun value made => post value made ∧ Grown calls made := by
  apply (Always.made leaves).mono
  rintro result made ⟨left, new, grown, -⟩ value same
  exact ⟨left value same, new, grown⟩

/-- An app that was fetched is held. -/
theorem get_app_holding (id : Uuid) (calls : List (Call Effects)) :
    Leaves reads (Store.getApp id) calls fun found made =>
      ∀ app, found = some app → Holding app made := by
  apply leaves_chain (query_leaves (.app id) calls)
  intro row made asked
  split
  · apply leaves_return
    intro app absurd
    cases absurd
  · rename_i row
    apply leaves_chain (query_leaves (.servicesByApp row.id) made)
    intro services more read
    apply leaves_return
    rintro app same sound
    cases same
    have isId : row.id = id := by
      apply sound.apps id row
      rw [read, asked]
      simp
    have fetched : Held.after row.id (heldAfter row.id calls) (.query (.app id)) (.ok (some row)) =
        .row row := if_pos isId.symm
    have joined : Held.after row.id (.row row) (.query (.servicesByApp row.id)) (.ok services) =
        .whole { row with services := services } := if_pos rfl
    rw [read, asked, held_append, held_append, List.foldl_cons, List.foldl_nil, List.foldl_cons,
      List.foldl_nil, fetched]
    exact joined

/-- The service that was asked for is held with its app. -/
theorem resolve_owned_service_holding (userId serviceId : Uuid) (calls : List (Call Effects)) :
    Leaves reads (resolveOwnedServiceRecord userId serviceId) calls
      fun found made => ∀ app service, found = some (app, service) →
        Holding app made ∧ (SoundReads made → service.id = serviceId) := by
  apply leaves_chain (internal_leaves (query_leaves (.service serviceId) calls))
  intro row made asked
  split
  · rename_i service
    apply leaves_chain (internal_leaves (leaves_grown (get_app_holding service.appId made)))
    rintro found more ⟨holding, new, grown⟩
    split
    · rename_i app
      apply leaves_chain (looked (ensure_calls _ _) more)
      intro _ later still
      apply leaves_return
      rintro other own same
      cases same
      refine ⟨(holding _ rfl).still still, fun sound => ?_⟩
      cases found : lookup (·.id) serviceId app.services with
      | some stored => exact (lookup_eq_some_mem found).2
      | none =>
          obtain ⟨newer, rfl, -⟩ := still
          apply sound.services serviceId service
          rw [grown, asked]
          simp
    · exact leaves_throw _
  · apply leaves_chain (looked (resolve_managed_record_reading userId serviceId) made)
    intro _ _ _
    apply leaves_return
    rintro app service absurd
    cases absurd

theorem resolve_owned_app_service_holding (userId serviceId : Uuid)
    (calls : List (Call Effects)) :
    Leaves reads (resolveOwnedAppServiceRecord userId serviceId) calls fun found made =>
      Holding found.1 made ∧ (SoundReads made → found.2.id = serviceId) := by
  apply leaves_chain (resolve_owned_service_holding userId serviceId calls)
  intro found made held
  split
  · rename_i pair
    exact leaves_return (held pair.1 pair.2 rfl)
  · exact leaves_throw _

theorem validate_app_looks (server : Server) (app : App) (calls : List (Call Effects)) :
    Leaves reads (validateApp server app) calls fun _ made =>
      Validated made app.id app.services ∧ Still calls made := by
  apply ((validate_app_leaves server app calls).and
    (looked (validate_app_reading server app) calls)).mono
  rintro result made ⟨validated, still⟩ value same
  exact ⟨validated value same, still value same⟩

end Looks

section Creations

variable {server : Server} {userId : Uuid} {calls : List (Call Effects)}

theorem build_services_looks {crates : Crates} {appId : Uuid}
    {existing : List ContainerService} {requests : List ServiceRequest} (isAdmin : Bool)
    (calls : List (Call Effects)) :
    Leaves reads (buildServices crates appId existing requests isAdmin) calls
      fun _ made => Still calls made := by
  apply (looking_leaves (build_services_reading isAdmin) calls).mono
  intro result made left value same
  exact (left value same).2

theorem prepare_repository_leaves (request : RepositoryRequest) :
    Leaves reads (prepareRepositoryApp server userId request) [] fun app made =>
      Validated made app.id app.services ∧ Still [] made := by
  apply leaves_chain (looked (ensure_calls _ _) [])
  intro _ ensured first
  apply leaves_lift_chain (looked_at (new_app_reading _ _ _) ensured)
  intro created drawn second
  apply leaves_chain (checked_leaves _ _)
  rintro strategy _ ⟨-, rfl⟩
  apply leaves_chain (looked (user_is_admin_reading userId) _)
  intro isAdmin asked third
  apply leaves_chain (build_services_looks isAdmin asked)
  intro services built fourth
  apply leaves_chain (looked (ensure_calls _ _) built)
  intro _ sourced fifth
  apply leaves_chain (validate_app_looks server _ sourced)
  rintro _ made ⟨validated, sixth⟩
  apply leaves_return
  exact ⟨validated,
    first.trans (second.trans (third.trans (fourth.trans (fifth.trans sixth))))⟩

theorem prepare_stack_leaves (request : StackRequest) :
    Leaves reads (prepareStackApp server userId request) [] fun app made =>
      Validated made app.id app.services ∧ Still [] made := by
  apply leaves_chain (looked (ensure_calls _ _) [])
  intro _ named first
  apply leaves_chain (looked (ensure_calls _ _) named)
  intro _ ensured second
  split
  · refine leaves_chain (?_ : Leaves reads _ _ fun _ _ => False) fun _ _ absurd => absurd.elim
    exact leaves_throw _
  · apply leaves_lift_chain (looked_at (new_app_reading _ _ _) ensured)
    intro created drawn third
    apply leaves_chain (checked_leaves _ _)
    rintro envVars _ ⟨-, rfl⟩
    apply leaves_chain (looked (user_is_admin_reading userId) _)
    intro isAdmin asked fourth
    apply leaves_chain (build_services_looks isAdmin asked)
    intro services built fifth
    apply leaves_chain (looked (ensure_calls _ _) built)
    intro _ sourced sixth
    apply leaves_chain (validate_app_looks server _ sourced)
    rintro _ made ⟨validated, seventh⟩
    apply leaves_return
    exact ⟨validated, first.trans (second.trans (third.trans (fourth.trans (fifth.trans
      (sixth.trans seventh)))))⟩

end Creations

section Updates

variable {server : Server} {userId serviceId : Uuid} {request : UpdateServiceRequest}

theorem Under.yields {Value : Type} {program : Sys Value} {allowed : Op → Prop}
    {post : Value → Prop} (under : program.Under (fun _ _ => True) allowed post) :
    program.Under (fun _ _ => True) allowed fun value => post value ∧ program.Yields value := by
  induction program with
  | pure value =>
      apply under_pure.mpr
      exact ⟨under_pure.mp under, yields_pure.mpr rfl⟩
  | call op next ih =>
      rw [under_call] at under ⊢
      refine ⟨under.1, fun answer expected => ?_⟩
      apply (ih answer (under.2 answer expected)).mono
      rintro value ⟨held, yields⟩
      exact ⟨held, yields_call.mpr ⟨answer, yields⟩⟩

/-- The services are those of the app, or built from them. -/
def BuiltUpdate (crates : Crates) (serviceId : Uuid) (request : Option ServiceRequest) (app : App)
    (services : List ContainerService) : Prop :=
  (request = none → services = app.services) ∧ ∀ asked, request = some asked → ∃ isAdmin,
    (buildUpdate crates app.id isAdmin serviceId asked app.services).run.Yields (.ok services)

theorem updated_services_built (asked : Option ServiceRequest) (app : App) :
    (updatedServices server userId serviceId asked app).run.Under (fun _ _ => True) Op.Looking
      (OnOk (BuiltUpdate server.crates serviceId asked app)) := by
  unfold updatedServices
  split
  · apply under_return
    constructor
    · exact fun _ => rfl
    · intro _ absurd
      cases absurd
  · rename_i body
    apply under_chain (user_is_admin_reading userId).under_ok
    intro isAdmin _
    have built : (buildUpdate server.crates app.id isAdmin serviceId body app.services).run.Under
        (fun _ _ => True) Op.Looking (OnOk fun _ => True) := build_services_reading isAdmin
    apply (Under.yields built).mono
    rintro result ⟨-, yields⟩
    cases result with
    | error error => trivial
    | ok services =>
        constructor
        · intro absurd
          cases absurd
        · intro other same
          cases same
          exact ⟨isAdmin, yields⟩

/-- The copy that was found, changed as the request asks. -/
structure Revised (server : Server) (serviceId : Uuid) (request : UpdateServiceRequest)
    (calls : List (Call Effects)) (current app : App) : Prop where
  holding : Holding current calls
  sameId : app.id = current.id
  settled : Settled request current app
  built : BuiltUpdate server.crates serviceId request.service current app.services

theorem prepare_update_leaves :
    Leaves reads (prepareUpdate server userId serviceId request) [] fun updated made =>
      Validated made updated.app.id updated.app.services ∧
        ∃ current, Revised server serviceId request made current updated.app := by
  apply leaves_chain (resolve_owned_app_service_holding userId serviceId [])
  rintro ⟨current, previousService⟩ resolved ⟨holding, -⟩
  have settles : (updateAppSettings request current).run.Under (fun _ _ => True) Op.Looking
      (OnOk fun settled => Settled request current settled ∧
        settled.id = current.id ∧ settled.services = current.services) := by
    apply ((update_app_settings_settles request current).and
      (update_app_settings_keeps trivial request current)).mono
    rintro result ⟨named, kept⟩
    cases result with
    | ok settled => exact ⟨named, kept⟩
    | error error => trivial
  apply leaves_chain (looking_leaves settles resolved)
  rintro settled tuned ⟨⟨settings, sameId, same⟩, still⟩
  apply leaves_chain (looking_leaves (updated_services_built request.service settled) tuned)
  rintro services built ⟨builtUpdate, stillBuilt⟩
  apply leaves_chain (looked (ensure_calls _ _) built)
  intro _ ensured stillEnsured
  dsimp only
  split
  · apply leaves_chain (validate_app_looks server _ ensured)
    rintro _ checked_ ⟨validated, stillChecked⟩
    apply leaves_chain (looked (plan_mounts_reading server _ _ _) checked_)
    intro migrations planned stillPlanned
    apply leaves_chain (looked (apply_migrations_reading _ _) planned)
    intro moved applied stillApplied
    apply leaves_lift_chain (looked_at utc_now_reading applied)
    intro now made stillNow
    have later := stillPlanned.trans (stillApplied.trans stillNow)
    apply leaves_return
    refine ⟨later.grown.validated validated, current, ?_⟩
    constructor
    · exact holding.still (still.trans (stillBuilt.trans (stillEnsured.trans
        (stillChecked.trans later))))
    · exact sameId
    · exact settings.restamped services now
    · unfold BuiltUpdate at builtUpdate ⊢
      rw [sameId, same] at builtUpdate
      exact builtUpdate
  · exact leaves_throw _

end Updates

section Additions

variable {server : Server} {userId : Uuid} {groupId : String} {addition : ProjectAddition}
  {calls : List (Call Effects)} {enlarged : Enlarged}

/-- The services of an addition stand behind the stored ones, under the names asked for. -/
structure Adds (addition : ProjectAddition) (enlarged : Enlarged) (added : List ContainerService) :
    Prop where
  behind : enlarged.app.services = enlarged.previous.services ++ added
  named : added.map (·.name) = addition.services.map fun request => Text.trim request.name
  first : (added.head?).map (·.id) = some enlarged.firstId

/-- The app as it is to be saved is the one that was found, with services under drawn ids. -/
structure Joined (addition : ProjectAddition) (calls : List (Call Effects)) (enlarged : Enlarged) :
    Prop where
  sameId : enlarged.app.id = enlarged.previous.id
  settings : SameBut (addition.Names enlarged.previous) enlarged.previous enlarged.app
  services : ∃ added, Adds addition enlarged added ∧
    ∀ service ∈ added, ⟨.newUuid, service.id⟩ ∈ calls

theorem Joined.grown {made : List (Call Effects)} (joined : Joined addition calls enlarged)
    (grown : Grown calls made) : Joined addition made enlarged := by
  obtain ⟨new, rfl⟩ := grown
  obtain ⟨added, adds, drawn⟩ := joined.services
  refine ⟨joined.sameId, joined.settings, added, adds, fun service member => ?_⟩
  exact List.mem_append_left _ (drawn service member)

theorem Always.forall {Value Index State : Type} [Nonempty Index] {program : Sys Value}
    {can : Behaviour Effects State} {ok : State → Op → Prop} {post : Index → Value → State → Prop}
    {state : State} (each : ∀ index, program.Always can ok (post index) state) :
    program.Always can ok (fun value after => ∀ index, post index value after) state := by
  induction program generalizing state with
  | pure value =>
      apply always_pure.mpr
      exact fun index => always_pure.mp (each index)
  | call op next ih =>
      obtain ⟨some_⟩ := ‹Nonempty Index›
      apply always_call.mpr
      refine ⟨(always_call.mp (each some_)).1, fun answer after possible => ?_⟩
      exact ih answer fun index => (always_call.mp (each index)).2 answer after possible

/-- If the answers were as expected, the value is as promised. -/
theorem Under.meeting {Value : Type} {program : Sys Value} {rule : Rule Effects}
    {expects : (op : Op) → op.Answer → Prop} {allowed : Op → Prop} {post : Value → Prop}
    (under : program.Under expects allowed post)
    (any : program.Under (fun _ _ => True) allowed fun _ => True)
    (permitted : ∀ calls op, allowed op → rule calls op) (calls : List (Call Effects)) :
    program.Always Recording rule
      (fun value made => (∀ call ∈ made, expects call.1 call.2) → post value) calls := by
  induction program generalizing calls with
  | pure value =>
      apply always_pure.mpr
      exact fun _ => under_pure.mp under
  | call op next ih =>
      rw [under_call] at under any
      apply always_call.mpr
      refine ⟨permitted calls op any.1, fun answer made recorded => ?_⟩
      by_cases expected : expects op answer
      · exact ih answer (under.2 answer expected) (any.2 answer trivial) made
      · apply ((any.2 answer trivial).recorded permitted made).mono
        rintro value after ⟨-, new, grown, -⟩ met
        apply absurd (met ⟨op, answer⟩ _) expected
        rw [grown, recorded]
        simp

/-- New services stand under ids that were drawn. -/
theorem build_new_leaves {crates : Crates} {appId : Uuid} {requests : List ServiceRequest}
    (isAdmin : Bool) (calls : List (Call Effects)) :
    Leaves reads (buildServices crates appId [] requests isAdmin) calls fun added made =>
      Still calls made ∧ added.map (·.name) = requests.map (fun request => Text.trim request.name) ∧
        ∀ service ∈ added, ⟨.newUuid, service.id⟩ ∈ made := by
  have each := fun drawn =>
    @build_services_under crates appId [] drawn isAdmin Op.Looking _ requests
  have any : (buildServices crates appId [] requests isAdmin).run.Under (fun _ _ => True) Op.Looking
      fun _ => True := (build_services_reading isAdmin).mono fun _ _ => trivial
  have met := Always.forall fun drawn => Under.meeting (each drawn) any
    (fun _ op looking => reading_of_looking op looking) calls
  apply (met.and (build_services_looks isAdmin calls)).mono
  rintro result made ⟨promised, still⟩ added same
  rw [same] at promised
  have drew : ∀ call ∈ made,
      Draws (fun id => (⟨.newUuid, id⟩ : Call Effects) ∈ made) call.1 call.2 := by
    rintro ⟨op, answer⟩ made
    cases op with
    | newUuid => exact made
    | _ => trivial
  have built := promised _ drew
  refine ⟨still added same, forall_built_names built.each, fun service member => ?_⟩
  obtain ⟨request, -, origin, came, from_⟩ := AllBuilt.mem built member
  rw [from_.sameId]
  cases came with
  | stored found => cases found
  | new missing issued bare => exact issued

theorem prepare_addition_leaves :
    Leaves reads (prepareAddition server userId groupId addition) [] fun enlarged made =>
      Validated made enlarged.app.id enlarged.app.services ∧ Holding enlarged.previous made ∧
        Joined addition made enlarged := by
  apply leaves_chain (reading_leaves (resolve_group_id_reading server userId groupId) [])
  intro appId resolved _
  apply leaves_chain (internal_leaves (get_app_holding appId resolved))
  intro found read holding
  split
  · rename_i previous
    have held := holding previous rfl
    apply leaves_chain (looked (ensure_calls _ _) read)
    intro _ ensured stillEnsured
    apply leaves_chain (checked_leaves _ _)
    rintro names _ ⟨-, rfl⟩
    apply leaves_chain (checked_leaves _ _)
    rintro joined _ ⟨join, rfl⟩
    apply leaves_chain (checked_leaves _ _)
    rintro extended _ ⟨extend, rfl⟩
    apply leaves_chain (looked (user_is_admin_reading userId) _)
    intro isAdmin asked stillAsked
    apply leaves_chain (build_new_leaves isAdmin asked)
    rintro added built ⟨stillBuilt, named, drawn⟩
    split
    · rename_i first isFirst
      apply leaves_chain (looked (ensure_calls _ _) built)
      intro _ sourced stillSourced
      apply leaves_chain (validate_app_looks server _ sourced)
      rintro _ checked_ ⟨validated, stillChecked⟩
      apply leaves_lift_chain (looked_at utc_now_reading checked_)
      intro now made stillNow
      have later := stillSourced.trans (stillChecked.trans stillNow)
      apply leaves_return
      refine ⟨stillNow.grown.validated validated,
        held.still (stillEnsured.trans (stillAsked.trans (stillBuilt.trans later))), ?_⟩
      have start : Joined addition built ⟨previous, { extended with
          services := previous.services ++ added
          updatedAt := now }, first.id⟩ := by
        refine ⟨?_, ?_, added, ⟨rfl, named, ?_⟩, drawn⟩
        · exact (add_env_vars_keeps extend).1.trans (add_repository_keeps join).1
        · apply (add_repository_names join).trans
          apply (add_env_vars_names extend (add_repository_vars join)).trans
          intro setting _
          cases setting with
          | _ => rfl
        · rw [isFirst, Option.map_some]
      exact start.grown later.grown
    · exact leaves_throw _
  · exact leaves_throw _

end Additions

end Containr.Api.Services
