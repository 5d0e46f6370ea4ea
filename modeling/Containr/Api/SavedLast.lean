import Containr.Api.Prepared

/-!
# What a request does behind its save

Having saved what it has prepared, a request writes no app any more. Only an addition whose
deployment cannot be queued saves once again, namely the app as it was found.
-/

namespace Containr.Api.Services

open Containr.Effect Containr.Effect.Program Containr.Worker

def SavedLast (app : App) (calls : List (Call Effects)) : Prop :=
  ∃ front back, calls = front ++ ⟨.write (.saveApp app), .ok ()⟩ :: back ∧
    ∀ call ∈ back, ¬WritesApp call.1 call.2

def Saveless (op : Op) : Prop := ∀ app, op ≠ .write (.saveApp app)

theorem saveless_of_keeps (op : Op) (keeps : KeepsApps op) : Saveless op := by
  intro app isSave
  rw [isSave] at keeps
  exact keeps

theorem saveless_of_plain (op : Op) (plain : Op.Plain op) : Saveless op := by
  intro app isSave
  rw [isSave] at plain
  exact plain

theorem keeps_apps_quiet {call : Call Effects} (keeps : KeepsApps call.1) :
    ¬WritesApp call.1 call.2 := by
  obtain ⟨op, answer⟩ := call
  intro writes
  cases op with
  | write change =>
      cases change with
      | saveApp app => exact keeps
      | deleteApp id => exact keeps
      | _ => exact writes
  | _ => exact writes

section Calls

variable {calls made : List (Call Effects)} {app : App}

theorem Still.quiet (still : Still calls made)
    (quiet : ∀ call ∈ calls, ¬WritesApp call.1 call.2) :
    ∀ call ∈ made, ¬WritesApp call.1 call.2 := by
  obtain ⟨new, rfl, aside⟩ := still
  intro call member
  rcases List.mem_append.mp member with old | later
  · exact quiet call old
  · exact keeps_apps_quiet (keeps_apps_of_aside _ (aside call later))

theorem SavedLast.still (saved : SavedLast app calls) (still : Still calls made) :
    SavedLast app made := by
  obtain ⟨front, back, split, quiet⟩ := saved
  obtain ⟨new, rfl, aside⟩ := still
  refine ⟨front, back ++ new, by rw [split, List.append_assoc]; rfl, fun call member => ?_⟩
  rcases List.mem_append.mp member with old | later
  · exact quiet call old
  · exact keeps_apps_quiet (keeps_apps_of_aside _ (aside call later))

theorem saved_last (app : App) (calls : List (Call Effects)) :
    SavedLast app (calls ++ [⟨.write (.saveApp app), .ok ()⟩]) :=
  ⟨calls, [], rfl, fun _ member => absurd member List.not_mem_nil⟩

end Calls

section Rules

variable {rule : Rule Effects} {calls : List (Call Effects)} {Value : Type} {app : App}

theorem save_recorded (permitted : rule calls (.write (.saveApp app))) :
    (Store.saveApp app).run.Always Recording rule
      (fun result made => made = calls ++ [⟨.write (.saveApp app), result⟩]) calls :=
  op_always.mpr ⟨permitted, fun _ _ recorded => recorded⟩

theorem save_leaves (permitted : rule calls (.write (.saveApp app))) :
    Leaves rule (orInternal (Store.saveApp app)) calls fun _ made =>
      made = calls ++ [⟨.write (.saveApp app), .ok ()⟩] := by
  apply internal_leaves
  apply (save_recorded permitted).mono
  rintro result made saved value same
  rw [saved, same]

variable (silent : ∀ calls op, Saveless op → rule calls op)

include silent

theorem reads_obeyed {Error : Type} {program : ExceptT Error (Program Effects) Value}
    {post : Value → List (Call Effects) → Prop} (leaves : Leaves reads program calls post) :
    Leaves rule program calls post := by
  apply leaves.restrict
  · exact fun _ _ _ _ possible => possible
  · exact fun made op reading =>
      silent made op (saveless_of_keeps op (keeps_apps_of_reading op reading))

variable {program : Handler Value} {held : Value → Prop}

theorem beside {program : Sys Value} (under : program.Under (fun _ _ => True) Op.Aside held)
    (calls : List (Call Effects)) :
    program.Always Recording rule (fun value made => held value ∧ Still calls made) calls :=
  under.recorded
    (fun made op aside => silent made op (saveless_of_keeps op (keeps_apps_of_aside op aside))) calls

theorem silent_recorded {program : Sys Value} (saveless : program.Calls Saveless)
    (calls : List (Call Effects)) :
    program.Always Recording rule (fun _ _ => True) calls := by
  have under : program.Under (fun _ _ => True) Saveless fun _ => True := saveless.under
  exact (under.recorded silent calls).mono fun _ _ _ => trivial

theorem finish_creation_leaves (server : Server) (userId : Uuid) (deploy : Bool) (app : App)
    (calls : List (Call Effects)) :
    Leaves rule (finishCreation server userId deploy app) calls fun _ _ => True := by
  have rest : ∀ made, Leaves rule (do
      requestCertificates server app
      firstServiceId app : Handler Uuid) made fun _ _ => True := by
    intro made
    have certifies := (certificates_aside server app).mono fun op aside =>
      saveless_of_keeps op (keeps_apps_of_aside op aside)
    apply leaves_lift_chain (silent_recorded silent certifies made)
    intro _ _ _
    unfold firstServiceId
    split
    · exact leaves_return trivial
    · exact leaves_throw _
  have deploys : Leaves rule (deployNew userId app) calls fun _ _ => True := by
    have queued : (firstDeployment userId app "initial" "initial deployment").run.Under
        (fun _ _ => True) Op.Aside (OnOk fun _ => True) := queue_deployment_aside _
    apply leaves_lift_chain (beside silent queued calls)
    intro result made _
    split
    · exact leaves_return trivial
    · have deletes := (ignore_calls (delete_app_plain app.id)).mono saveless_of_plain
      apply leaves_lift_chain (silent_recorded silent deletes made)
      intro _ _ _
      exact leaves_throw _
  unfold finishCreation
  split
  · exact leaves_chain deploys fun _ made _ => rest made
  · exact rest calls

variable {server : Server} {userId : Uuid}

theorem creation_leaves {prepare : Handler App} {deploy : Bool}
    {post : App → List (Call Effects) → Prop} (prepares : Leaves reads prepare [] post)
    (saves : ∀ app made, post app made → rule made (.write (.saveApp app))) :
    Leaves rule (do
      let app ← prepare
      orInternal (Store.saveApp app)
      finishCreation server userId deploy app : Handler Uuid) [] fun _ _ => True := by
  apply leaves_chain (reads_obeyed silent prepares)
  intro app made prepared
  apply leaves_chain (save_leaves (saves app made prepared))
  intro _ saved _
  exact finish_creation_leaves silent server userId deploy app saved

theorem add_services_leaves {groupId : String} {addition : ProjectAddition}
    {post : Enlarged → List (Call Effects) → Prop}
    (prepares : Leaves reads (prepareAddition server userId groupId addition) [] post)
    (saves : ∀ enlarged made, post enlarged made → rule made (.write (.saveApp enlarged.app)))
    (undoes : ∀ enlarged made later, post enlarged made →
      Still (made ++ [⟨.write (.saveApp enlarged.app), .ok ()⟩]) later →
        rule later (.write (.saveApp enlarged.previous))) :
    Leaves rule (addServicesToProject server userId groupId addition) [] fun first after =>
      ∃ enlarged made, post enlarged made ∧ Grown made after ∧ first = enlarged.firstId ∧
        SavedLast enlarged.app after := by
  apply leaves_chain (reads_obeyed silent prepares)
  intro enlarged made prepared
  apply leaves_chain (save_leaves (saves enlarged made prepared))
  rintro _ _ rfl
  have saved := saved_last enlarged.app made
  have rest : ∀ more, Still (made ++ [⟨.write (.saveApp enlarged.app), .ok ()⟩]) more →
      Leaves rule (do
        requestCertificates server enlarged.app
        refreshProxyRoutes server enlarged.app.id
        return enlarged.firstId : Handler Uuid) more fun first after =>
          ∃ enlarged made, post enlarged made ∧ Grown made after ∧ first = enlarged.firstId ∧
            SavedLast enlarged.app after := by
    intro more behind
    apply leaves_lift_chain (beside silent (certificates_aside server enlarged.app).under more)
    rintro _ certified ⟨-, still⟩
    apply leaves_lift_chain
      (beside silent (refresh_aside server enlarged.app.id).under certified)
    rintro _ refreshed ⟨-, stillToo⟩
    have all := behind.trans (still.trans stillToo)
    apply leaves_return
    exact ⟨enlarged, made, prepared, Grown.trans ⟨_, rfl⟩ all.grown, rfl, saved.still all⟩
  have deploys : Leaves rule (deployEnlarged userId enlarged.previous enlarged.app)
      (made ++ [⟨.write (.saveApp enlarged.app), .ok ()⟩]) fun _ more =>
        Still (made ++ [⟨.write (.saveApp enlarged.app), .ok ()⟩]) more := by
    have queued : (firstDeployment userId enlarged.app "manual"
        "deployment after adding services").run.Under (fun _ _ => True) Op.Aside
          (OnOk fun _ => True) := queue_deployment_aside _
    apply leaves_lift_chain (beside silent queued _)
    rintro result queuing ⟨-, still⟩
    split
    · exact leaves_return still
    · have permitted := undoes enlarged made queuing prepared still
      have resaves : (ignore (Store.saveApp enlarged.previous)).Always Recording rule
          (fun _ _ => True) queuing :=
        ignore_always.mpr ((save_recorded permitted).mono fun _ _ _ => trivial)
      apply leaves_lift_chain resaves
      intro _ _ _
      exact leaves_throw _
  unfold finishAddition
  split
  · exact leaves_chain deploys fun _ => rest
  · exact rest _ (Still.refl _)

theorem update_service_leaves {serviceId : Uuid} {request : UpdateServiceRequest}
    {post : Updated → List (Call Effects) → Prop}
    (prepares : Leaves reads (prepareUpdate server userId serviceId request) [] post)
    (saves : ∀ updated made, post updated made → rule made (.write (.saveApp updated.app))) :
    Leaves rule (updateService server userId serviceId request) [] fun updated after =>
      (∃ made, post updated made ∧ Grown made after) ∧ SavedLast updated.app after := by
  apply leaves_chain (reads_obeyed silent prepares)
  intro updated made prepared
  have saving : Leaves rule (saveUpdated updated.app updated.moved) made
      fun _ after => Grown made after ∧ SavedLast updated.app after := by
    apply leaves_lift_chain (save_recorded (saves updated made prepared))
    rintro result saved rfl
    split
    · exact leaves_return ⟨⟨_, rfl⟩, saved_last updated.app made⟩
    · have undone : (undoMigrations updated.moved).Calls Op.Aside :=
        undo_migrations_reading updated.moved
      apply leaves_lift_chain (beside silent undone.under _)
      intro _ _ _
      exact leaves_throw _
  apply leaves_chain saving
  rintro _ after ⟨grown, saved⟩
  exact leaves_return ⟨⟨made, prepared, grown⟩, saved⟩

end Rules

end Containr.Api.Services
