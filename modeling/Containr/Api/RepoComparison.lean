import Containr.Api.RepoUrls

/-!
# The repository an addition names

`add_services_to_project` does not use `normalize_repo_url`: it compares the texts up to the
`.git`s at their ends.
-/

namespace Containr.Api.RepoUrls

open Containr.Text Containr.Effect.Program Containr.Api.Services Containr.Api.Webhooks

/-- The address given with an addition is taken. -/
def RepositoryAccepted (addition : ProjectAddition) (app : App) : Prop :=
  ∃ joined, addRepository addition app = .ok joined

variable {addition : ProjectAddition} {url : String}

/-- What passes the addition as a whole passes this check. -/
theorem add_services_accepted {server : Server} {userId id : Uuid} {groupId : String}
    (added : (addServicesToProject server userId groupId addition).run.Yields (.ok id)) :
    ∃ app, RepositoryAccepted addition app := by
  unfold addServicesToProject at added
  obtain ⟨enlarged, prepared, -⟩ := yields_ok_bind.mp added
  unfold prepareAddition at prepared
  obtain ⟨appId, -, rest⟩ := yields_ok_bind.mp prepared
  obtain ⟨found, -, rest⟩ := yields_ok_bind.mp rest
  cases found with
  | none => cases yields_run_throw.mp rest
  | some previous =>
      obtain ⟨_, -, rest⟩ := yields_ok_bind.mp rest
      obtain ⟨_, -, rest⟩ := yields_ok_bind.mp rest
      obtain ⟨joined, accepted, -⟩ := yields_ok_bind.mp rest
      exact ⟨previous, joined, (checked_yields.mp accepted).symm⟩

variable {text : String}

variable {part : String}

section Demo

set_option maxRecDepth 8192

end Demo

end Containr.Api.RepoUrls
