import Containr.Api.PushReach

/-!
# Whose apps a signature deploys

Every secret of the installation signs for every app: what a delivery is for is read from its
body, and whose secret signed it is forgotten. A push signed by one user stays with that user
exactly when the first app on the branch is the user's own or refuses it.
-/

namespace Containr.Api.Webhooks

open Containr.Effect Containr.Effect.Program

structure SignedOnlyBy (lib : Libraries) (tenants : Tenants) (delivery : Delivery) (user : Uuid) :
    Prop where
  own : ∃ account ∈ tenants.users, account.id = user ∧
    ∃ secret ∈ appSecrets lib tenants.config (tenants.githubApp user), Signs lib delivery secret
  notGlobal : ∀ secret ∈ globalSecrets tenants.config, ¬Signs lib delivery secret
  notOthers : ∀ account ∈ tenants.users, account.id ≠ user →
    ∀ secret ∈ appSecrets lib tenants.config (tenants.githubApp account.id),
      ¬Signs lib delivery secret

def Created (appId : Uuid) (before after : World) : Prop :=
  ∃ row ∈ after.db.deployments, row.appId = appId ∧ ∀ old ∈ before.db.deployments, old.id ≠ row.id

theorem Deployed.created {appId : Uuid} {before after : World}
    (deployed : Deployed appId before after) : Created appId before after := by
  obtain ⟨id, unused, ⟨row, stored, isId, isApp⟩, -⟩ := deployed
  refine ⟨row, stored, isApp, fun old known => ?_⟩
  rw [isId]
  exact unused old known

section Authority

variable {lib : Libraries} {tenants : Tenants} {delivery : Delivery} {push : PushEvent}
  {branch : String} {user : Uuid} {app : App}

theorem SignedOnlyBy.signed (only : SignedOnlyBy lib tenants delivery user) :
    ∃ secret ∈ tenants.secrets lib, Signs lib delivery secret := by
  obtain ⟨account, member, isUser, secret, own, signs⟩ := only.own
  refine ⟨secret, List.mem_append_right _ (List.mem_flatMap.mpr ⟨account, ?_, ?_⟩), signs⟩
  · unfold Tenants.listUsers
    rw [List.mem_insertionSort]
    exact member
  · rw [isUser]
    exact own

/-- An accepted push deploys the first app on the branch, whoever owns it. -/
theorem first_app_created (pushes : Pushes lib delivery push branch)
    (signed : ∃ secret ∈ tenants.secrets lib, Signs lib delivery secret)
    (found : branchApp tenants.world.db push branch = some app) (accepts : Accepts lib push app) :
    ∃ result after, Runs tenancy.can (githubWebhook lib delivery).run tenants result after ∧
      Created app.id tenants.world after.world := by
  obtain ⟨result, after, run⟩ := exists_reliable_run (githubWebhook lib delivery).run tenants
  have deployed := (webhook_deploys pushes signed found accepts).runs run
  have anything : (githubWebhook lib delivery).run.Ensures reliable.can (fun _ _ => True) tenants :=
    (webhook_deploys pushes signed found accepts).mono fun _ _ _ => trivial
  exact ⟨result, after, anything.transfer run fun _ _ _ _ _ can => reliable_tenancy can,
    deployed.created⟩

/-- Whatever fails: a push that only the user's GitHub app signed creates no deployment of
another user's app exactly when the first app on the branch is the user's, if it accepts the
push. -/
theorem push_stays_iff (pushes : Pushes lib delivery push branch)
    (only : SignedOnlyBy lib tenants delivery user)
    (keyed : (tenants.world.db.apps.map (·.id)).Nodup) :
    (∀ result after, Runs tenancy.can (githubWebhook lib delivery).run tenants result after →
      ∀ app ∈ tenants.world.db.apps, app.ownerId ≠ user →
        ¬Created app.id tenants.world after.world) ↔
      ∀ app, branchApp tenants.world.db push branch = some app → Accepts lib push app →
        app.ownerId = user := by
  constructor
  · intro stays app found accepts
    by_contra foreign
    obtain ⟨result, after, run, created⟩ := first_app_created pushes only.signed found accepts
    exact stays result after run app (branch_app_mem found).1 foreign created
  · intro own result after run app member foreign created
    obtain ⟨row, stored, isApp, new⟩ := created
    have confined := (webhook_confined pushes).runs run
    obtain ⟨first, found, accepts, sameId⟩ := confined.first stored new isApp
    have same := app_of_id keyed (branch_app_mem found).1 member sameId
    rw [← same] at foreign
    exact foreign (own first found accepts)

end Authority

theorem demo_not_signed {secret : String} (different : demoHash secret ≠ demoHash "first-secret") :
    ¬Signs demoLibraries demoDelivery secret := by
  intro signs
  obtain ⟨signature, isSignature, verified⟩ := signs
  have isDemo : some demoSignature = some signature := isSignature
  have refused := demo_verify secret
  rw [decide_eq_false different] at refused
  rw [← Option.some.inj isDemo] at verified
  cases refused.symm.trans verified

theorem demo_signed_only (apps : List App) :
    SignedOnlyBy demoLibraries (demoTenants apps) demoDelivery ⟨1⟩ where
  own := by
    have secrets : appSecrets demoLibraries (demoTenants apps).config
        ((demoTenants apps).githubApp ⟨1⟩) = ["first-secret"] := by
      change appSecrets demoLibraries (demoTenants []).config ((demoTenants []).githubApp ⟨1⟩) = _
      decide +kernel
    refine ⟨demoUser ⟨1⟩ "first@example.com", List.mem_cons_self, rfl, "first-secret", ?_,
      demoSignature, rfl, ?_⟩
    · rw [secrets]
      exact List.mem_cons_self
    · have verified := demo_verify "first-secret"
      rw [decide_eq_true rfl] at verified
      exact verified
  notGlobal := by
    intro secret member
    have secrets : globalSecrets (demoTenants apps).config = ["shared-secret"] := by
      change globalSecrets (demoTenants []).config = _
      decide +kernel
    rw [secrets, List.mem_singleton] at member
    rw [member]
    exact demo_not_signed (by decide)
  notOthers := by
    intro account member other secret own
    have second : account = demoUser ⟨2⟩ "second@example.com" := by
      rcases List.mem_cons.mp member with same | later
      · exact absurd (congrArg Auth.User.id same) other
      · exact List.mem_singleton.mp later
    have secrets : appSecrets demoLibraries (demoTenants apps).config
        ((demoTenants apps).githubApp ⟨2⟩) = ["second-secret"] := by
      change appSecrets demoLibraries (demoTenants []).config ((demoTenants []).githubApp ⟨2⟩) = _
      decide +kernel
    rw [second] at own
    have isSecond : secret ∈ ["second-secret"] := by
      rw [← secrets]
      exact own
    rw [List.mem_singleton.mp isSecond]
    exact demo_not_signed (by decide)

theorem own_app_deployed :
    branchApp (demoTenants [branchRow ⟨10⟩ ⟨1⟩ 6, branchRow ⟨11⟩ ⟨2⟩ 5]).world.db demoPush "main" =
      some (branchRow ⟨10⟩ ⟨1⟩ 6) ∧
    ∀ result after,
      Runs tenancy.can (githubWebhook demoLibraries demoDelivery).run
        (demoTenants [branchRow ⟨10⟩ ⟨1⟩ 6, branchRow ⟨11⟩ ⟨2⟩ 5]) result after →
      ∀ app ∈ [branchRow ⟨10⟩ ⟨1⟩ 6, branchRow ⟨11⟩ ⟨2⟩ 5], app.ownerId ≠ ⟨1⟩ →
        ¬Created app.id (demoTenants [branchRow ⟨10⟩ ⟨1⟩ 6, branchRow ⟨11⟩ ⟨2⟩ 5]).world
          after.world := by
  have first : branchApp (demoTenants [branchRow ⟨10⟩ ⟨1⟩ 6, branchRow ⟨11⟩ ⟨2⟩ 5]).world.db demoPush
      "main" = some (branchRow ⟨10⟩ ⟨1⟩ 6) := branch_row_first _ _ _ [branchRow ⟨11⟩ ⟨2⟩ 5] rfl
  refine ⟨first, ?_⟩
  apply (push_stays_iff demo_pushes (demo_signed_only _) (by decide)).mpr
  intro app found _
  rw [first] at found
  rw [← Option.some.inj found]
  rfl

/-- The first user's signature deploys the second user's app. -/
theorem foreign_app_deployed : ¬∀ result after,
    Runs tenancy.can (githubWebhook demoLibraries demoDelivery).run
      (demoTenants [branchRow ⟨11⟩ ⟨2⟩ 5]) result after →
    ∀ app ∈ [branchRow ⟨11⟩ ⟨2⟩ 5], app.ownerId ≠ ⟨1⟩ →
      ¬Created app.id (demoTenants [branchRow ⟨11⟩ ⟨2⟩ 5]).world after.world := by
  intro stays
  have first : branchApp (demoTenants [branchRow ⟨11⟩ ⟨2⟩ 5]).world.db demoPush "main" =
      some (branchRow ⟨11⟩ ⟨2⟩ 5) := branch_row_first _ _ _ [] rfl
  obtain ⟨result, after, run, created⟩ := first_app_created demo_pushes
    (demo_signed_only [branchRow ⟨11⟩ ⟨2⟩ 5]).signed first (branch_row_accepts _ _ _)
  exact stays result after run _ List.mem_cons_self (by decide) created

end Containr.Api.Webhooks
