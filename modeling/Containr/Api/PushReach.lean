import Containr.Api.PushDeliveries

/-!
# Which apps a push reaches

A signed delivery is read against secrets that change nothing, and then handled for one app.
An app that asked for the push, but is not the first on its branch, gets no deployment.
-/

namespace Containr.Api.Webhooks

open Containr.Effect Containr.Effect.Program Containr.Api.Services

variable {before after : Tenants}

theorem tenancy_world {op : Op} {answer : op.Answer}
    (can : tenancy.can (.inl op) before answer after) :
    Possible op before.world answer after.world := by
  obtain ⟨choice, admitted, result⟩ := can
  cases result
  exact ⟨choice, admitted, rfl⟩

theorem tenancy_secret {op : SecretOp} {answer : op.Answer}
    (can : tenancy.can (.inr op) before answer after) : after = before := by
  obtain ⟨choice, -, result⟩ := can
  cases result
  rfl

/-- Nothing fails. -/
def reliableChoice : (op : HookEffects.Op) → HookChoice op → Tenants → Prop
  | .inl op, choice, tenants => dependableChoice op choice tenants.world = true
  | .inr .readConfig, _, _ => True
  | .inr .listUsers, fault, _ => fault = none
  | .inr (.getGithubApp _), fault, _ => fault = none

abbrev reliable : Machine HookEffects Tenants := tenancy.only reliableChoice

variable {op : HookEffects.Op} {answer : HookEffects.Answer op}

theorem reliable_tenancy (can : reliable.can op before answer after) :
    tenancy.can op before answer after := by
  obtain ⟨choice, admitted, result⟩ := can
  exact ⟨choice, admitted.1, result⟩

theorem reliable_world {op : Op} {answer : op.Answer}
    (can : reliable.can (.inl op) before answer after) :
    dependable.can op before.world answer after.world := by
  obtain ⟨choice, admitted, result⟩ := can
  cases result
  exact ⟨choice, admitted, rfl⟩

/-- The id that is drawn is above all ids in use. -/
def unusedUuid (world : World) : Uuid :=
  World.freshUuid { world with issued := world.issued ++ world.db.deployments.map (·.id) }

theorem unused_uuid_new (world : World) :
    unusedUuid world ∉ world.issued ∧ unusedId (unusedUuid world) world = true := by
  have new := World.fresh_uuid_new
    { world with issued := world.issued ++ world.db.deployments.map (·.id) }
  have apart : unusedUuid world ∉ world.issued ++ world.db.deployments.map (·.id) := new
  rw [List.mem_append, not_or] at apart
  refine ⟨apart.1, List.all_eq_true.mpr fun row member => ?_⟩
  apply decide_eq_true
  intro same
  exact apart.2 (List.mem_map.mpr ⟨row, member, same⟩)

def steady : reliable.Policy
  | .inl .newUuid, tenants => unusedUuid tenants.world
  | .inl op, tenants => calm op tenants.world
  | .inr .readConfig, _ => ()
  | .inr .listUsers, _ => none
  | .inr (.getGithubApp _), _ => none

theorem steady_admitted (op : HookEffects.Op) (tenants : Tenants) :
    reliable.Admits op (steady op tenants) tenants := by
  rcases op with op | op
  · cases op with
    | newUuid => exact unused_uuid_new tenants.world
    | external action =>
        refine ⟨trivial, ?_⟩
        cases action <;> rfl
    | _ => exact ⟨trivial, rfl⟩
  · cases op with
    | readConfig => exact ⟨trivial, trivial⟩
    | listUsers => exact ⟨trivial, rfl⟩
    | getGithubApp ownerId => exact ⟨trivial, rfl⟩

/-- Every request ends where nothing fails. -/
theorem exists_reliable_run {Value : Type} (program : Program HookEffects Value)
    (tenants : Tenants) : ∃ value final, Runs reliable.can program tenants value final :=
  ⟨_, _, runs_run reliable steady steady_admitted program tenants⟩

def Tenants.secrets (lib : Libraries) (tenants : Tenants) : List String :=
  globalSecrets tenants.config ++ tenants.listUsers.flatMap fun user =>
    appSecrets lib tenants.config (tenants.githubApp user.id)

def Signs (lib : Libraries) (delivery : Delivery) (secret : String) : Prop :=
  ∃ signature, delivery.signature = some signature ∧
    verifyWebhookSignature lib delivery.body signature secret = .ok true

structure Pushes (lib : Libraries) (delivery : Delivery) (push : PushEvent) (branch : String) :
    Prop where
  isPush : delivery.event = some "push"
  parsed : lib.parsePush delivery.body = .ok push
  onRef : extractBranch push.ref = some branch

section Signatures

variable {lib : Libraries} {delivery : Delivery} {signature secret : String}

theorem verify_reads (verified : verifyWebhookSignature lib delivery.body signature secret = .ok true)
    (other : String) :
    ∃ matched, verifyWebhookSignature lib delivery.body signature other = .ok matched := by
  unfold verifyWebhookSignature at verified ⊢
  cases hex : Text.stripFront signature "sha256=" with
  | none =>
      rw [hex] at verified
      cases verified
  | some text =>
      rw [hex] at verified
      dsimp only at verified ⊢
      cases bytes : lib.hexDecode text with
      | error message =>
          rw [bytes] at verified
          cases verified
      | ok decoded => exact ⟨_, rfl⟩

theorem any_matches_of_signs {secrets : List String} (member : secret ∈ secrets)
    (verified : verifyWebhookSignature lib delivery.body signature secret = .ok true) :
    anyMatches lib delivery.body signature secrets = .ok true := by
  induction secrets with
  | nil => cases member
  | cons first rest ih =>
      unfold anyMatches
      obtain ⟨matched, reads⟩ := verify_reads verified first
      rw [reads]
      cases matched with
      | true => rfl
      | false =>
          rcases List.mem_cons.mp member with same | later
          · rw [same, reads] at verified
            cases verified
          · exact ih later

end Signatures

theorem read_delivery_push {lib : Libraries} {delivery : Delivery} {push : PushEvent}
    {branch : String} (pushes : Pushes lib delivery push branch) :
    readDelivery lib delivery = .ok (.inr (push, branch)) := by
  unfold readDelivery
  rw [pushes.isPush, Option.getD_some, if_neg (by simp), pushes.parsed]
  dsimp only
  rw [pushes.onRef]

def IsSecret (op : HookEffects.Op) : Prop := ∃ secret : SecretOp, op = .inr secret

/-- What a call that does not fail answers. -/
def SecretOp.found (tenants : Tenants) : (op : SecretOp) → op.Answer
  | .readConfig => tenants.config
  | .listUsers => .ok tenants.listUsers
  | .getGithubApp ownerId => .ok (tenants.githubApp ownerId)

def Finds (tenants : Tenants) : (op : HookEffects.Op) → HookEffects.Answer op → Prop
  | .inl _, _ => True
  | .inr op, answer => answer = op.found tenants

theorem reliable_finds (can : reliable.can op before answer after) : Finds before op answer := by
  rcases op with op | op
  · trivial
  · obtain ⟨choice, admitted, result⟩ := can
    cases op with
    | readConfig =>
        cases result
        rfl
    | listUsers =>
        have noFault : choice = none := admitted.2
        subst noFault
        cases result
        rfl
    | getGithubApp ownerId =>
        have noFault : choice = none := admitted.2
        subst noFault
        cases result
        rfl

theorem secret_calls (op : SecretOp) : op.call.Calls IsSecret :=
  @calls_perform HookEffects IsSecret (.inr op) ⟨op, rfl⟩

theorem hook_internal_calls {Value : Type} {program : Program HookEffects (Except String Value)}
    {allowed : HookEffects.Op → Prop} (calls : program.Calls allowed) :
    (orInternal program).run.Calls allowed := calls.bind fun _ => calls_pure _

theorem collect_user_secrets_calls (lib : Libraries) (config : HookConfig) (users : List Auth.User)
    (secrets : List String) : (collectUserSecrets lib config users secrets).run.Calls IsSecret := by
  induction users generalizing secrets with
  | nil => exact calls_run_pure _
  | cons user users ih =>
      apply Calls.run_bind (hook_internal_calls (secret_calls _))
      intro found
      exact ih _

theorem verify_delivery_calls (lib : Libraries) (delivery : Delivery) :
    (verifyDelivery lib delivery).run.Calls IsSecret := by
  unfold verifyDelivery
  split
  · exact calls_pure _
  · apply Calls.run_bind
    · apply Calls.run_lift_bind (secret_calls _)
      intro config
      apply Calls.run_bind (hook_internal_calls (secret_calls _))
      intro users
      exact collect_user_secrets_calls _ _ _ _
    intro secrets
    exact calls_pure _

theorem verify_delivery_reads (lib : Libraries) (delivery : Delivery) (tenants : Tenants) :
    (verifyDelivery lib delivery).run.Ensures tenancy.can (fun _ after => after = tenants)
      tenants := by
  have run := @Calls.always HookEffects _ Tenants IsSecret tenancy.can (fun state => state = tenants) _
    (verify_delivery_calls lib delivery) (by
      intro op before answer after isSecret same can
      obtain ⟨secret, rfl⟩ := isSecret
      exact (tenancy_secret can).trans same) tenants rfl
  exact run.restrict (fun _ _ _ _ possible => possible) fun _ _ _ => trivial

section Finding

variable {lib : Libraries} {tenants : Tenants}

theorem found_chain {Value Other : Type} {program : HookHandler Value}
    {next : Value → HookHandler Other} {value : Value} {post : Except ApiError Other → Prop}
    (first : program.run.Under (Finds tenants) IsSecret fun result => result = .ok value)
    (rest : (next value).run.Under (Finds tenants) IsSecret post) :
    (program >>= next).run.Under (Finds tenants) IsSecret post := by
  apply first.run_bind
  intro result same
  rw [same]
  exact rest

theorem call_found (op : SecretOp) :
    (@Program.Under HookEffects op.Answer (Finds tenants) IsSecret op.call
      fun answer => answer = op.found tenants) := by
  apply under_call.mpr
  refine ⟨⟨op, rfl⟩, fun answer finds => ?_⟩
  exact under_pure.mpr finds

theorem internal_found {Value : Type} {program : Program HookEffects (Except String Value)}
    {value : Value}
    (found : program.Under (Finds tenants) IsSecret fun result => result = .ok value) :
    (orInternal program).run.Under (Finds tenants) IsSecret fun result => result = .ok value := by
  unfold orInternal
  apply found.bind
  intro result same
  rw [same]
  exact under_pure.mpr rfl

theorem collect_user_secrets_found (users : List Auth.User) (secrets : List String) :
    (collectUserSecrets lib tenants.config users secrets).run.Under (Finds tenants) IsSecret
      fun result => result = .ok (secrets ++ users.flatMap fun user =>
        appSecrets lib tenants.config (tenants.githubApp user.id)) := by
  induction users generalizing secrets with
  | nil =>
      apply under_pure.mpr
      simp
  | cons user users ih =>
      apply found_chain (internal_found (call_found (.getGithubApp user.id)))
      have rest := ih (secrets ++ appSecrets lib tenants.config (tenants.githubApp user.id))
      rw [List.append_assoc] at rest
      exact rest

theorem collect_webhook_secrets_found :
    (collectWebhookSecrets lib).run.Under (Finds tenants) IsSecret
      fun result => result = .ok (tenants.secrets lib) := by
  apply (call_found .readConfig).run_lift_bind
  intro config same
  rw [same]
  apply found_chain (internal_found (call_found .listUsers))
  exact collect_user_secrets_found _ _

theorem check_signature_ok {delivery : Delivery} {signature secret : String} {secrets : List String}
    (member : secret ∈ secrets)
    (verified : verifyWebhookSignature lib delivery.body signature secret = .ok true) :
    checkSignature lib delivery signature secrets = .ok () := by
  have nonempty : secrets.isEmpty = false := by
    cases secrets with
    | nil => cases member
    | cons first rest => rfl
  unfold checkSignature
  rw [nonempty, any_matches_of_signs member verified]
  rfl

/-- A signature of one of the secrets is accepted where nothing fails. -/
theorem verify_delivery_accepts {delivery : Delivery}
    (signed : ∃ secret ∈ tenants.secrets lib, Signs lib delivery secret) :
    (verifyDelivery lib delivery).run.Ensures reliable.can
      (fun result after => result = .ok () ∧ after = tenants) tenants := by
  obtain ⟨secret, member, signature, isSignature, verified⟩ := signed
  have accepted : (verifyDelivery lib delivery).run.Under (Finds tenants) IsSecret
      fun result => result = .ok () := by
    unfold verifyDelivery
    rw [isSignature]
    apply found_chain collect_webhook_secrets_found
    rw [check_signature_ok member verified]
    exact under_pure.mpr rfl
  have run := @Under.always HookEffects _ _ _ Tenants reliable.can (fun state => state = tenants) _ _
    accepted (fun op before answer after same can => same ▸ reliable_finds can) (by
      intro op before answer after isSecret same can
      obtain ⟨secret, rfl⟩ := isSecret
      exact (tenancy_secret (reliable_tenancy can)).trans same) tenants rfl
  exact run.restrict (fun _ _ _ _ possible => possible) fun _ _ _ => trivial

end Finding

section Handler

variable {lib : Libraries} {tenants : Tenants} {delivery : Delivery} {push : PushEvent}
  {branch : String} {app : App}

/-- Whatever fails, what is stored changes for the app on the branch only. -/
theorem webhook_confined (pushes : Pushes lib delivery push branch) :
    (githubWebhook lib delivery).run.Ensures tenancy.can
      (fun _ after => Confined lib push branch tenants.world after.world) tenants := by
  unfold githubWebhook
  apply (verify_delivery_reads lib delivery tenants).run_bind
  intro result after same
  cases result with
  | error error =>
      rw [same]
      exact Or.inl rfl
  | ok _ =>
      dsimp only
      rw [read_delivery_push pushes, same]
      apply always_run_bind.mpr
      apply always_pure.mpr
      exact (handle_push_confined lib push branch tenants.world).inl Tenants.world
        fun _ _ _ _ can => tenancy_world can

theorem webhook_deploys (pushes : Pushes lib delivery push branch)
    (signed : ∃ secret ∈ tenants.secrets lib, Signs lib delivery secret)
    (found : branchApp tenants.world.db push branch = some app) (accepts : Accepts lib push app) :
    (githubWebhook lib delivery).run.Ensures reliable.can
      (fun _ after => Deployed app.id tenants.world after.world) tenants := by
  unfold githubWebhook
  apply (verify_delivery_accepts signed).run_bind
  intro result after facts
  rw [facts.1, facts.2]
  dsimp only
  rw [read_delivery_push pushes]
  apply always_run_bind.mpr
  apply always_pure.mpr
  exact (handle_push_deploys found accepts).inl Tenants.world fun _ _ _ _ can => reliable_world can

/-- A new deployment belongs to the app on the branch, and that accepted the push. -/
theorem Confined.first {appId : Uuid} {before after : World}
    (confined : Confined lib push branch before after) {row : Deployment}
    (stored : row ∈ after.db.deployments) (new : ∀ old ∈ before.db.deployments, old.id ≠ row.id)
    (isApp : row.appId = appId) :
    ∃ first, branchApp before.db push branch = some first ∧ Accepts lib push first ∧
      first.id = appId := by
  rcases confined with same | ⟨first, found, accepts, adds⟩
  · rw [same] at stored
    exact absurd rfl (new row stored)
  · refine ⟨first, found, accepts, ?_⟩
    rcases adds row stored with own | ⟨old, known, sameId⟩
    · rw [← own, isApp]
    · exact absurd sameId (new old known)

theorem app_of_id {db : Database} (keyed : (db.apps.map (·.id)).Nodup) {app other : App}
    (member : app ∈ db.apps) (otherMember : other ∈ db.apps) (same : app.id = other.id) :
    app = other := List.inj_on_of_nodup_map keyed member otherMember same

def Asked (lib : Libraries) (push : PushEvent) (branch : String) (app : App) : Prop :=
  onBranch push.repository.htmlUrl branch app = true ∧ Accepts lib push app

/-- Where nothing fails, a signed push gets a deployment to each app that asked for it exactly
when no app asked but the first one on the branch. -/
theorem push_reaches_iff (pushes : Pushes lib delivery push branch)
    (signed : ∃ secret ∈ tenants.secrets lib, Signs lib delivery secret)
    (keyed : (tenants.world.db.apps.map (·.id)).Nodup) :
    (∀ result after, Runs reliable.can (githubWebhook lib delivery).run tenants result after →
      ∀ app ∈ tenants.world.db.apps, Asked lib push branch app →
        Deployed app.id tenants.world after.world) ↔
      ∀ app ∈ tenants.world.db.apps, Asked lib push branch app →
        branchApp tenants.world.db push branch = some app := by
  constructor
  · intro reached app member asked
    obtain ⟨result, after, run⟩ := exists_reliable_run (githubWebhook lib delivery).run tenants
    obtain ⟨id, unused, ⟨row, stored, isId, isApp⟩, -⟩ := reached result after run app member asked
    have confined : Confined lib push branch tenants.world after.world :=
      ((webhook_confined pushes).restrict (fun _ _ _ _ can => reliable_tenancy can)
        fun _ _ _ => trivial).runs run
    have new : ∀ old ∈ tenants.world.db.deployments, old.id ≠ row.id := by
      intro old known
      rw [isId]
      exact unused old known
    obtain ⟨first, found, -, sameId⟩ := confined.first stored new isApp
    rw [found, app_of_id keyed (branch_app_mem found).1 member sameId]
  · intro only result after run app member asked
    exact (webhook_deploys pushes signed (only app member asked) asked.2).runs run

end Handler

def asciiBytes (text : String) : List UInt8 := text.toList.map fun ch => UInt8.ofNat ch.toNat

@[irreducible] def demoBody : List UInt8 := asciiBytes
  ("\x7b\"ref\":\"refs/heads/main\",\"after\":\"abc123\",\"repository\":\x7b\"full_name\":" ++
    "\"a/b\",\"clone_url\":\"https://github.com/a/b.git\",\"html_url\":" ++
    "\"https://github.com/a/b\"\x7d,\"head_commit\":null\x7d")

def demoPush : PushEvent where
  ref := "refs/heads/main"
  after := "abc123"
  repository := ⟨"a/b", "https://github.com/a/b.git", "https://github.com/a/b"⟩
  commits := []
  headCommit := none

def hexDigit (ch : Char) : Option UInt8 :=
  if '0' ≤ ch ∧ ch ≤ '9' then some (UInt8.ofNat (ch.toNat - 48))
  else if 'a' ≤ ch ∧ ch ≤ 'f' then some (UInt8.ofNat (ch.toNat - 87))
  else if 'A' ≤ ch ∧ ch ≤ 'F' then some (UInt8.ofNat (ch.toNat - 55))
  else none

def hexPairs : List Char → Except String (List UInt8)
  | [] => .ok []
  | [_] => .error "odd number of digits"
  | high :: low :: rest =>
      match hexDigit high, hexDigit low with
      | some first, some second => (hexPairs rest).map ((16 * first + second) :: ·)
      | _, _ => .error "invalid character"

def demoHash (secret : String) : List UInt8 :=
  if secret = "shared-secret" then
    [148, 194, 200, 253, 238, 90, 71, 254, 91, 246, 134, 193, 11, 83, 132, 173, 209, 8, 212, 248,
      87, 179, 167, 83, 9, 185, 69, 45, 40, 150, 230, 15]
  else if secret = "first-secret" then
    [176, 231, 145, 152, 161, 24, 43, 167, 141, 62, 191, 68, 144, 251, 135, 66, 20, 123, 156, 13,
      86, 74, 6, 199, 41, 137, 4, 251, 32, 255, 186, 155]
  else if secret = "second-secret" then
    [218, 44, 28, 212, 151, 74, 246, 226, 188, 243, 71, 89, 35, 21, 30, 105, 163, 115, 182, 75,
      132, 47, 117, 161, 206, 209, 206, 151, 114, 228, 110, 119]
  else []

/-- No key is configured and no path is watched, so nothing is decrypted and no pattern built. -/
def demoLibraries : Libraries where
  hexDecode text := hexPairs text.toList
  hmacSha256 secret payload := if payload = demoBody then demoHash secret else []
  decrypt _ _ := .error "aead::Error"
  parsePush body := if body = demoBody then .ok demoPush else .error "expected value at line 1 column 1"
  Glob := String
  newGlob pattern := .ok pattern
  buildGlobSet patterns := .ok fun path => patterns.contains path

def demoDigits : List Char :=
  ['b', '0', 'e', '7', '9', '1', '9', '8', 'a', '1', '1', '8', '2', 'b', 'a', '7', '8', 'd', '3',
    'e', 'b', 'f', '4', '4', '9', '0', 'f', 'b', '8', '7', '4', '2', '1', '4', '7', 'b', '9', 'c',
    '0', 'd', '5', '6', '4', 'a', '0', '6', 'c', '7', '2', '9', '8', '9', '0', '4', 'f', 'b', '2',
    '0', 'f', 'f', 'b', 'a', '9', 'b']

def demoSignature : String := "sha256=" ++ String.ofList demoDigits

/-- Signed with the secret of the first user's GitHub app. -/
def demoDelivery : Delivery := ⟨some demoSignature, some "push", demoBody⟩

def demoUser (id : Uuid) (email : String) : Auth.User :=
  ⟨id, email, some "hash", none, none, none, false, 0, 0⟩

def branchRow (id ownerId : Uuid) (createdAt : Time) : App :=
  { Worker.demoApp with
    id := id
    ownerId := ownerId
    githubUrl := "https://github.com/a/b"
    services := []
    createdAt := createdAt }

def demoTenants (apps : List App) : Tenants where
  world := { World.empty with db := { Database.empty with apps := apps } }
  users := [demoUser ⟨1⟩ "first@example.com", demoUser ⟨2⟩ "second@example.com"]
  githubApps := [⟨⟨1⟩, "first-secret"⟩, ⟨⟨2⟩, "second-secret"⟩]
  config := ⟨"shared-secret", "", none⟩

theorem demo_pushes : Pushes demoLibraries demoDelivery demoPush "main" :=
  ⟨rfl, if_pos rfl, by decide +kernel⟩

theorem demo_verify (secret : String) :
    verifyWebhookSignature demoLibraries demoBody demoSignature secret =
      .ok (demoHash secret = demoHash "first-secret") := by
  have decoded : demoLibraries.hexDecode (String.ofList demoDigits) =
      .ok (demoHash "first-secret") := by
    change hexPairs (String.ofList demoDigits).toList = _
    rw [String.toList_ofList]
    decide +kernel
  have hashed : demoLibraries.hmacSha256 secret demoBody = demoHash secret := if_pos rfl
  unfold verifyWebhookSignature demoSignature
  rw [Text.strip_front_append]
  dsimp only
  rw [decoded, hashed]

theorem demo_secrets (apps : List App) : (demoTenants apps).secrets demoLibraries =
    ["shared-secret", "first-secret", "second-secret"] := by
  have same : (demoTenants apps).secrets demoLibraries = (demoTenants []).secrets demoLibraries :=
    rfl
  rw [same]
  decide +kernel

theorem demo_signed (apps : List App) : ∃ secret ∈ (demoTenants apps).secrets demoLibraries,
    Signs demoLibraries demoDelivery secret := by
  refine ⟨"first-secret", ?_, demoSignature, rfl, ?_⟩
  · rw [demo_secrets]
    simp
  · have verified := demo_verify "first-secret"
    rw [decide_eq_true rfl] at verified
    exact verified

theorem branch_row_accepts (id ownerId : Uuid) (createdAt : Time) :
    Accepts demoLibraries demoPush (branchRow id ownerId createdAt) := ⟨rfl, rfl⟩

theorem branch_row_on_branch (id ownerId : Uuid) (createdAt : Time) :
    onBranch demoPush.repository.htmlUrl "main" (branchRow id ownerId createdAt) = true := by
  have same : sameRepoUrl "https://github.com/a/b" "https://github.com/a/b" = true := by
    decide +kernel
  change (sameRepoUrl "https://github.com/a/b" "https://github.com/a/b" && _) = true
  rw [same]
  rfl

theorem branch_row_first (id ownerId : Uuid) (createdAt : Time) (rest : List App) {db : Database}
    (listed : db.appRows = branchRow id ownerId createdAt :: rest) :
    branchApp db demoPush "main" = some (branchRow id ownerId createdAt) := by
  unfold branchApp
  rw [listed]
  exact List.find?_cons_of_pos (branch_row_on_branch id ownerId createdAt)

/-- A newer app on another branch, and an older one on the same that is not deployed. -/
def demoSilent : List App :=
  [{ branchRow ⟨11⟩ ⟨2⟩ 6 with branch := "develop" },
    { branchRow ⟨12⟩ ⟨1⟩ 3 with autoDeployEnabled := false }]

def demoMixed : Tenants := demoTenants (branchRow ⟨10⟩ ⟨1⟩ 5 :: demoSilent)

theorem only_app_reached :
    branchApp demoMixed.world.db demoPush "main" = some (branchRow ⟨10⟩ ⟨1⟩ 5) ∧
    ∀ result after,
      Runs reliable.can (githubWebhook demoLibraries demoDelivery).run demoMixed result after →
      ∀ app ∈ demoMixed.world.db.apps, Asked demoLibraries demoPush "main" app →
        Deployed app.id demoMixed.world after.world := by
  have elsewhere : onBranch demoPush.repository.htmlUrl "main"
      { branchRow ⟨11⟩ ⟨2⟩ 6 with branch := "develop" } = false := Bool.and_false _
  have first : branchApp demoMixed.world.db demoPush "main" = some (branchRow ⟨10⟩ ⟨1⟩ 5) := by
    change List.find? _ ({ branchRow ⟨11⟩ ⟨2⟩ 6 with branch := "develop" } ::
      branchRow ⟨10⟩ ⟨1⟩ 5 :: _) = _
    rw [List.find?_cons_of_neg (Bool.not_eq_true _ ▸ elsewhere)]
    exact List.find?_cons_of_pos (branch_row_on_branch _ _ _)
  refine ⟨first, ?_⟩
  apply (push_reaches_iff demo_pushes (demo_signed _) (by decide)).mpr
  intro app member asked
  rcases List.mem_cons.mp member with rfl | silent
  · exact first
  · rcases List.mem_cons.mp silent with rfl | older
    · rw [asked.1] at elsewhere
      cases elsewhere
    · rw [List.mem_singleton.mp older] at asked
      cases asked.2.1

/-- Two apps on one branch: the push reaches the newer one only. -/
theorem older_app_missed : ¬∀ result after,
    Runs reliable.can (githubWebhook demoLibraries demoDelivery).run
      (demoTenants [branchRow ⟨10⟩ ⟨1⟩ 5, branchRow ⟨11⟩ ⟨1⟩ 6]) result after →
    ∀ app ∈ [branchRow ⟨10⟩ ⟨1⟩ 5, branchRow ⟨11⟩ ⟨1⟩ 6], Asked demoLibraries demoPush "main" app →
      Deployed app.id (demoTenants [branchRow ⟨10⟩ ⟨1⟩ 5, branchRow ⟨11⟩ ⟨1⟩ 6]).world
        after.world := by
  intro reached
  obtain ⟨result, after, run⟩ := exists_reliable_run (githubWebhook demoLibraries demoDelivery).run
    (demoTenants [branchRow ⟨10⟩ ⟨1⟩ 5, branchRow ⟨11⟩ ⟨1⟩ 6])
  obtain ⟨id, unused, ⟨row, stored, isId, isApp⟩, -⟩ := reached result after run (branchRow ⟨10⟩ ⟨1⟩ 5)
    List.mem_cons_self ⟨branch_row_on_branch _ _ _, branch_row_accepts _ _ _⟩
  have confined := ((webhook_confined demo_pushes).restrict (fun _ _ _ _ can => reliable_tenancy can)
    fun _ _ _ => trivial).runs run
  have newer : branchApp (demoTenants [branchRow ⟨10⟩ ⟨1⟩ 5, branchRow ⟨11⟩ ⟨1⟩ 6]).world.db demoPush
      "main" = some (branchRow ⟨11⟩ ⟨1⟩ 6) := branch_row_first _ _ _ [branchRow ⟨10⟩ ⟨1⟩ 5] rfl
  obtain ⟨first, found, -, sameId⟩ := confined.first stored (fun _ known => by cases known) isApp
  rw [newer] at found
  rw [← Option.some.inj found] at sameId
  revert sameId
  decide

end Containr.Api.Webhooks
