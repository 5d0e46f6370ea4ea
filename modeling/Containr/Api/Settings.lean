import Containr.Auth.Users
import Containr.Effect.Amid

/-!
# `containr-api/src/handlers/settings.rs`

A request changes the configuration in memory under the lock and then writes the file from
a reading of its own. `tokio::fs::write` opens the file, which empties it, and writes the
text from the start; requests come between any two of these steps. The configuration has
the fields the handler reads or sets. The TOML library is a parameter.
-/

namespace Containr.Api.Settings

open Containr.Effect Containr.Effect.Program

structure ProxyConfig where
  httpPort : Nat
  httpsPort : Nat
  baseDomain : String
  publicIp : Option String
deriving DecidableEq, Repr

structure StorageConfig where
  rustfsManagementEndpoint : String
  rustfsInternalHost : String
  rustfsPort : Nat
  rustfsPublicHostname : Option String
deriving DecidableEq, Repr

structure LoggingConfig where
  dir : String
  retentionDays : Nat
deriving DecidableEq, Repr

structure AcmeConfig where
  email : String
  staging : Bool
deriving DecidableEq, Repr

structure Config where
  serverPort : Nat
  jwtSecret : String
  proxy : ProxyConfig
  storage : StorageConfig
  logging : LoggingConfig
  acme : AcmeConfig
deriving DecidableEq, Repr

structure UpdateSettingsRequest where
  baseDomain : Option String
  publicIp : Option String
  storagePublicHostname : Option String
  storageManagementEndpoint : Option String
  storageInternalHost : Option String
  storagePort : Option Nat
  logRetentionDays : Option Nat
  acmeEmail : Option String
  acmeStaging : Option Bool
deriving DecidableEq, Repr

structure SettingsResponse where
  dashboardUrl : Option String
  apiPort : Nat
  baseDomain : String
  publicIp : Option String
  storagePublicHostname : Option String
  storageManagementEndpoint : String
  storageInternalHost : String
  storagePort : Nat
  logDir : String
  logRetentionDays : Nat
  httpPort : Nat
  httpsPort : Nat
  acmeEmail : String
  acmeStaging : Bool
deriving DecidableEq, Repr

def dashboardUrl (baseDomain : String) : Option String :=
  let baseDomain := Text.trimEndMatches (Text.trim baseDomain) '/'
  if baseDomain.isEmpty then none else some ("https://" ++ baseDomain)

def buildSettingsResponse (config : Config) : SettingsResponse where
  dashboardUrl := dashboardUrl config.proxy.baseDomain
  apiPort := config.serverPort
  baseDomain := config.proxy.baseDomain
  publicIp := config.proxy.publicIp
  storagePublicHostname := config.storage.rustfsPublicHostname
  storageManagementEndpoint := config.storage.rustfsManagementEndpoint
  storageInternalHost := config.storage.rustfsInternalHost
  storagePort := config.storage.rustfsPort
  logDir := config.logging.dir
  logRetentionDays := config.logging.retentionDays
  httpPort := config.proxy.httpPort
  httpsPort := config.proxy.httpsPort
  acmeEmail := config.acme.email
  acmeStaging := config.acme.staging

def normalizeCertificateDomain (value : String) : Option String :=
  let schemeless := Text.trimStartMatches (Text.trimStartMatches (Text.trim value) "https://")
    "http://"
  let normalized := Text.trimEndMatches schemeless '/'
  if normalized.isEmpty then none else some normalized

def present (value : String) : Option String := if value.isEmpty then none else some value

def setBaseDomain (request : UpdateSettingsRequest) (config : Config) : Config × List String :=
  match request.baseDomain with
  | none => (config, [])
  | some baseDomain =>
      let baseDomain := Text.trim baseDomain
      ({ config with proxy.baseDomain := baseDomain },
        if baseDomain.isEmpty then [] else [baseDomain])

def setPublicIp (request : UpdateSettingsRequest) (config : Config) : Config :=
  match request.publicIp with
  | none => config
  | some publicIp => { config with proxy.publicIp := present (Text.trim publicIp) }

def setPublicHostname (request : UpdateSettingsRequest) (config : Config) :
    Config × List String :=
  match request.storagePublicHostname with
  | none => (config, [])
  | some hostname =>
      let normalized := Text.trimEndMatches (Text.trim hostname) '/'
      ({ config with storage.rustfsPublicHostname := present normalized },
        (normalizeCertificateDomain normalized).toList)

/-- The fields that ask for no certificate. -/
def setOthers (request : UpdateSettingsRequest) (config : Config) : Config :=
  let endpoint := Text.trimEndMatches
    (Text.trim (request.storageManagementEndpoint.getD "")) '/'
  let host := Text.trim (request.storageInternalHost.getD "")
  { config with
    storage := { config.storage with
      rustfsManagementEndpoint :=
        (present endpoint).getD config.storage.rustfsManagementEndpoint
      rustfsInternalHost := (present host).getD config.storage.rustfsInternalHost
      rustfsPort := request.storagePort.getD config.storage.rustfsPort }
    logging.retentionDays := request.logRetentionDays.getD config.logging.retentionDays
    acme := ⟨request.acmeEmail.getD config.acme.email,
      request.acmeStaging.getD config.acme.staging⟩ }

/-- The block under the write lock, with the domains it asks certificates for. -/
def applySettings (request : UpdateSettingsRequest) (config : Config) : Config × List String :=
  let (config, baseDomains) := setBaseDomain request config
  let (config, hostnames) := setPublicHostname request (setPublicIp request config)
  (setOthers request config, baseDomains ++ hostnames)

abbrev Bytes : Type := List UInt8

/-- `toml::to_string_pretty`, and the parser the file is loaded with. -/
structure Toml where
  toStringPretty : Config → Except String Bytes
  fromStr : Bytes → Option Config

def Toml.RoundTrips (toml : Toml) : Prop := ∀ config content,
  toml.toStringPretty config = .ok content → toml.fromStr content = some config

/-- A failed write leaves so many bytes of it in the file. -/
structure WriteFault where
  message : String
  written : Nat
deriving DecidableEq, Repr

inductive SettingsOp where
  | readConfig
  | validateToken (token secret : String)
  | getUser (id : Uuid)
  | update (request : UpdateSettingsRequest)
  | serialize
  | createFile
  | writeAll (content : Bytes)
  | sendCertRequest (domain : String)
deriving DecidableEq, Repr

def SettingsOp.Answer : SettingsOp → Type
  | .readConfig => Config
  | .validateToken _ _ => Except String Uuid
  | .getUser _ => Except String (Option Auth.User)
  | .update _ => List String
  | .serialize => Except String Bytes
  | .createFile | .writeAll _ => Except String Unit
  | .sendCertRequest _ => Unit

abbrev SettingsFace : Interface := ⟨SettingsOp, SettingsOp.Answer⟩

abbrev SettingsProg (Value : Type) : Type := Program SettingsFace Value

abbrev SettingsHandler (Value : Type) : Type := ExceptT ApiError (Program SettingsFace) Value

def SettingsOp.call (op : SettingsOp) : SettingsProg op.Answer := @perform SettingsFace op

def SettingsOp.Choice : SettingsOp → Type
  | .validateToken _ _ => Except String Uuid
  | .getUser _ => Except String (Option Auth.User)
  | .createFile => Option String
  | .writeAll _ => Option WriteFault
  | .readConfig | .update _ | .serialize | .sendCertRequest _ => Unit

structure SettingsState where
  memory : Config
  file : Bytes
deriving DecidableEq, Repr

/-- The file after a write from its start. -/
def overwrite (content file : Bytes) : Bytes := content ++ file.drop content.length

def SettingsOp.exec (toml : Toml) : (op : SettingsOp) → op.Choice → SettingsState →
    op.Answer × SettingsState
  | .readConfig, _, state => (state.memory, state)
  | .validateToken _ _, reply, state => (reply, state)
  | .getUser _, reply, state => (reply, state)
  | .update request, _, state =>
      let applied := applySettings request state.memory
      (applied.2, { state with memory := applied.1 })
  | .serialize, _, state => (toml.toStringPretty state.memory, state)
  | .createFile, fault, state =>
      match fault with
      | some message => (.error message, state)
      | none => (.ok (), { state with file := [] })
  | .writeAll content, fault, state =>
      match fault with
      | some fault => (.error fault.message,
          { state with file := overwrite (content.take fault.written) state.file })
      | none => (.ok (), { state with file := overwrite content state.file })
  | .sendCertRequest _, _, state => ((), state)

def settingsSystem (toml : Toml) : Machine SettingsFace SettingsState :=
  ⟨SettingsOp.Choice, SettingsOp.exec toml, fun _ _ _ => True⟩

/-- The header is `none` when it is missing or no visible ASCII. -/
def getUserId (header : Option String) (jwtSecret : String) : SettingsHandler Uuid := do
  match header with
  | none => throw ⟨401, "missing authorization header"⟩
  | some header =>
      match Text.stripFront header "Bearer " with
      | none => throw ⟨401, "invalid authorization header"⟩
      | some token =>
          match ← (SettingsOp.validateToken token jwtSecret).call with
          | Except.error message => throw ⟨401, message⟩
          | Except.ok id => return id

def requireAdminUser (header : Option String) : SettingsHandler Auth.User := do
  let config : Config ← SettingsOp.readConfig.call
  let userId ← getUserId header config.jwtSecret
  match ← (SettingsOp.getUser userId).call with
  | Except.error _ => throw internalError
  | Except.ok none => throw ⟨401, "user not found"⟩
  | Except.ok (some user) =>
      if user.isAdmin then return user else throw ⟨403, "admin access required"⟩

def saveConfig : SettingsProg (Except String Unit) :=
  SettingsOp.serialize.call.bind fun (serialized : Except String Bytes) => match serialized with
    | .error message => .pure (.error ("failed to serialize config: " ++ message))
    | .ok content => SettingsOp.createFile.call.bind fun (created : Except String Unit) =>
        match created with
        | .error message => .pure (.error ("failed to write config file: " ++ message))
        | .ok () => (SettingsOp.writeAll content).call.bind fun (written : Except String Unit) =>
            match written with
            | .error message => .pure (.error ("failed to write config file: " ++ message))
            | .ok () => .pure (.ok ())

def requestCertificates (certRequestTx : Bool) (domains : List String) : SettingsProg Unit :=
  if certRequestTx then
    forAll (fun domain =>
      if domain.isEmpty then .pure () else (SettingsOp.sendCertRequest domain).call) domains
  else .pure ()

def finishUpdate (certRequestTx : Bool) (domains : List String) :
    SettingsProg (Except ApiError SettingsResponse) :=
  SettingsOp.readConfig.call.bind fun (config : Config) =>
    (requestCertificates certRequestTx domains).bind fun _ =>
      .pure (.ok (buildSettingsResponse config))

/-- From the write lock on. -/
def applyAndSave (certRequestTx : Bool) (request : UpdateSettingsRequest) :
    SettingsProg (Except ApiError SettingsResponse) :=
  (SettingsOp.update request).call.bind fun (domains : List String) =>
    saveConfig.bind fun saved => match saved with
      | .error _ => .pure (.error internalError)
      | .ok () => finishUpdate certRequestTx domains

def updateSettings (certRequestTx : Bool) (header : Option String)
    (request : UpdateSettingsRequest) : SettingsProg (Except ApiError SettingsResponse) :=
  (requireAdminUser header).run.bind fun admin => match admin with
    | .error error => .pure (.error error)
    | .ok _ => applyAndSave certRequestTx request

def SettingsOp.remember : SettingsOp → Config → Config
  | .update request, config => (applySettings request config).1
  | _, config => config

def emptied : Call SettingsFace → Bool
  | ⟨.createFile, Except.ok ()⟩ => true
  | _ => false

def written : Call SettingsFace → Option Bytes
  | ⟨.writeAll content, Except.ok ()⟩ => some content
  | _ => none

def cutShort : Call SettingsFace → Bool
  | ⟨.writeAll _, Except.error _⟩ => true
  | _ => false

def failedEarly : Call SettingsFace → Bool
  | ⟨.serialize, Except.error _⟩ | ⟨.createFile, Except.error _⟩ => true
  | _ => false

def touchesFile (call : Call SettingsFace) : Bool :=
  emptied call || (written call).isSome || cutShort call

/-- Neither memory nor file. -/
def Quiet : SettingsOp → Prop
  | .readConfig | .validateToken _ _ | .getUser _ | .serialize | .sendCertRequest _ => True
  | .update _ | .createFile | .writeAll _ => False

theorem Quiet.still {op : SettingsOp} (quiet : Quiet op) (answer : op.Answer) (config : Config) :
    op.remember config = config ∧ touchesFile ⟨op, answer⟩ = false := by
  cases op with
  | update request => exact quiet.elim
  | createFile => exact quiet.elim
  | writeAll content => exact quiet.elim
  | _ => exact ⟨rfl, rfl⟩

/-- What one call does. -/
theorem settings_step {toml : Toml} {op : SettingsOp} {answer : op.Answer}
    {state after : SettingsState} (possible : (settingsSystem toml).can op state answer after) :
    after.memory = op.remember state.memory ∧
      (touchesFile ⟨op, answer⟩ = false → after.file = state.file) ∧
      ∀ content, written ⟨op, answer⟩ = some content → after.file = overwrite content state.file := by
  obtain ⟨choice, -, result⟩ := possible
  have executed : op.exec toml choice state = (answer, after) := result
  cases op with
  | createFile =>
      cases choice with
      | some message =>
          cases executed
          exact ⟨rfl, fun _ => rfl, nofun⟩
      | none =>
          cases executed
          exact ⟨rfl, nofun, nofun⟩
  | writeAll content =>
      cases choice with
      | some fault =>
          cases executed
          exact ⟨rfl, nofun, nofun⟩
      | none =>
          cases executed
          refine ⟨rfl, nofun, fun other same => ?_⟩
          rw [Option.some.inj same]
  | _ =>
      cases executed
      exact ⟨rfl, fun _ => rfl, nofun⟩

section Histories

variable {Thread : Type}

def memoryAfter (start : Config) (history : List (Event SettingsFace Thread)) : Config :=
  history.foldl (fun config event => event.op.remember config) start

def Changed (start : Config) (thread : Thread) (history : List (Event SettingsFace Thread)) : Prop :=
  Since (fun before event => event.thread = thread ∧
    event.op.remember (memoryAfter start before) ≠ memoryAfter start before) (fun _ => False) history

def Touched (start : Config) (thread : Thread) (history : List (Event SettingsFace Thread)) : Prop :=
  Since (fun before event => event.thread = thread ∧
    (event.op.remember (memoryAfter start before) ≠ memoryAfter start before ∨
      touchesFile ⟨event.op, event.answer⟩ = true)) (fun _ => False) history

def Owes (start : Config) (thread : Thread) (history : List (Event SettingsFace Thread)) : Prop :=
  Since (fun before event => event.thread = thread ∧
    (event.op.remember (memoryAfter start before) ≠ memoryAfter start before ∨
      emptied ⟨event.op, event.answer⟩ = true))
    (fun event => event.thread = thread ∧ (written ⟨event.op, event.answer⟩).isSome = true) history

/-- A step in order: saving fails only for a request that has changed nothing, and what is
written is the text of the configuration as it is then, and covers the file. -/
structure InOrder (toml : Toml) (start : Config) (history : List (Event SettingsFace Thread))
    (state : SettingsState) (event : Event SettingsFace Thread) : Prop where
  early : failedEarly ⟨event.op, event.answer⟩ = true → ¬Changed start event.thread history
  whole : cutShort ⟨event.op, event.answer⟩ = false
  current : ∀ content, written ⟨event.op, event.answer⟩ = some content →
    toml.toStringPretty state.memory = .ok content ∧ state.file.length ≤ content.length

def Orderly (toml : Toml) (start : Config) {Value : Type} :
    Pool.Restriction SettingsFace Thread Value SettingsState :=
  fun history pool event => InOrder toml start history pool.state event

def Saved (toml : Toml) (state : SettingsState) : Prop :=
  toml.fromStr state.file = some state.memory

instance (toml : Toml) (state : SettingsState) : Decidable (Saved toml state) :=
  inferInstanceAs (Decidable (toml.fromStr state.file = some state.memory))

variable {toml : Toml} {start : Config} {thread : Thread}
  {history others : List (Event SettingsFace Thread)}

theorem Owes.touched (owes : Owes start thread history) : Touched start thread history := by
  obtain ⟨before, first, later, split, ⟨own, harm⟩, -⟩ := owes
  refine ⟨before, first, later, split, ⟨own, ?_⟩, fun _ _ => not_false⟩
  rcases harm with changes | empties
  · exact Or.inl changes
  · refine Or.inr ?_
    unfold touchesFile
    rw [empties, Bool.true_or, Bool.true_or]

theorem Changed.append (changed : Changed start thread history)
    (others : List (Event SettingsFace Thread)) : Changed start thread (history ++ others) :=
  Since.append changed others fun _ _ => not_false

variable {op : SettingsOp} {answer : op.Answer}

theorem touched_own (foreign : ∀ event ∈ others, event.thread ≠ thread)
    (touched : Touched start thread (history ++ others ++ [⟨thread, op, answer⟩])) :
    op.remember (memoryAfter start (history ++ others)) ≠ memoryAfter start (history ++ others) ∨
      touchesFile ⟨op, answer⟩ = true ∨ Touched start thread history := by
  rcases since_append touched with ⟨-, harm⟩ | ⟨earlier, -⟩
  · rcases harm with changes | touches
    · exact Or.inl changes
    · exact Or.inr (Or.inl touches)
  · exact Or.inr (Or.inr (Since.of_append earlier
      fun before event member own => foreign event member own.1))

theorem touched_quiet (foreign : ∀ event ∈ others, event.thread ≠ thread) (quiet : Quiet op)
    (touched : Touched start thread (history ++ others ++ [⟨thread, op, answer⟩])) :
    Touched start thread history := by
  have still := quiet.still answer (memoryAfter start (history ++ others))
  rcases touched_own foreign touched with changes | touches | earlier
  · exact absurd still.1 changes
  · rw [still.2] at touches
    cases touches
  · exact earlier

theorem owes_quiet (foreign : ∀ event ∈ others, event.thread ≠ thread) (quiet : Quiet op)
    (owes : Owes start thread (history ++ others ++ [⟨thread, op, answer⟩])) :
    Owes start thread history := by
  have still := quiet.still answer (memoryAfter start (history ++ others))
  rcases since_append owes with ⟨-, harm⟩ | ⟨earlier, -⟩
  · rcases harm with changes | empties
    · exact absurd still.1 changes
    · have untouched := still.2
      unfold touchesFile at untouched
      rw [empties] at untouched
      cases untouched
  · exact Since.of_append earlier fun before event member own => foreign event member own.1

def Answered (start : Config) (thread : Thread) (history : List (Event SettingsFace Thread))
    (op : SettingsOp) (answer : op.Answer) : Prop :=
  (failedEarly ⟨op, answer⟩ = true → ¬Changed start thread history) ∧ cutShort ⟨op, answer⟩ = false

/-- A request that ends with an error has changed nothing, any other has written. -/
def Settled (start : Config) (thread : Thread) (history : List (Event SettingsFace Thread)) :
    Except ApiError SettingsResponse → Prop
  | .error _ => ¬Touched start thread history
  | .ok _ => ¬Owes start thread history

variable (certRequestTx : Bool) (header : Option String)

theorem get_user_id_calls (jwtSecret : String) : (getUserId header jwtSecret).run.Calls Quiet := by
  unfold getUserId
  cases header with
  | none => exact calls_run_throw _
  | some header =>
      dsimp only
      cases Text.stripFront header "Bearer " with
      | none => exact calls_run_throw _
      | some token =>
          apply Calls.run_lift_bind (calls_perform trivial)
          intro (validated : Except String Uuid)
          cases validated with
          | error message => exact calls_run_throw _
          | ok id => exact calls_run_pure _

theorem require_admin_user_calls : (requireAdminUser header).run.Calls Quiet := by
  unfold requireAdminUser
  apply Calls.run_lift_bind (calls_perform trivial)
  intro config
  apply Calls.run_bind (get_user_id_calls header _)
  intro userId
  apply Calls.run_lift_bind (calls_perform trivial)
  intro (found : Except String (Option Auth.User))
  cases found with
  | error message => exact calls_run_throw _
  | ok found =>
      cases found with
      | none => exact calls_run_throw _
      | some user => exact calls_ite (calls_run_pure _) (calls_run_throw _)

theorem request_certificates_calls (domains : List String) :
    (requestCertificates certRequestTx domains).Calls Quiet :=
  calls_ite (calls_for_all domains fun _ _ => calls_ite (calls_pure _) (calls_perform trivial))
    (calls_pure _)

theorem quiet_ensures {Value : Type} {program : SettingsProg Value}
    {kept : List (Event SettingsFace Thread) → Prop} (calls : program.Calls Quiet)
    (keeps : ∀ history others op answer, (∀ event ∈ others, event.thread ≠ thread) → Quiet op →
      kept history → kept (history ++ others ++ [⟨thread, op, answer⟩])) (holds : kept history) :
    program.Ensures (Amid thread (Answered start thread)) (fun _ after => kept after) history := by
  apply (calls.always _ holds).restrict (fun _ _ _ _ possible => possible) (fun _ _ _ => trivial)
  rintro op before answer after quiet held ⟨others, foreign, rfl, -⟩
  exact keeps before others op answer foreign quiet held

/-- Saving: an error leaves the request as it was, success owes nothing. -/
theorem save_config_ensures (known : Touched start thread history → Changed start thread history) :
    saveConfig.Ensures (Amid thread (Answered start thread)) (fun result after => match result with
      | .error _ => ¬Touched start thread after
      | .ok _ => ¬Owes start thread after) history := by
  have quiet : Quiet .serialize := trivial
  unfold saveConfig
  apply always_bind.mpr
  apply always_perform.mpr
  refine ⟨trivial, ?_⟩
  rintro (serialized : Except String Bytes) after ⟨others, foreign, rfl, early, -⟩
  cases serialized with
  | error message =>
      apply always_pure.mpr
      intro touched
      exact early rfl ((known (touched_quiet foreign quiet touched)).append others)
  | ok content =>
      have still : Touched start thread
          (history ++ others ++ [⟨thread, .serialize, Except.ok content⟩]) →
            Changed start thread
              (history ++ others ++ [⟨thread, .serialize, Except.ok content⟩]) := by
        intro touched
        rw [List.append_assoc]
        exact (known (touched_quiet foreign quiet touched)).append _
      apply always_bind.mpr
      apply always_perform.mpr
      refine ⟨trivial, ?_⟩
      rintro (created : Except String Unit) after ⟨meanwhile, foreignToo, rfl, early, -⟩
      cases created with
      | error message =>
          apply always_pure.mpr
          intro touched
          rcases touched_own foreignToo touched with changes | touches | earlier
          · exact changes rfl
          · cases touches
          · exact early rfl ((still earlier).append meanwhile)
      | ok _ =>
          apply always_bind.mpr
          apply always_perform.mpr
          refine ⟨trivial, ?_⟩
          rintro (put : Except String Unit) after ⟨rest, foreignStill, rfl, -, whole⟩
          cases put with
          | error message => cases whole
          | ok _ =>
              apply always_pure.mpr
              intro owes
              rcases since_append owes with ⟨-, harm⟩ | ⟨-, unwritten⟩
              · rcases harm with changes | empties
                · exact changes rfl
                · cases empties
              · exact unwritten ⟨rfl, rfl⟩

theorem finish_update_ensures (domains : List String) (clear : ¬Owes start thread history) :
    (finishUpdate certRequestTx domains).Ensures (Amid thread (Answered start thread))
      (fun result after => Settled start thread after result) history := by
  unfold finishUpdate
  apply always_bind.mpr
  apply always_perform.mpr
  refine ⟨trivial, ?_⟩
  rintro config after ⟨others, foreign, rfl, -, -⟩
  have quiet : Quiet .readConfig := trivial
  have stillClear : ¬Owes start thread (history ++ others ++ [⟨thread, .readConfig, config⟩]) :=
    fun owes => clear (owes_quiet foreign quiet owes)
  apply (quiet_ensures (request_certificates_calls certRequestTx domains)
    (fun history others op answer foreign quiet (clear : ¬Owes start thread history) owes =>
      clear (owes_quiet foreign quiet owes)) stillClear).bind
  intro _ after kept
  exact always_pure.mpr kept

theorem apply_and_save_ensures (request : UpdateSettingsRequest)
    (clean : ¬Touched start thread history) :
    (applyAndSave certRequestTx request).Ensures (Amid thread (Answered start thread))
      (fun result after => Settled start thread after result) history := by
  unfold applyAndSave
  apply always_bind.mpr
  apply always_perform.mpr
  refine ⟨trivial, ?_⟩
  rintro (domains : List String) after ⟨others, foreign, rfl, -, -⟩
  apply always_bind.mpr
  have known : Touched start thread
      (history ++ others ++ [⟨thread, .update request, domains⟩]) →
        Changed start thread (history ++ others ++ [⟨thread, .update request, domains⟩]) := by
    intro touched
    rcases touched_own foreign touched with changes | touches | earlier
    · exact since_snoc _ ⟨rfl, changes⟩
    · cases touches
    · exact absurd earlier clean
  apply (save_config_ensures known).mono
  intro saved after reached
  cases saved with
  | error message => exact always_pure.mpr reached
  | ok _ =>
      exact finish_update_ensures certRequestTx domains reached

theorem update_settings_ensures (request : UpdateSettingsRequest) :
    (updateSettings certRequestTx header request).Ensures (Amid thread (Answered start thread))
      (fun result after => Settled start thread after result) [] := by
  have clean : ¬Touched start thread ([] : List (Event SettingsFace Thread)) := since_nil
  unfold updateSettings
  apply (quiet_ensures (require_admin_user_calls header)
    (fun history others op answer foreign quiet (clean : ¬Touched start thread history) touched =>
      clean (touched_quiet foreign quiet touched)) clean).bind
  intro admin after still
  cases admin with
  | error error => exact always_pure.mpr still
  | ok user => exact apply_and_save_ensures certRequestTx request still

theorem Settled.append (foreign : ∀ event ∈ others, event.thread ≠ thread)
    {result : Except ApiError SettingsResponse} (settled : Settled start thread history result) :
    Settled start thread (history ++ others) result := by
  cases result with
  | error error =>
      exact fun touched => settled (Since.of_append touched
        fun before event member own => foreign event member own.1)
  | ok response =>
      exact fun owes => settled (Since.of_append owes
        fun before event member own => foreign event member own.1)

theorem memory_after_snoc (start : Config) (history : List (Event SettingsFace Thread))
    (event : Event SettingsFace Thread) :
    memoryAfter start (history ++ [event]) = event.op.remember (memoryAfter start history) := by
  unfold memoryAfter
  rw [List.foldl_append]
  rfl

theorem overwrite_covers {content file : Bytes} (covers : file.length ≤ content.length) :
    overwrite content file = content := by
  unfold overwrite
  rw [List.drop_eq_nil_of_le covers, List.append_nil]

/-- Some request owes a write, or the file holds the configuration. -/
def SavedOrOwed (toml : Toml) (start : Config) (history : List (Event SettingsFace Thread))
    (state : SettingsState) : Prop :=
  state.memory = memoryAfter start history ∧
    ((∃ thread, Owes start thread history) ∨ Saved toml state)

theorem saved_or_owed_step (roundTrips : toml.RoundTrips) {state after : SettingsState}
    {event : Event SettingsFace Thread} (held : SavedOrOwed toml start history state)
    (possible : (settingsSystem toml).can event.op state event.answer after)
    (inOrder : InOrder toml start history state event) :
    SavedOrOwed toml start (history ++ [event]) after := by
  obtain ⟨memory, file, put⟩ := settings_step possible
  obtain ⟨same, owedOrSaved⟩ := held
  refine ⟨by rw [memory, same, memory_after_snoc], ?_⟩
  by_cases changes : event.op.remember state.memory = state.memory
  · cases wrote : written ⟨event.op, event.answer⟩ with
    | some content =>
        obtain ⟨current, covers⟩ := inOrder.current content wrote
        refine Or.inr ?_
        unfold Saved
        rw [put content wrote, overwrite_covers covers, memory, changes]
        exact roundTrips state.memory content current
    | none =>
        cases empties : emptied ⟨event.op, event.answer⟩ with
        | true => exact Or.inl ⟨event.thread, since_snoc event ⟨rfl, Or.inr empties⟩⟩
        | false =>
            have untouched : touchesFile ⟨event.op, event.answer⟩ = false := by
              unfold touchesFile
              rw [empties, wrote, inOrder.whole]
              rfl
            rcases owedOrSaved with ⟨thread, owes⟩ | saved
            · have unwritten : ¬(written ⟨event.op, event.answer⟩).isSome = true := by simp [wrote]
              exact Or.inl ⟨thread, owes.append [event] fun other member isOwn =>
                unwritten (List.mem_singleton.mp member ▸ isOwn.2)⟩
            · refine Or.inr ?_
              unfold Saved
              rw [file untouched, memory, changes]
              exact saved
  · rw [same] at changes
    exact Or.inl ⟨event.thread, since_snoc event ⟨rfl, Or.inl changes⟩⟩

variable [DecidableEq Thread]

def Leaves (toml : Toml) (thread : Thread) {Value : Type} :
    Pool.Restriction SettingsFace Thread Value SettingsState :=
  fun _ pool event => event.thread = thread →
    ∀ after, Pool.Step (settingsSystem toml).can pool event after → after.state = pool.state

theorem state_left {state after : SettingsState}
    (possible : (settingsSystem toml).can op state answer after)
    (same : op.remember state.memory = state.memory) (untouched : touchesFile ⟨op, answer⟩ = false) :
    after = state := by
  obtain ⟨memory, file, -⟩ := settings_step possible
  rw [same] at memory
  have unchanged := file untouched
  cases after
  cases state
  simp_all

/-- When all requests have completed, each in order, the file holds the configuration in
memory, and the steps of a request that returned an error have left both as they were. -/
theorem settings_saved (roundTrips : toml.RoundTrips)
    {start pool : Pool SettingsFace Thread (Except ApiError SettingsResponse) SettingsState}
    (saved : Saved toml start.state)
    (requests : ∀ thread, ∃ certRequestTx header request,
      start.threads thread = updateSettings certRequestTx header request)
    (trace : Pool.Trace (settingsSystem toml).can (Orderly toml start.state.memory) start history
      pool)
    (completed : ∀ thread, ∃ result, pool.threads thread = .pure result) :
    Saved toml pool.state ∧ ∀ thread error, pool.threads thread = .pure (.error error) →
      Pool.Trace (settingsSystem toml).can (Leaves toml thread) start history pool := by
  have settled : ∀ thread result, pool.threads thread = .pure result →
      Settled start.state.memory thread history result := by
    intro thread result ended
    obtain ⟨certRequestTx, header, request, program⟩ := requests thread
    obtain ⟨earlier, others, split, foreign, done⟩ := trace.ended_amid
      (fun history pool event after before taken met own => by
        have inOrder : InOrder toml start.state.memory history pool.state event := met
        exact ⟨own ▸ inOrder.early, inOrder.whole⟩)
      (program ▸ update_settings_ensures certRequestTx header request) ended
    rw [split]
    exact done.append foreign
  have invariant : ∀ {history pool}, Pool.Trace (settingsSystem toml).can
      (Orderly toml start.state.memory) start history pool →
        SavedOrOwed toml start.state.memory history pool.state := by
    intro history pool trace
    apply trace.invariant fun history pool =>
      SavedOrOwed toml start.state.memory history pool.state
    · exact ⟨rfl, Or.inr saved⟩
    · intro history pool event after _ held taken met
      obtain ⟨next, -, possible, -⟩ := taken.own
      exact saved_or_owed_step roundTrips held possible met
  constructor
  · rcases (invariant trace).2 with ⟨thread, owes⟩ | saved
    · obtain ⟨result, ended⟩ := completed thread
      have clear := settled thread result ended
      cases result with
      | error error => exact absurd owes.touched clear
      | ok response => exact absurd owes clear
    · exact saved
  · intro thread error ended
    have clean : ¬Touched start.state.memory thread history := settled thread (.error error) ended
    apply trace.strengthen
    intro earlier event later before split reached own after taken
    obtain ⟨next, -, possible, -⟩ := taken.own
    have harmless : ∀ harm : event.op.remember (memoryAfter start.state.memory earlier) ≠
        memoryAfter start.state.memory earlier ∨ touchesFile ⟨event.op, event.answer⟩ = true,
        False := by
      intro harm
      exact clean ⟨earlier, event, later, split, ⟨own, harm⟩, fun _ _ => not_false⟩
    apply state_left possible
    · rw [(invariant reached).1]
      exact not_not.mp fun changes => harmless (Or.inl changes)
    · exact Bool.eq_false_iff.mpr fun touches => harmless (Or.inr touches)

end Histories

def demoConfig (baseDomain : String) : Config :=
  ⟨2077, "secret", ⟨80, 443, baseDomain, none⟩,
    ⟨"http://127.0.0.1:9000", "containr-rustfs", 9000, none⟩, ⟨"./data/logs", 14⟩, ⟨"", true⟩⟩

def demoConfigs : List Config :=
  [demoConfig "old.example", demoConfig "new.example", demoConfig "other.example"]

/-- The line of the file that differs among these configurations. -/
def demoText (config : Config) : Bytes :=
  ("base_domain = \"" ++ config.proxy.baseDomain ++ "\"\n").toList.map fun ch =>
    UInt8.ofNat ch.toNat

/-- The library on these configurations; it knows no other. -/
def demoToml : Toml where
  toStringPretty config :=
    if config ∈ demoConfigs then .ok (demoText config) else .error "unsupported"
  fromStr content := demoConfigs.find? fun config => demoText config = content

theorem demo_round_trips : demoToml.RoundTrips := by
  have each : ∀ config ∈ demoConfigs, demoToml.fromStr (demoText config) = some config := by
    decide +kernel
  intro config content serialized
  unfold demoToml at serialized
  dsimp only at serialized
  split at serialized
  · rename_i known
    cases serialized
    exact each config known
  · cases serialized

def demoAdmin : Auth.User := ⟨⟨1⟩, "admin@example", none, none, none, none, true, 0, 0⟩

def demoRequest (baseDomain : String) : UpdateSettingsRequest :=
  ⟨some baseDomain, none, none, none, none, none, none, none, none⟩

/-- Every token is the admin's; the file is opened and written unless there is a fault. -/
def demoAnswers (fault : Option String) : (settingsSystem demoToml).Policy
  | .readConfig, _ => ()
  | .validateToken _ _, _ => Except.ok ⟨1⟩
  | .getUser _, _ => Except.ok (some demoAdmin)
  | .update _, _ => ()
  | .serialize, _ => ()
  | .createFile, _ => fault
  | .writeAll _, _ => none
  | .sendCertRequest _, _ => ()

/-- Thread `true` sets one domain, thread `false` another. -/
def demoRequests : Pool SettingsFace Bool (Except ApiError SettingsResponse) SettingsState :=
  ⟨fun first => updateSettings true (some "Bearer token")
      (demoRequest (if first then "new.example" else "other.example")),
    ⟨demoConfig "old.example", demoText (demoConfig "old.example")⟩⟩

def demoTurns (fault : Option String) (turns : List Bool) :
    List (Bool × (settingsSystem demoToml).Policy) :=
  turns.map fun turn => (turn, demoAnswers fault)

/-- The executable form of the restriction where saving does not fail. -/
def orderlyCheck (_ : List (Event SettingsFace Bool))
    (pool : Pool SettingsFace Bool (Except ApiError SettingsResponse) SettingsState)
    (event : Event SettingsFace Bool) : Bool :=
  !failedEarly ⟨event.op, event.answer⟩ && !cutShort ⟨event.op, event.answer⟩ &&
    match written ⟨event.op, event.answer⟩ with
    | none => true
    | some content => decide (demoText pool.state.memory = content) &&
        decide (pool.state.memory ∈ demoConfigs) &&
        decide (pool.state.file.length ≤ content.length)

variable {pool : Pool SettingsFace Bool (Except ApiError SettingsResponse) SettingsState}

theorem orderly_check_sound (start : Config) {history : List (Event SettingsFace Bool)}
    {event : Event SettingsFace Bool} (passed : orderlyCheck history pool event = true) :
    Orderly demoToml start history pool event := by
  unfold orderlyCheck at passed
  simp only [Bool.and_eq_true, Bool.not_eq_true'] at passed
  obtain ⟨⟨saved, whole⟩, current⟩ := passed
  refine ⟨fun failed => absurd (saved.symm.trans failed) Bool.false_ne_true, whole, ?_⟩
  intro content wrote
  rw [wrote] at current
  simp only [Bool.and_eq_true, decide_eq_true_eq] at current
  obtain ⟨⟨text, known⟩, covers⟩ := current
  refine ⟨?_, covers⟩
  show (if pool.state.memory ∈ demoConfigs then _ else _) = _
  rw [if_pos known, text]

theorem demo_completed (first : (pool.threads true).returned.isSome = true)
    (second : (pool.threads false).returned.isSome = true) (thread : Bool) :
    ∃ result, pool.threads thread = .pure result := by
  have returned : (pool.threads thread).returned.isSome = true := by
    cases thread with
    | true => exact first
    | false => exact second
  obtain ⟨result, ended⟩ := Option.isSome_iff_exists.mp returned
  exact ⟨result, returned_eq_some ended⟩

/-- One request after the other: nine calls each. -/
def demoInTurn : List Bool := List.replicate 9 true ++ List.replicate 9 false

theorem settings_saved_in_turn :
    ∃ history pool, Pool.Trace (settingsSystem demoToml).can
        (Orderly demoToml (demoConfig "old.example")) demoRequests history pool ∧
      pool.state.memory = demoConfig "other.example" ∧ Saved demoToml pool.state := by
  have ran : (Pool.executeChecked (settingsSystem demoToml) orderlyCheck
      (demoTurns none demoInTurn) [] demoRequests).map (fun last =>
        (last.2.state.memory, (last.2.threads true).returned.isSome,
          (last.2.threads false).returned.isSome)) =
      some (demoConfig "other.example", true, true) := by decide +kernel
  obtain ⟨⟨history, pool⟩, executed, seen⟩ := Option.map_eq_some_iff.mp ran
  obtain ⟨memory, rest⟩ := Prod.mk.inj seen
  obtain ⟨first, second⟩ := Prod.mk.inj rest
  have trace := Pool.Trace.of_checked (fun _ _ _ _ => trivial)
    (fun _ _ _ passed => orderly_check_sound (demoConfig "old.example") passed) Pool.Trace.start
    executed
  refine ⟨history, pool, trace, memory, ?_⟩
  have saved : Saved demoToml demoRequests.state := by decide +kernel
  exact (settings_saved demo_round_trips saved (fun _ => ⟨_, _, _, rfl⟩) trace
    (demo_completed first second)).1

/-- The first request cannot open the file, the second finds its own domain in place of
what was saved; or the first writes its text last although the second changed memory last. -/
def demoUnopened : List (Bool × (settingsSystem demoToml).Policy) :=
  demoTurns none (List.replicate 9 false) ++ demoTurns (some "disk full") (List.replicate 6 true)

def demoOvertaken : List (Bool × (settingsSystem demoToml).Policy) :=
  demoTurns none (List.replicate 5 true ++ List.replicate 9 false ++ List.replicate 4 true)

/-- The outcome of the two requests, `none` while one is still running. -/
def demoOutcome (schedule : List (Bool × (settingsSystem demoToml).Policy)) :
    Option (Bool × Bool × Config × Bool) := do
  let last ← Pool.execute (settingsSystem demoToml) schedule demoRequests
  let first ← (last.2.threads true).returned
  let second ← (last.2.threads false).returned
  return (first.isOk, second.isOk, last.2.state.memory, decide (Saved demoToml last.2.state))

theorem demo_outcome_reached {schedule : List (Bool × (settingsSystem demoToml).Policy)}
    {first second saved : Bool} {memory : Config}
    (ran : demoOutcome schedule = some (first, second, memory, saved)) :
    ∃ history pool, Pool.Trace (settingsSystem demoToml).can (fun _ _ _ => True) demoRequests
        history pool ∧
      (∃ result, pool.threads true = .pure result ∧ result.isOk = first) ∧
      (∃ result, pool.threads false = .pure result ∧ result.isOk = second) ∧
      pool.state.memory = memory ∧ decide (Saved demoToml pool.state) = saved := by
  obtain ⟨⟨history, pool⟩, executed, ran⟩ := Option.bind_eq_some_iff.mp ran
  obtain ⟨one, endedFirst, ran⟩ := Option.bind_eq_some_iff.mp ran
  obtain ⟨other, endedSecond, outcome⟩ := Option.bind_eq_some_iff.mp ran
  cases outcome
  exact ⟨history, pool, Pool.Trace.of_execute (fun _ _ _ _ => trivial) executed,
    ⟨one, returned_eq_some endedFirst, rfl⟩, ⟨other, returned_eq_some endedSecond, rfl⟩, rfl, rfl⟩

/-- A request whose save fails returns an error with its domain in memory and not in the
file; and of two requests that succeed, the one that is overtaken leaves its text there. -/
theorem settings_apart :
    (∃ history pool, Pool.Trace (settingsSystem demoToml).can (fun _ _ _ => True) demoRequests
        history pool ∧ (∃ error, pool.threads true = .pure (.error error)) ∧
      (∃ response, pool.threads false = .pure (.ok response)) ∧
      pool.state.memory = demoConfig "new.example" ∧ ¬Saved demoToml pool.state) ∧
    ∃ history pool, Pool.Trace (settingsSystem demoToml).can (fun _ _ _ => True) demoRequests
        history pool ∧ (∃ response, pool.threads true = .pure (.ok response)) ∧
      (∃ response, pool.threads false = .pure (.ok response)) ∧ ¬Saved demoToml pool.state := by
  constructor
  · have ran : demoOutcome demoUnopened = some (false, true, demoConfig "new.example", false) := by
      decide +kernel
    obtain ⟨history, pool, trace, ⟨failed, endedFirst, isError⟩, ⟨done, endedSecond, isOk⟩, memory,
      unsaved⟩ := demo_outcome_reached ran
    refine ⟨history, pool, trace, ?_, ?_, memory, of_decide_eq_false unsaved⟩
    · cases failed with
      | error error => exact ⟨error, endedFirst⟩
      | ok response => cases isError
    · cases done with
      | error error => cases isOk
      | ok response => exact ⟨response, endedSecond⟩
  · have ran : demoOutcome demoOvertaken = some (true, true, demoConfig "other.example", false) := by
      decide +kernel
    obtain ⟨history, pool, trace, ⟨done, endedFirst, isDone⟩, ⟨other, endedSecond, isOk⟩, -,
      unsaved⟩ := demo_outcome_reached ran
    refine ⟨history, pool, trace, ?_, ?_, of_decide_eq_false unsaved⟩
    · cases done with
      | error error => cases isDone
      | ok response => exact ⟨response, endedFirst⟩
    · cases other with
      | error error => cases isOk
      | ok response => exact ⟨response, endedSecond⟩

end Containr.Api.Settings
