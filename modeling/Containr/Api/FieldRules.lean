import Containr.Api.ServiceFields
import Containr.Pushes

/-!
# What the field rules accept

Each rule of a service request, applied to the value it has accepted, accepts it again and
leaves it as it is. This is what keeps a service that is sent back as it was stored.
-/

namespace Containr.Api

open Containr.Effect Containr.Pushes

def Trimmed (text : String) : Prop := Text.trim text = text ∧ text.isEmpty = false

variable {value : Option String}

theorem normalized_trimmed {text : String} (normalized : normalizeOptionalString value = some text)
    : Trimmed text := by
  obtain ⟨trimmed, filled⟩ := Option.filter_eq_some_iff.mp normalized
  obtain ⟨given, -, rfl⟩ := Option.map_eq_some_iff.mp trimmed
  exact ⟨Text.trim_idem given, by simpa using filled⟩

theorem Trimmed.normalized {text : String} (trimmed : Trimmed text) :
    normalizeOptionalString (some text) = some text := by
  unfold normalizeOptionalString
  rw [Option.map_some, trimmed.1, Option.filter_some, trimmed.2]
  rfl

theorem normalize_optional_string_idem (value : Option String) :
    normalizeOptionalString (normalizeOptionalString value) = normalizeOptionalString value := by
  cases normalized : normalizeOptionalString value with
  | none => rfl
  | some text => exact (normalized_trimmed normalized).normalized

/-- The common shape of the rules for a text: an absent value keeps the stored one, a
blank one clears it, any other is trimmed and checked. -/
def trimmedRule (check : String → Checked Unit) (value existing : Option String) :
    Checked (Option String) :=
  match value with
  | none => .ok existing
  | some value =>
      if (Text.trim value).isEmpty then .ok none
      else (check (Text.trim value)).map fun _ => some (Text.trim value)

/-- The stored value is what the rule makes of it. -/
def TextKept (check : String → Checked Unit) (stored : Option String) : Prop :=
  ∀ text, stored = some text → Trimmed text ∧ check text = .ok ()

variable {check : String → Checked Unit}

theorem TextKept.again {stored : Option String} (kept : TextKept check stored) :
    trimmedRule check stored stored = .ok stored := by
  cases stored with
  | none => rfl
  | some text =>
      obtain ⟨⟨trimmed, filled⟩, passed⟩ := kept text rfl
      unfold trimmedRule
      dsimp only
      rw [trimmed, filled, passed]
      rfl

theorem trimmed_rule_kept {existing result : Option String} (kept : TextKept check existing)
    (accepted : trimmedRule check value existing = .ok result) : TextKept check result := by
  cases value with
  | none =>
      cases accepted
      exact kept
  | some value =>
      unfold trimmedRule at accepted
      dsimp only at accepted
      cases blank : (Text.trim value).isEmpty with
      | true =>
          rw [blank] at accepted
          cases accepted
          exact nofun
      | false =>
          rw [blank] at accepted
          cases passed : check (Text.trim value) with
          | error error =>
              rw [passed] at accepted
              cases accepted
          | ok _ =>
              rw [passed] at accepted
              cases accepted
              intro text same
              cases same
              exact ⟨⟨Text.trim_idem value, blank⟩, passed⟩

def cronCheck (crates : Crates) (text : String) : Checked Unit :=
  match crates.parseCron text with
  | .ok () => .ok ()
  | .error error => .error (badRequest ("invalid cron schedule: " ++ error))

theorem normalize_cron_schedule_rule (crates : Crates) :
    normalizeCronSchedule crates = trimmedRule (cronCheck crates) := by
  funext value existing
  cases value with
  | none => rfl
  | some value =>
      unfold normalizeCronSchedule trimmedRule cronCheck
      dsimp only
      apply ite_congr rfl (fun _ => rfl)
      intro _
      cases crates.parseCron (Text.trim value) with
      | ok _ => rfl
      | error error => rfl

def workingDirCheck (text : String) : Checked Unit :=
  if !Text.startsWith text "/" then
    .error (badRequest "working directory must be an absolute container path")
  else .ok ()

theorem normalize_working_dir_rule : normalizeWorkingDir = trimmedRule workingDirCheck := by
  funext value existing
  cases value with
  | none => rfl
  | some value =>
      unfold normalizeWorkingDir trimmedRule workingDirCheck
      dsimp only
      apply ite_congr rfl (fun _ => rfl)
      intro _
      cases Text.startsWith (Text.trim value) "/" with
      | true => rfl
      | false => rfl

def repoPathCheck (field text : String) : Checked Unit :=
  if Path.isAbsolute text then
    .error (badRequest (field ++ " must be relative to the repository root"))
  else if !Path.descends text then
    .error (badRequest (field ++ " cannot contain parent traversal or absolute components"))
  else .ok ()

theorem normalize_repo_relative_path_rule (field : String) :
    normalizeRepoRelativePath field = trimmedRule (repoPathCheck field) := by
  funext value existing
  cases value with
  | none => rfl
  | some value =>
      unfold normalizeRepoRelativePath trimmedRule repoPathCheck
      dsimp only
      apply ite_congr rfl (fun _ => rfl)
      intro _
      cases Path.isAbsolute (Text.trim value) with
      | true => rfl
      | false =>
          cases Path.descends (Text.trim value) with
          | true => rfl
          | false => rfl

/-- A stored note is what the rule makes of it. -/
theorem resolve_service_notes_again {value : Option (Option String)} {existing result : Option String}
    (kept : resolveServiceNotes (some existing) existing = .ok existing)
    (accepted : resolveServiceNotes value existing = .ok result) :
    resolveServiceNotes (some result) result = .ok result := by
  cases value with
  | none =>
      cases accepted
      exact kept
  | some value =>
      unfold resolveServiceNotes at accepted ⊢
      dsimp only at accepted ⊢
      split at accepted
      · cases accepted
      · rename_i short
        cases accepted
        rw [normalize_optional_string_idem, if_neg short]

def trimmedArgs (entries : List String) : List String :=
  (entries.map Text.trim).filter fun entry => !entry.isEmpty

theorem trimmed_args_idem (entries : List String) :
    trimmedArgs (trimmedArgs entries) = trimmedArgs entries := by
  have fixed : ∀ entry ∈ trimmedArgs entries, Text.trim entry = id entry := by
    intro entry member
    obtain ⟨given, -, rfl⟩ := List.mem_map.mp (List.mem_of_mem_filter member)
    exact Text.trim_idem given
  have same : (trimmedArgs entries).map Text.trim = trimmedArgs entries :=
    (List.map_congr_left fixed).trans (List.map_id _)
  unfold trimmedArgs at same ⊢
  rw [same, List.filter_filter]
  simp

theorem normalize_optional_args_again {value existing : Option (List String)}
    (kept : normalizeOptionalArgs existing existing = existing) :
    normalizeOptionalArgs (normalizeOptionalArgs value existing)
      (normalizeOptionalArgs value existing) = normalizeOptionalArgs value existing := by
  cases value with
  | none => exact kept
  | some entries =>
      have result : normalizeOptionalArgs (some entries) existing =
          if (trimmedArgs entries).isEmpty then none else some (trimmedArgs entries) := rfl
      rw [result]
      cases empty : (trimmedArgs entries).isEmpty with
      | true => rfl
      | false =>
          have again : normalizeOptionalArgs (some (trimmedArgs entries))
              (some (trimmedArgs entries)) =
              if (trimmedArgs (trimmedArgs entries)).isEmpty then none
              else some (trimmedArgs (trimmedArgs entries)) := rfl
          rw [trimmed_args_idem, empty] at again
          exact again

def PortsFit (ports : List Nat) (primaryPort : Nat) : Prop :=
  (∀ port ∈ ports, port ≠ 0 ∧ port ≠ primaryPort) ∧ ports.Nodup

theorem push_ports_iff {ports done result : List Nat} {primaryPort : Nat} (distinct : done.Nodup) :
    (ports.foldlM (fun normalized port =>
      if port = 0 then
        Except.error (badRequest "additional service ports must be between 1 and 65535")
      else if port = primaryPort then
        .error (badRequest ("additional port " ++ toString port ++ " duplicates the primary port"))
      else if normalized.contains port then
        .error (badRequest ("duplicate additional port: " ++ toString port))
      else .ok (normalized ++ [port])) done) = .ok result ↔
      result = done ++ ports ∧ (∀ port ∈ ports, port ≠ 0 ∧ port ≠ primaryPort) ∧
        (done ++ ports).Nodup := by
  induction ports generalizing done with
  | nil => simp [pure, Except.pure, distinct, eq_comm]
  | cons port ports ih =>
      rw [List.foldlM_cons, except_bind_iff]
      constructor
      · rintro ⟨next, pushed, rest⟩
        split_ifs at pushed with isZero isPrimary known
        cases pushed
        have unknown : port ∉ done := by simpa using known
        have longer : (done ++ [port]).Nodup := by
          have apart : ∀ other ∈ done, ¬other = port := by
            intro other member same
            exact unknown (same.subst member)
          simpa [List.nodup_append, distinct] using apart
        obtain ⟨whole, fit, all⟩ := (ih longer).mp rest
        refine ⟨by simpa using whole, ?_, by simpa using all⟩
        intro other member
        rcases List.mem_cons.mp member with same | later
        · rw [same]
          exact ⟨isZero, isPrimary⟩
        · exact fit other later
      · rintro ⟨whole, fit, all⟩
        obtain ⟨isZero, isPrimary⟩ := fit port List.mem_cons_self
        have split : (done ++ [port] ++ ports).Nodup := by simpa using all
        have longer := split.of_append_left
        have unknown : port ∉ done := fun member =>
          (List.nodup_append.mp longer).2.2 port member port List.mem_cons_self rfl
        refine ⟨done ++ [port], ?_, ?_⟩
        · rw [if_neg isZero, if_neg isPrimary, if_neg (by simpa using unknown)]
        · apply (ih longer).mpr
          refine ⟨by simpa using whole, fun other member => ?_, split⟩
          exact fit other (List.mem_cons_of_mem _ member)

/-- The rule takes the ports as they are, or rejects them. -/
theorem normalize_additional_ports_iff {value : Option (List Nat)} {existing result : List Nat}
    {primaryPort : Nat} : normalizeAdditionalPorts value existing primaryPort = .ok result ↔
      result = value.getD existing ∧ PortsFit result primaryPort := by
  unfold normalizeAdditionalPorts
  rw [push_ports_iff List.nodup_nil, List.nil_append]
  constructor
  · rintro ⟨same, fit, distinct⟩
    rw [same]
    exact ⟨rfl, fit, distinct⟩
  · rintro ⟨same, fit, distinct⟩
    rw [← same]
    exact ⟨rfl, fit, distinct⟩

def portMappingRequest (mapping : PortMapping) : PortMappingRequest :=
  ⟨mapping.hostPort, mapping.containerPort, some mapping.protocol.asStr⟩

variable {mappings : List PortMapping} {request : PortMappingRequest}

theorem push_port_mapping_iff {result : List PortMapping} :
    pushPortMapping mappings request = .ok result ↔
      (request.hostPort ≠ 0 ∧ request.containerPort ≠ 0) ∧
        ∃ protocol, requestedProtocol request.protocol = .ok protocol ∧
          (request.hostPort, protocol) ∉ mappings.map PortMapping.key ∧
          result = mappings ++ [⟨request.hostPort, request.containerPort, protocol⟩] := by
  unfold pushPortMapping
  simp only [refused_iff, except_bind_iff, returned_iff, any_key_iff, not_or, ne_eq]

theorem push_port_mapping_appends : Appends pushPortMapping := by
  intro mappings request result accepted
  obtain ⟨-, protocol, -, -, same⟩ := push_port_mapping_iff.mp accepted
  exact ⟨_, same⟩

variable {mapping : PortMapping}

theorem push_port_mapping_fits
    (accepted : pushPortMapping mappings request = .ok (mappings ++ [mapping])) :
    mapping.hostPort ≠ 0 ∧ mapping.containerPort ≠ 0 ∧
      PortMapping.key mapping ∉ mappings.map PortMapping.key := by
  obtain ⟨⟨host, container⟩, protocol, -, fresh, same⟩ := push_port_mapping_iff.mp accepted
  rw [List.singleton_inj.mp (List.append_cancel_left same)]
  exact ⟨host, container, fresh⟩

theorem requested_protocol_as_str (protocol : PortProtocol) :
    requestedProtocol (some protocol.asStr) = .ok protocol := by
  cases protocol with
  | tcp => decide
  | udp => decide

theorem push_port_mapping_again
    (accepted : pushPortMapping mappings request = .ok (mappings ++ [mapping])) :
    pushPortMapping mappings (portMappingRequest mapping) = .ok (mappings ++ [mapping]) := by
  obtain ⟨host, container, fresh⟩ := push_port_mapping_fits accepted
  exact push_port_mapping_iff.mpr
    ⟨⟨host, container⟩, mapping.protocol, requested_protocol_as_str _, fresh, rfl⟩

theorem push_variable_iff {label : String} {existing entries result : List Variable}
    {request : EnvVarRequest} : pushVariable label existing entries request = .ok result ↔
      (Text.trim request.key).isEmpty = false ∧
        Text.trim request.key ∉ entries.map Prod.fst ∧
        ∃ value, resolveMaskedValue request.value request.isSecret
            ((lookup Prod.fst (Text.trim request.key) existing.reverse).map Prod.snd) label
            (Text.trim request.key) = .ok value ∧
          result = entries ++ [(Text.trim request.key, value.1, value.2)] := by
  unfold pushVariable
  simp only [refused_iff, except_bind_iff, returned_iff, any_key_iff, Bool.not_eq_true]

theorem push_variable_appends (label : String) (existing : List Variable) :
    Appends (pushVariable label existing) := by
  intro entries request result accepted
  obtain ⟨-, -, value, -, same⟩ := push_variable_iff.mp accepted
  exact ⟨_, same⟩

def VariablesKept (stored : List Variable) : Prop :=
  (∀ entry ∈ stored, Trimmed entry.1) ∧ (stored.map Prod.fst).Nodup

theorem build_variables_kept {label : String} {requests : Option (List EnvVarRequest)}
    {existing result : List Variable} (kept : VariablesKept existing)
    (accepted : buildVariables label requests existing = .ok result) : VariablesKept result := by
  cases requests with
  | none =>
      cases accepted
      exact kept
  | some requests =>
      obtain ⟨pushed, -⟩ := pushed_of_foldlM (push_variable_appends label existing) accepted
      constructor
      · intro entry member
        obtain ⟨before, after, split⟩ := List.append_of_mem member
        obtain ⟨request, -, put⟩ := pushed before entry after split
        obtain ⟨filled, -, value, -, same⟩ := push_variable_iff.mp put
        rw [List.singleton_inj.mp (List.append_cancel_left same)]
        exact ⟨Text.trim_idem _, filled⟩
      · apply nodup_of_fresh
        intro before entry after split
        obtain ⟨request, -, put⟩ := pushed before entry after split
        obtain ⟨-, fresh, value, -, same⟩ := push_variable_iff.mp put
        rw [List.singleton_inj.mp (List.append_cancel_left same)]
        exact fresh

/-- The mask, and a value that is not secret, stand for the stored value. -/
theorem resolve_masked_value_again (value : String) (isSecret : Bool) (label key : String) :
    resolveMaskedValue (maskSecretValue isSecret value) (some isSecret) (some (value, isSecret))
      label key = .ok (value, isSecret) := by
  cases isSecret with
  | false => simp [resolveMaskedValue, maskSecretValue]
  | true =>
      unfold resolveMaskedValue maskSecretValue
      cases empty : value.isEmpty with
      | true =>
          have same : value = "" := by simpa using empty
          rw [same]
          rfl
      | false => rfl

variable {stored : List Variable}

theorem lookup_reverse (distinct : (stored.map Prod.fst).Nodup) {entry : Variable}
    (member : entry ∈ stored) : lookup Prod.fst entry.1 stored.reverse = some entry := by
  have reversed : (stored.reverse.map Prod.fst).Nodup := by
    rw [List.map_reverse]
    exact List.nodup_reverse.mpr distinct
  exact lookup_of_mem reversed (List.mem_reverse.mpr member)

theorem build_variables_again (kept : VariablesKept stored) (label : String) : buildVariables label
      (some (stored.map fun entry => variableRequest entry.1 entry.2.1 entry.2.2)) stored =
        .ok stored := by
  unfold buildVariables
  apply @foldlM_each _ _ _ _ _ _ []
  intro before entry after split
  have member : entry ∈ stored := by simp [split]
  obtain ⟨trimmed, filled⟩ := kept.1 entry member
  apply push_variable_iff.mpr
  unfold variableRequest
  dsimp only
  rw [trimmed, lookup_reverse kept.2 member]
  refine ⟨filled, ?_, entry.2, resolve_masked_value_again _ _ _ _, by simp⟩
  have distinct := kept.2
  rw [split, List.map_append, List.map_cons, List.nodup_append] at distinct
  intro earlier
  have inBefore : entry.1 ∈ before.map Prod.fst := by simpa using earlier
  exact distinct.2.2 entry.1 inBefore entry.1 List.mem_cons_self rfl

theorem normalize_host_path_again {result : Option String}
    (accepted : normalizeHostPath value = .ok result) : normalizeHostPath result = .ok result := by
  unfold normalizeHostPath at accepted ⊢
  cases normalized : normalizeOptionalString value with
  | none =>
      rw [normalized] at accepted
      cases accepted
      rfl
  | some path =>
      rw [normalized] at accepted
      dsimp only at accepted
      split_ifs at accepted with relative parent
      cases accepted
      rw [(normalized_trimmed normalized).normalized]
      dsimp only
      rw [if_neg relative, if_neg parent]

variable {isAdmin : Bool}

theorem push_mount_iff {existing parsed result : List ServiceMount} {mount : ServiceMountRequest} :
    pushMount existing isAdmin parsed mount = .ok result ↔
      validateMountName (Text.trim mount.name) = true ∧
        Text.startsWith (Text.trim mount.target) "/" = true ∧
        Text.trim mount.name ∉ parsed.map ServiceMount.name ∧
        Text.trim mount.target ∉ parsed.map ServiceMount.target ∧
        ∃ hostPath, normalizeHostPath mount.hostPath = .ok hostPath ∧
          ¬(mount.isShared.getD false && hostPath.isSome) = true ∧
          ¬(hostPath.isSome && !isAdmin && !existing.any fun stored =>
            stored.name = Text.trim mount.name && stored.hostPath = hostPath) = true ∧
          result = parsed ++ [⟨Text.trim mount.name, Text.trim mount.target,
            mount.readOnly.getD false, hostPath, mount.isShared.getD false⟩] := by
  unfold pushMount
  simp only [refused_iff, except_bind_iff, returned_iff, any_key_iff, Bool.not_eq_true,
    Bool.not_eq_false']

theorem push_mount_appends (existing : List ServiceMount) (isAdmin : Bool) :
    Appends (pushMount existing isAdmin) := by
  intro parsed mount result accepted
  obtain ⟨-, -, -, -, hostPath, -, -, -, same⟩ := push_mount_iff.mp accepted
  exact ⟨_, same⟩

theorem push_mount_again {existing stored parsed : List ServiceMount}
    {request : ServiceMountRequest} {mount : ServiceMount} (member : mount ∈ stored)
    (accepted : pushMount existing isAdmin parsed request = .ok (parsed ++ [mount])) (anyone : Bool) :
    pushMount stored anyone parsed (mountRequestFromModel mount) = .ok (parsed ++ [mount]) := by
  obtain ⟨named, rooted, freshName, freshTarget, hostPath, found, notBoth, -, same⟩ :=
    push_mount_iff.mp accepted
  have built := List.singleton_inj.mp (List.append_cancel_left same)
  have itself : (stored.any fun other =>
      other.name = mount.name && other.hostPath = mount.hostPath) = true := by
    apply List.any_eq_true.mpr
    exact ⟨mount, member, by simp⟩
  apply push_mount_iff.mpr
  unfold mountRequestFromModel
  rw [built] at itself ⊢
  dsimp only at itself ⊢
  rw [Text.trim_idem, Text.trim_idem]
  refine ⟨named, rooted, freshName, freshTarget, hostPath, normalize_host_path_again found,
    notBoth, ?_, rfl⟩
  rw [itself]
  simp

def MountsKept (stored : List ServiceMount) : Prop :=
  ∀ isAdmin, (stored.map mountRequestFromModel).foldlM (pushMount stored isAdmin) [] = .ok stored

theorem build_service_mounts_kept {mounts : Option (List ServiceMountRequest)}
    {existing result : List ServiceMount}
    (accepted : buildServiceMounts mounts existing isAdmin = .ok result) : MountsKept result := by
  obtain ⟨pushed, -⟩ := pushed_of_foldlM (push_mount_appends existing isAdmin) accepted
  intro anyone
  apply foldlM_again pushed
  intro before mount after request split put
  have member : mount ∈ result := by simp [split]
  exact push_mount_again member put anyone

variable {crates : Crates} {mounts : List ServiceMount}

theorem push_config_file_iff {parsed result : List ConfigFile} {file : ConfigFileRequest} :
    pushConfigFile crates mounts parsed file = .ok result ↔
      isConfigFilePath (Text.trim file.path) = true ∧
        ¬maxConfigFileBytes < Text.byteLength file.content ∧
        Text.trim file.path ∉ parsed.map ConfigFile.path ∧
        isShadowed mounts (Text.trim file.path) = false ∧
        result = parsed ++ [⟨Text.trim file.path, file.content⟩] := by
  unfold pushConfigFile
  simp only [refused_iff, returned_iff, any_key_iff, Bool.not_eq_true, Bool.not_eq_false']

theorem push_config_file_appends (crates : Crates) (mounts : List ServiceMount) :
    Appends (pushConfigFile crates mounts) := by
  intro parsed file result accepted
  obtain ⟨-, -, -, -, same⟩ := push_config_file_iff.mp accepted
  exact ⟨_, same⟩

theorem push_config_file_again {parsed : List ConfigFile} {request : ConfigFileRequest}
    {file : ConfigFile}
    (accepted : pushConfigFile crates mounts parsed request = .ok (parsed ++ [file])) :
    pushConfigFile crates mounts parsed (configFileRequest file) = .ok (parsed ++ [file]) := by
  obtain ⟨path, small, fresh, visible, same⟩ := push_config_file_iff.mp accepted
  rw [List.singleton_inj.mp (List.append_cancel_left same)]
  apply push_config_file_iff.mpr
  unfold configFileRequest
  dsimp only
  rw [Text.trim_idem]
  exact ⟨path, small, fresh, visible, rfl⟩

/-- The files of a service, sent back with its mounts, are accepted as they are. -/
theorem build_config_files_again {files : List ConfigFileRequest} {result : List ConfigFile}
    (accepted : buildConfigFiles crates files mounts = .ok result) :
    buildConfigFiles crates (result.map configFileRequest) mounts = .ok result := by
  unfold buildConfigFiles at accepted ⊢
  split_ifs at accepted with many
  obtain ⟨pushed, length⟩ := pushed_of_foldlM (push_config_file_appends crates mounts) accepted
  rw [List.length_map, length, if_neg many]
  exact foldlM_again pushed fun before file after request _ put => push_config_file_again put

theorem resolve_login_gate_again (gate : Option LoginGate) (existing : Option LoginGate) :
    resolveLoginGate (some (gate.map fun gate => ⟨some (loginGateScopeName gate.scope)⟩))
      existing = .ok gate := by
  cases gate with
  | none => rfl
  | some gate =>
      obtain ⟨scope⟩ := gate
      cases scope with
      | owner =>
          unfold resolveLoginGate loginGateScopeName
          dsimp only [Option.map_some]
          decide
      | allUsers =>
          unfold resolveLoginGate loginGateScopeName
          dsimp only [Option.map_some]
          decide

def Requestable (serviceType : ServiceType) : Prop :=
  parseServiceType (serviceTypeName serviceType) = some serviceType

theorem parse_service_type_requestable {name : String} {serviceType : ServiceType}
    (parsed : parseServiceType name = some serviceType) : Requestable serviceType := by
  unfold parseServiceType at parsed
  dsimp only at parsed
  split_ifs at parsed
  all_goals
    cases Option.some.inj parsed
    unfold Requestable
    decide

theorem resolve_service_type_requestable {request : ServiceRequest} {existing serviceType : ServiceType}
    (kept : Requestable existing)
    (resolved : resolveServiceType request existing = .ok serviceType) : Requestable serviceType := by
  unfold resolveServiceType at resolved
  split at resolved
  · rename_i name _
    cases parsed : parseServiceType name with
    | none =>
        rw [parsed] at resolved
        cases resolved
    | some found =>
        rw [parsed] at resolved
        cases resolved
        exact parse_service_type_requestable parsed
  · split_ifs at resolved
    all_goals cases resolved
    · unfold Requestable
      decide
    · unfold Requestable
      decide
    · unfold Requestable
      decide
    · unfold Requestable
      decide
    · exact kept

end Containr.Api
