import Containr.Api.Identity
import Containr.Proxy.Refresh
import Containr.Pushes
import Mathlib.Data.List.Pairwise

/-!
# Public names and host ports

What a service claims for itself, and what `validate_port_mappings` and
`validate_app_service_domains` have compared when they accept an app.
-/

namespace Containr.Api.Services

open Containr.Effect Containr.Effect.Program Containr.Worker

inductive Claim where
  | domain (name : String)
  | port (key : Nat × PortProtocol)
deriving DecidableEq, Repr

def portClaims (service : ContainerService) : List Claim :=
  service.portMappings.map fun mapping => .port (PortMapping.key mapping)

def checkedClaims (service : ContainerService) : List Claim :=
  service.customDomains.map .domain ++ portClaims service

def claims (baseDomain : String) (service : ContainerService) : List Claim :=
  checkedClaims service ++
    if service.isPublicHttp then [.domain (Proxy.serviceSubdomain service baseDomain)] else []

variable {domain : String}

theorem mem_custom_domains {service : ContainerService} :
    domain ∈ service.customDomains ↔ domain ∈ service.domains ∧ Text.blank domain = false := by
  have folded : ∀ rest kept : List String,
      domain ∈ rest.foldl (fun domains domain =>
        if !Text.blank domain && !domains.contains domain then domains ++ [domain] else domains)
        kept ↔ domain ∈ kept ∨ domain ∈ rest ∧ Text.blank domain = false := by
    intro rest
    induction rest with
    | nil => simp
    | cons first rest ih =>
        intro kept
        rw [List.foldl_cons, ih]
        by_cases blank : Text.blank first = true
        · by_cases same : domain = first
          · simp [same, blank]
          · simp [same, blank]
        · by_cases known : first ∈ kept
          · by_cases same : domain = first
            · simp [same, blank, known]
            · simp [same, blank, known]
          · by_cases same : domain = first
            · simp [same, blank, known]
            · simp [same, blank, known]
  unfold ContainerService.customDomains
  rw [folded]
  simp

theorem mem_pushed {rest kept : List String} : domain ∈ rest.foldl (fun domains domain =>
      if domains.contains domain then domains else domains ++ [domain]) kept ↔
      domain ∈ kept ∨ domain ∈ rest := by
  induction rest generalizing kept with
  | nil => simp
  | cons first rest ih =>
      rw [List.foldl_cons, ih]
      by_cases known : first ∈ kept
      · by_cases same : domain = first
        · simp [same, known]
        · simp [same, known]
      · simp [known, or_assoc]

variable {app : App}

theorem mem_app_custom_domains :
    domain ∈ app.customDomains ↔ ∃ service ∈ app.services, domain ∈ service.domains := by
  unfold App.customDomains
  rw [mem_pushed]
  simp

variable {domains : List String}

theorem collected_domains {customs all : List String}
    (passed : customs.foldlM collectDomain domains = .ok all) :
    all = domains ++ customs ∧ (domains.Nodup → all.Nodup) := by
  induction customs generalizing domains with
  | nil =>
      cases passed
      simp
  | cons custom customs ih =>
      rw [List.foldlM_cons] at passed
      obtain ⟨next, collected, rest⟩ := except_bind_ok passed
      unfold collectDomain at collected
      split_ifs at collected with taken
      cases collected
      obtain ⟨whole, distinct⟩ := ih rest
      refine ⟨by rw [whole, List.append_assoc]; rfl, fun known => distinct ?_⟩
      have fresh : custom ∉ domains := by simpa using taken
      exact Pushes.nodup_snoc known fresh

variable {services : List ContainerService}

theorem collected_service_domains {all : List String}
    (passed : services.foldlM collectServiceDomains domains = .ok all) :
    all = domains ++ services.flatMap (·.customDomains) ∧ (domains.Nodup → all.Nodup) := by
  induction services generalizing domains with
  | nil =>
      cases passed
      simp
  | cons service services ih =>
      rw [List.foldlM_cons] at passed
      obtain ⟨next, collected, rest⟩ := except_bind_ok passed
      unfold collectServiceDomains at collected
      split_ifs at collected with isPrivate
      obtain ⟨own, distinctOwn⟩ := collected_domains collected
      obtain ⟨whole, distinct⟩ := ih rest
      refine ⟨?_, fun known => distinct (distinctOwn known)⟩
      rw [whole, own, List.flatMap_cons, List.append_assoc]

variable {seen : List ((Nat × PortProtocol) × String)}

theorem claimed_ports {server : Server} {entries : List (String × PortMapping)}
    {all : List ((Nat × PortProtocol) × String)}
    (passed : entries.foldlM (claimPort server) seen = .ok all) :
    all.map Prod.fst = seen.map Prod.fst ++ entries.map (fun entry => PortMapping.key entry.2) ∧
      ((seen.map Prod.fst).Nodup → (all.map Prod.fst).Nodup) := by
  induction entries generalizing seen with
  | nil =>
      cases passed
      simp
  | cons entry entries ih =>
      rw [List.foldlM_cons] at passed
      obtain ⟨next, claimed, rest⟩ := except_bind_ok passed
      obtain ⟨whole, distinct⟩ := ih rest
      have step : next = seen ++ [(PortMapping.key entry.2, entry.1)] ∧
          lookup Prod.fst (PortMapping.key entry.2) seen = none := by
        unfold claimPort at claimed
        dsimp only at claimed
        cases reserved : reservedPort server entry.2.hostPort with
        | some label =>
            rw [reserved] at claimed
            cases claimed
        | none =>
            rw [reserved] at claimed
            cases known : lookup Prod.fst (PortMapping.key entry.2) seen with
            | some other =>
                simp [known] at claimed
            | none =>
                simp only [known] at claimed
                exact ⟨(Except.ok.inj claimed).symm, rfl⟩
      rw [step.1] at whole distinct
      refine ⟨?_, fun known => distinct ?_⟩
      · rw [whole, List.map_append, List.append_assoc]
        rfl
      · rw [List.map_append]
        apply Pushes.nodup_snoc known
        intro member
        obtain ⟨other, inSeen, same⟩ := List.mem_map.mp member
        have absent := List.find?_eq_none.mp step.2 other inSeen
        simp [same] at absent

def Clean (services : List ContainerService) : Prop :=
  ∀ first ∈ services, ∀ second ∈ services, first ≠ second →
    ∀ claim ∈ checkedClaims first, claim ∉ checkedClaims second

theorem Clean.subset {fewer : List ContainerService} (clean : Clean services)
    (kept : ∀ service ∈ fewer, service ∈ services) : Clean fewer :=
  fun first inFirst second inSecond => clean first (kept first inFirst) second (kept second inSecond)

/-- Lists that are disjoint wherever they come from different services. -/
theorem disjoint_of_nodup {Value : Type} {values : ContainerService → List Value}
    (distinct : (services.flatMap values).Nodup) {first second : ContainerService}
    (inFirst : first ∈ services) (inSecond : second ∈ services) (different : first ≠ second)
    {value : Value} (ofFirst : value ∈ values first) : value ∉ values second := by
  have apart := (List.nodup_flatMap.mp distinct).2
  have symmetric : Std.Symm (Function.onFun List.Disjoint values) :=
    ⟨fun left right disjoint => disjoint.symm⟩
  exact fun ofSecond => apart.forall inFirst inSecond different ofFirst ofSecond

theorem checked_clean {server : Server}
    (collected : app.services.foldlM collectServiceDomains [] = .ok domains)
    (claimed : (namedMappings app).foldlM (claimPort server) [] = .ok seen) :
    Clean app.services := by
  obtain ⟨whole, distinct⟩ := collected_service_domains collected
  rw [List.nil_append] at whole
  have domainsDistinct : (app.services.flatMap (·.customDomains)).Nodup := by
    rw [← whole]
    exact distinct List.nodup_nil
  obtain ⟨keys, keysDistinct⟩ := claimed_ports claimed
  have portsDistinct : (app.services.flatMap fun service =>
      service.portMappings.map PortMapping.key).Nodup := by
    have all := keysDistinct List.nodup_nil
    rw [keys, List.map_nil, List.nil_append] at all
    unfold namedMappings at all
    rw [List.map_flatMap] at all
    simpa [Function.comp_def] using all
  intro first inFirst second inSecond different claim ofFirst ofSecond
  rcases List.mem_append.mp ofFirst with domain | port
  · obtain ⟨name, named, rfl⟩ := List.mem_map.mp domain
    rcases List.mem_append.mp ofSecond with other | other
    · obtain ⟨same, namedToo, equal⟩ := List.mem_map.mp other
      cases equal
      exact disjoint_of_nodup domainsDistinct inFirst inSecond different named namedToo
    · obtain ⟨mapping, -, absurd⟩ := List.mem_map.mp other
      cases absurd
  · obtain ⟨mapping, mapped, rfl⟩ := List.mem_map.mp port
    rcases List.mem_append.mp ofSecond with other | other
    · obtain ⟨name, -, absurd⟩ := List.mem_map.mp other
      cases absurd
    · obtain ⟨same, mappedToo, equal⟩ := List.mem_map.mp other
      rw [Claim.port.injEq] at equal
      have ofOther : PortMapping.key mapping ∈ second.portMappings.map PortMapping.key := by
        rw [← equal]
        exact List.mem_map_of_mem mappedToo
      exact disjoint_of_nodup portsDistinct inFirst inSecond different
        (List.mem_map_of_mem mapped) ofOther

theorem other_ports_free {apps : List App} (passed : checkOtherPorts app seen apps = .ok ())
    {other : App} (listed : other ∈ apps) (different : other.id ≠ app.id)
    {service : ContainerService} (member : service ∈ other.services) {mapping : PortMapping}
    (mapped : mapping ∈ service.portMappings) : PortMapping.key mapping ∉ seen.map Prod.fst := by
  unfold checkOtherPorts at passed
  dsimp only at passed
  split at passed
  · cases passed
  · rename_i free
    have isOther : mapping ∈ ((apps.filter (·.id ≠ app.id)).flatMap (·.services)).flatMap
        (·.portMappings) := by
      apply List.mem_flatMap.mpr
      refine ⟨service, List.mem_flatMap.mpr ⟨other, ?_, member⟩, mapped⟩
      exact List.mem_filter.mpr ⟨listed, decide_eq_true different⟩
    intro known
    obtain ⟨entry, inSeen, same⟩ := List.mem_map.mp known
    apply List.find?_eq_none.mp free mapping isOther
    exact List.any_eq_true.mpr ⟨entry, inSeen, decide_eq_true same⟩

end Containr.Api.Services
