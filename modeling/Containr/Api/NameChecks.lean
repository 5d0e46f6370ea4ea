import Containr.Api.Asides
import Containr.Api.PublicNames

/-!
# What a request has seen of the other apps

Before it saves, a creation, an addition or an update lists all apps and compares the
claims of its own services with theirs. The listing is read row by row.
-/

namespace Containr.Api.Services

open Containr.Effect Containr.Effect.Program Containr.Worker

def Listed (calls : List (Call Effects)) (apps : List App) : Prop :=
  ∃ before rows after, calls = before ++ ⟨.query .apps, .ok rows⟩ :: after ∧
    apps.map App.id = List.map App.id rows ∧
    ∀ app ∈ apps, ⟨.query (.servicesByApp app.id), .ok app.services⟩ ∈ after

def Cleared (calls : List (Call Effects)) (id : Uuid) (claim : Claim) : Prop :=
  ∃ apps, Listed calls apps ∧
    ((∀ app ∈ apps, app.id ≠ id → ∀ service ∈ app.services, claim ∉ checkedClaims service) ∨
      ∃ app ∈ apps, app.id = id ∧ ∃ service ∈ app.services, claim ∈ checkedClaims service)

def Validated (calls : List (Call Effects)) (id : Uuid) (services : List ContainerService) :
    Prop :=
  Clean services ∧ ∀ service ∈ services, ∀ claim ∈ checkedClaims service, Cleared calls id claim

section Growing

variable {calls : List (Call Effects)} {id : Uuid}

theorem Listed.append {apps : List App} (listed : Listed calls apps)
    (made : List (Call Effects)) : Listed (calls ++ made) apps := by
  obtain ⟨before, rows, after, split, ids, read⟩ := listed
  refine ⟨before, rows, after ++ made, by rw [split, List.append_assoc]; rfl, ids, ?_⟩
  exact fun app member => List.mem_append_left _ (read app member)

theorem Cleared.append {claim : Claim} (cleared : Cleared calls id claim)
    (made : List (Call Effects)) : Cleared (calls ++ made) id claim := by
  obtain ⟨apps, listed, shown⟩ := cleared
  exact ⟨apps, listed.append made, shown⟩

theorem Validated.append {services : List ContainerService}
    (validated : Validated calls id services) (made : List (Call Effects)) :
    Validated (calls ++ made) id services :=
  ⟨validated.1, fun service member claim claimed =>
    (validated.2 service member claim claimed).append made⟩

theorem Validated.subset {services fewer : List ContainerService}
    (validated : Validated calls id services)
    (kept : ∀ service ∈ fewer, service ∈ services) : Validated calls id fewer :=
  ⟨validated.1.subset kept, fun service member => validated.2 service (kept service member)⟩

end Growing

abbrev reads : Rule Effects := fun _ op => Op.Reading op

def Grown (calls made : List (Call Effects)) : Prop := ∃ new, made = calls ++ new

section Checks

variable {calls : List (Call Effects)}

theorem Grown.same (calls : List (Call Effects)) : Grown calls calls := ⟨[], by simp⟩

variable {made : List (Call Effects)}

theorem Grown.trans {more : List (Call Effects)} (first : Grown calls made)
    (second : Grown made more) : Grown calls more := by
  obtain ⟨new, rfl⟩ := first
  obtain ⟨newer, rfl⟩ := second
  exact ⟨new ++ newer, by rw [List.append_assoc]⟩

theorem Grown.cleared {id : Uuid} {claim : Claim} (grown : Grown calls made)
    (cleared : Cleared calls id claim) : Cleared made id claim := by
  obtain ⟨new, rfl⟩ := grown
  exact cleared.append new

theorem Grown.validated {id : Uuid} {services : List ContainerService} (grown : Grown calls made)
    (validated : Validated calls id services) : Validated made id services := by
  obtain ⟨new, rfl⟩ := grown
  exact validated.append new

variable {Value : Type}

theorem reading_leaves {Error : Type} {program : ExceptT Error (Program Effects) Value}
    (reading : program.run.Calls Op.Reading) (calls : List (Call Effects)) :
    Leaves reads program calls fun _ made => Grown calls made := by
  apply (under_leaves (reading.under_ok) (fun _ _ permitted => permitted) calls).mono
  intro result after left value same
  obtain ⟨-, new, grown, -⟩ := left value same
  exact ⟨new, grown⟩

theorem checked_leaves {rule : Rule Effects} (result : Checked Value) (calls : List (Call Effects)) :
    Leaves rule (checked result) calls fun value made => result = .ok value ∧ made = calls := by
  apply always_pure.mpr
  intro value same
  exact ⟨same, rfl⟩

theorem internal_leaves {rule : Rule Effects} {program : Fallible Value}
    {post : Value → List (Call Effects) → Prop} (leaves : Leaves rule program calls post) :
    Leaves rule (orInternal program) calls post := by
  apply or_internal_always.mpr
  apply leaves.mono
  intro result made left
  cases result with
  | ok value =>
      intro other same
      cases same
      exact left value rfl
  | error message =>
      intro other absurd
      cases absurd

theorem query_leaves (wanted : Query) (calls : List (Call Effects)) :
    Leaves reads (Store.query wanted) calls fun row made =>
      made = calls ++ [⟨.query wanted, .ok row⟩] := by
  apply always_op trivial
  intro answer made recorded row same
  rw [recorded, same]

theorem with_services_leaves (rows : List App) (calls : List (Call Effects)) :
    Leaves reads (Store.withServices rows) calls fun apps made =>
      ∃ new, made = calls ++ new ∧ apps.map App.id = rows.map App.id ∧
        ∀ app ∈ apps, ⟨.query (.servicesByApp app.id), .ok app.services⟩ ∈ new := by
  induction rows generalizing calls with
  | nil =>
      apply leaves_return
      exact ⟨[], by simp, rfl, fun app member => absurd member List.not_mem_nil⟩
  | cons row rows ih =>
      apply leaves_chain (query_leaves (.servicesByApp row.id) calls)
      intro services made asked
      apply leaves_chain (ih made)
      rintro others more ⟨new, grown, ids, read⟩
      apply leaves_return
      refine ⟨⟨.query (.servicesByApp row.id), .ok services⟩ :: new, ?_, ?_, ?_⟩
      · rw [grown, asked, List.append_assoc]
        rfl
      · rw [List.map_cons, List.map_cons, ids]
      · intro app member
        rcases List.mem_cons.mp member with same | later
        · rw [same]
          exact List.mem_cons_self
        · exact List.mem_cons_of_mem _ (read app later)

theorem list_apps_leaves (calls : List (Call Effects)) :
    Leaves reads Store.listApps calls fun apps made => Listed made apps ∧ Grown calls made := by
  apply leaves_chain (query_leaves .apps calls)
  intro rows made asked
  apply (with_services_leaves rows made).mono
  intro result more left apps same
  obtain ⟨new, grown, ids, read⟩ := left apps same
  rw [asked, List.append_assoc] at grown
  exact ⟨⟨calls, rows, new, grown, ids, read⟩, _, grown⟩

theorem validate_port_mappings_leaves (server : Server) (app : App)
    (calls : List (Call Effects)) :
    Leaves reads (validatePortMappings server app) calls fun _ made => Grown calls made ∧
      (∃ seen, (namedMappings app).foldlM (claimPort server) [] = .ok seen) ∧
      ∀ service ∈ app.services, ∀ claim ∈ portClaims service, Cleared made app.id claim := by
  apply leaves_chain (checked_leaves _ calls)
  rintro seen made ⟨claimed, rfl⟩
  have keys := (claimed_ports claimed).1
  have known : ∀ service ∈ app.services, ∀ mapping ∈ service.portMappings,
      PortMapping.key mapping ∈ seen.map Prod.fst := by
    intro service member mapping mapped
    rw [keys, List.map_nil, List.nil_append]
    apply List.mem_map.mpr
    refine ⟨(service.name, mapping), List.mem_flatMap.mpr ⟨service, member, ?_⟩, rfl⟩
    exact List.mem_map.mpr ⟨mapping, mapped, rfl⟩
  split
  · rename_i empty
    apply leaves_return
    refine ⟨.same made, ⟨seen, claimed⟩, ?_⟩
    intro service member claim ofService
    obtain ⟨mapping, mapped, -⟩ := List.mem_map.mp ofService
    have present := known service member mapping mapped
    rw [List.isEmpty_iff.mp empty] at present
    cases present
  · apply leaves_chain (internal_leaves (list_apps_leaves made))
    rintro apps more ⟨listed, grown⟩
    apply (checked_leaves _ more).mono
    intro result last left value same
    obtain ⟨passed, rfl⟩ := left value same
    refine ⟨grown, ⟨seen, claimed⟩, ?_⟩
    intro service member claim ofService
    obtain ⟨mapping, mapped, rfl⟩ := List.mem_map.mp ofService
    refine ⟨apps, listed, Or.inl ?_⟩
    intro other inApps different candidate inOther clash
    rcases List.mem_append.mp clash with domain | port
    · obtain ⟨name, -, absurd⟩ := List.mem_map.mp domain
      cases absurd
    · obtain ⟨same, mappedToo, equal⟩ := List.mem_map.mp port
      rw [Claim.port.injEq] at equal
      apply other_ports_free passed inApps different inOther mappedToo
      rw [equal]
      exact known service member mapping mapped

theorem check_domain_unused_leaves {domain : String} (named : Text.blank domain = false)
    (id : Uuid) (calls : List (Call Effects)) :
    Leaves reads (checkDomainUnused id domain) calls fun _ made =>
      Grown calls made ∧ Cleared made id (.domain domain) := by
  have found : Leaves reads (getAppByDomain domain) calls fun found made => Grown calls made ∧
      ∃ apps, Listed made apps ∧
        found = apps.find? fun app => app.customDomains.contains domain := by
    apply leaves_chain (list_apps_leaves calls)
    rintro apps made ⟨listed, grown⟩
    exact leaves_return ⟨grown, apps, listed, rfl⟩
  apply leaves_chain (internal_leaves found)
  rintro answer made ⟨grown, apps, listed, isFirst⟩
  split
  · rename_i existing
    have first := isFirst.symm
    obtain ⟨service, member, inDomains⟩ := mem_app_custom_domains.mp
      (by simpa using List.find?_some first : domain ∈ existing.customDomains)
    have claimed : Claim.domain domain ∈ checkedClaims service :=
      List.mem_append_left _ (List.mem_map_of_mem (mem_custom_domains.mpr ⟨inDomains, named⟩))
    unfold ensure
    split
    · rename_i isOwn
      apply leaves_return
      refine ⟨grown, apps, listed, Or.inr ?_⟩
      exact ⟨existing, List.mem_of_find?_eq_some first, of_decide_eq_true isOwn, service, member,
        claimed⟩
    · exact leaves_throw _
  · apply leaves_return
    refine ⟨grown, apps, listed, Or.inl ?_⟩
    intro app inApps _ service member clash
    have absent := List.find?_eq_none.mp isFirst.symm app inApps
    rcases List.mem_append.mp clash with custom | port
    · obtain ⟨name, inCustom, equal⟩ := List.mem_map.mp custom
      cases equal
      apply absent
      have listedDomain := mem_app_custom_domains.mpr
        ⟨service, member, (mem_custom_domains.mp inCustom).1⟩
      simpa using listedDomain
    · obtain ⟨mapping, -, equal⟩ := List.mem_map.mp port
      cases equal

theorem validate_app_service_domains_leaves (server : Server) (app : App)
    (calls : List (Call Effects)) :
    Leaves reads (validateAppServiceDomains server app) calls fun _ made => Grown calls made ∧
      (∃ domains, app.services.foldlM collectServiceDomains [] = .ok domains) ∧
      ∀ service ∈ app.services, ∀ domain ∈ service.customDomains,
        Cleared made app.id (.domain domain) := by
  apply leaves_chain (checked_leaves _ calls)
  rintro domains made ⟨collected, rfl⟩
  have whole := (collected_service_domains collected).1
  rw [List.nil_append] at whole
  split
  · rename_i empty
    apply leaves_return
    refine ⟨.same made, ⟨domains, collected⟩, ?_⟩
    intro service member domain custom
    have present : domain ∈ domains := by
      rw [whole]
      exact List.mem_flatMap.mpr ⟨service, member, custom⟩
    rw [List.isEmpty_iff.mp empty] at present
    cases present
  · apply leaves_chain (reading_leaves (validate_domains_reading server domains) made)
    intro _ looked grown
    have checks : Leaves reads (ExceptT.mk (forEach
        (fun domain => (checkDomainUnused app.id domain).run) domains) : Handler Unit) looked
        fun _ more => Grown looked more ∧
          ∀ domain ∈ domains, Cleared more app.id (.domain domain) := by
      apply leaves_for_each (fun done more => Grown looked more ∧
        ∀ domain ∈ done, Cleared more app.id (.domain domain)) domains
      · exact ⟨.same looked, fun domain member => absurd member List.not_mem_nil⟩
      · rintro before domain after made split ⟨grownBefore, cleared⟩
        have custom : domain ∈ app.services.flatMap (·.customDomains) := by
          rw [← whole, split]
          exact List.mem_append_right _ List.mem_cons_self
        obtain ⟨service, -, ofService⟩ := List.mem_flatMap.mp custom
        have checks := check_domain_unused_leaves (mem_custom_domains.mp ofService).2 app.id made
        apply checks.mono
        intro result more left value same
        obtain ⟨grownMore, clearedNow⟩ := left value same
        refine ⟨grownBefore.trans grownMore, fun other member => ?_⟩
        rcases List.mem_append.mp member with old | new
        · exact grownMore.cleared (cleared other old)
        · rw [List.mem_singleton.mp new]
          exact clearedNow
    apply leaves_chain checks
    rintro _ last ⟨grownToo, cleared⟩
    apply leaves_return
    refine ⟨grown.trans grownToo, ⟨domains, collected⟩, ?_⟩
    intro service member domain custom
    apply cleared
    rw [whole]
    exact List.mem_flatMap.mpr ⟨service, member, custom⟩

theorem validate_app_leaves (server : Server) (app : App) (calls : List (Call Effects)) :
    Leaves reads (validateApp server app) calls fun _ made =>
      Validated made app.id app.services := by
  apply leaves_chain (validate_port_mappings_leaves server app calls)
  rintro _ made ⟨-, ⟨seen, claimed⟩, portsFree⟩
  apply leaves_chain (validate_app_service_domains_leaves server app made)
  rintro _ more ⟨grown, ⟨domains, collected⟩, domainsFree⟩
  apply leaves_return
  refine ⟨checked_clean collected claimed, ?_⟩
  intro service member claim ofService
  rcases List.mem_append.mp ofService with custom | port
  · obtain ⟨domain, named, rfl⟩ := List.mem_map.mp custom
    exact domainsFree service member domain named
  · exact grown.cleared (portsFree service member claim port)

end Checks

theorem build_services_reading {crates : Crates} {appId : Uuid}
    {existing : List ContainerService} {requests : List ServiceRequest} (isAdmin : Bool)
    {allowed : Op → Prop} [Op.Allows allowed] :
    (buildServices crates appId existing requests isAdmin).run.Under (fun _ _ => True) allowed
      (OnOk fun _ => True) := by
  have built := @build_services_under crates appId existing (fun _ => True) isAdmin allowed _
    requests
  apply (built.expecting fun op answer _ => ?_).ok_mono fun _ _ => trivial
  cases op with
  | newUuid => trivial
  | _ => trivial

end Containr.Api.Services
