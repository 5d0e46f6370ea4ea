import Containr.Proxy.Rebuild

/-!
# When a refresh touches only its own app

The table after a refresh is compared with the table before it: routes of other apps
and external routes stay, and the app has exactly one route for each domain of each
public service. Both hold exactly when no foreign route stands where the refresh writes,
the domains of the app stay apart, the name of a container never has to decide, and
nothing old of the app is left out of reach.
-/

namespace Containr.Proxy

open Containr.Effect Containr.Effect.Program

variable {lib : Libraries}

def recordedContainers (deployment : Deployment) (serviceId : Uuid) : List String :=
  (deployment.serviceDeployments.filter fun replica => replica.serviceId = serviceId).filterMap
    ServiceDeployment.containerId

def recordedFor (deployment : Option Deployment) (serviceId : Uuid) (name : String) : Bool :=
  deployment.any fun deployment => (recordedContainers deployment serviceId).contains name

def publicDomains (app : App) (baseDomain : String) : List (ContainerService × String) :=
  (exposedServices app).flatMap fun service =>
    (domainsForService service baseDomain).map fun domain => (service, domain)

def KeepsOthers (appId : Uuid) (before after : View) : Prop :=
  ∀ key route, before key = some route → route.appId ≠ some appId → after key = some route

section Specification

variable (start : ContainrProxy lib) (algorithm : LoadBalanceAlgorithm) (baseDomain : String)
  (app : App) (containers : List (Option (List String)))

def intendedRoute (pair : ContainerService × String) : Route :=
  let deployment := latestRunning (start.listDeployments app.id)
  keyed lib (serviceRoute app algorithm pair.1
    (start.upstreamsOf app (recordedFor deployment pair.1.id)
      (runtimeService app deployment pair.1).port (containerNames containers)) pair.2)

structure ExactlyRebuilt (appId : Uuid) (after : View) : Prop where
  distinct : ((publicDomains app baseDomain).map fun pair => normalizeDomain lib pair.2).Nodup
  routes : ∀ key route, (after key = some route ∧ route.appId = some appId) ↔
    ∃ pair ∈ publicDomains app baseDomain, normalizeDomain lib pair.2 = key ∧
      intendedRoute start algorithm app containers pair = route

end Specification

theorem public_exposed {app : App} {baseDomain : String} {pair : ContainerService × String}
    (member : pair ∈ publicDomains app baseDomain) : pair.1 ∈ exposedServices app := by
  rcases List.mem_flatMap.mp member with ⟨service, exposed, inDomains⟩
  rcases List.mem_map.mp inDomains with ⟨domain, -, isPair⟩
  rw [← isPair]
  exact exposed

theorem mem_domains_fold (domain : String) (customs domains : List String)
    (member : domain ∈ domains) :
    domain ∈ customs.foldl (fun domains domain =>
      if domains.contains domain then domains else domains ++ [domain]) domains := by
  induction customs generalizing domains with
  | nil => exact member
  | cons custom rest ih =>
      apply ih
      dsimp only
      split_ifs
      · exact member
      · exact List.mem_append_left _ member

theorem subdomain_public {app : App} (baseDomain : String) {service : ContainerService}
    (exposed : service ∈ exposedServices app) :
    (service, serviceSubdomain service baseDomain) ∈ publicDomains app baseDomain := by
  apply List.mem_flatMap.mpr
  refine ⟨service, exposed, List.mem_map.mpr ⟨_, ?_, rfl⟩⟩
  exact mem_domains_fold _ service.customDomains _ List.mem_cons_self

section Keys

variable (start : ContainrProxy lib) (baseDomain : String) (appId : Uuid)

/-- The domains a refresh installs routes for; none if it returns early. -/
def ContainrProxy.claims : List (ContainerService × String) :=
  match start.loadApp appId with
  | .error _ | .ok none => []
  | .ok (some app) =>
      match start.listContainers ("containr-" ++ app.id.toString) with
      | .error _ => []
      | .ok _ => publicDomains app baseDomain

def ContainrProxy.Touches (key : String) : Prop :=
  key ∈ start.removes baseDomain appId ∨
    ∃ pair ∈ start.claims baseDomain appId, normalizeDomain lib pair.2 = key

def NameIsIdle (app : App) (containers : List (Option (List String)))
    (service : ContainerService) : Prop :=
  let deployment := latestRunning (start.listDeployments app.id)
  (∃ latest, deployment = some latest ∧ recordedContainers latest service.id ≠ []) ∨
    ∀ name ∈ containerNames containers,
      isServiceContainerName name ("containr-" ++ app.id.toString ++ "-" ++
        (runtimeService app deployment service).name ++ "-") = true →
      start.addressOf app name = none

structure KeepsToItself : Prop where
  /-- No route of another app and no external route stands where the refresh writes. -/
  apart : ∀ key route, start.table.view key = some route → route.appId ≠ some appId →
    ¬start.Touches baseDomain appId key
  /-- The app's own domains do not meet, names decide nothing, and every old route of
  the app is within reach. -/
  own : ∀ app containers, start.loadApp appId = .ok (some app) →
    start.listContainers ("containr-" ++ app.id.toString) = .ok containers →
    ((publicDomains app baseDomain).map fun pair => normalizeDomain lib pair.2).Nodup ∧
    (∀ service ∈ exposedServices app, NameIsIdle start app containers service) ∧
    ∀ key route, start.table.view key = some route → route.appId = some appId →
      start.Touches baseDomain appId key

end Keys

section Addresses

variable (start : ContainrProxy lib) (app : App) (port : Nat)

theorem upstreams_of_eq_nil (serves : String → Bool) (names : List String) :
    start.upstreamsOf app serves port names = [] ↔
      ∀ name ∈ names, serves name = true → start.addressOf app name = none := by
  simp [ContainrProxy.upstreamsOf, List.filterMap_eq_nil_iff, List.mem_filter]

theorem active_http_container_ids_eq (deployment : Deployment) (serviceId : Uuid) :
    activeHttpContainerIds deployment serviceId =
      if recordedContainers deployment serviceId = [] then none
      else some (recordedContainers deployment serviceId) := by
  unfold activeHttpContainerIds recordedContainers
  simp only [List.isEmpty_iff]

/-- A service gets the recorded addresses exactly when its name is idle. -/
theorem recorded_upstreams_iff (containers : List (Option (List String)))
    (service : ContainerService) :
    start.upstreamsOf app
        (servesService app (latestRunning (start.listDeployments app.id)) service) port
        (containerNames containers) =
      start.upstreamsOf app
        (recordedFor (latestRunning (start.listDeployments app.id)) service.id) port
        (containerNames containers) ↔ NameIsIdle start app containers service := by
  simp only [NameIsIdle]
  generalize latestRunning (start.listDeployments app.id) = deployment
  by_cases recorded : ∃ latest, deployment = some latest ∧
      recordedContainers latest service.id ≠ []
  · rcases recorded with ⟨latest, isLatest, nonempty⟩
    have served : servesService app deployment service = recordedFor deployment service.id := by
      funext name
      simp [servesService, recordedFor, isLatest, active_http_container_ids_eq, nonempty]
    rw [served]
    exact ⟨fun _ => Or.inl ⟨latest, isLatest, nonempty⟩, fun _ => rfl⟩
  · have noRecord : recordedFor deployment service.id = fun _ => false := by
      funext name
      cases isLatest : deployment with
      | none => rfl
      | some latest =>
          have empty : recordedContainers latest service.id = [] := by
            by_contra nonempty
            exact recorded ⟨latest, isLatest, nonempty⟩
          simp [recordedFor, empty]
    have byName : servesService app deployment service = fun name =>
        isServiceContainerName name ("containr-" ++ app.id.toString ++ "-" ++
          (runtimeService app deployment service).name ++ "-") := by
      funext name
      cases isLatest : deployment with
      | none => rfl
      | some latest =>
          have empty : recordedContainers latest service.id = [] := by
            by_contra nonempty
            exact recorded ⟨latest, isLatest, nonempty⟩
          simp [servesService, active_http_container_ids_eq, empty]
    have none : start.upstreamsOf app (fun _ => false) port (containerNames containers) = [] := by
      simp [ContainrProxy.upstreamsOf]
    rw [noRecord, byName, none, upstreams_of_eq_nil]
    simp [recorded]

end Addresses

section After

variable {start : ContainrProxy lib} {algorithm : LoadBalanceAlgorithm} {baseDomain : String}
  {appId : Uuid}

def installedRoute (start : ContainrProxy lib) (algorithm : LoadBalanceAlgorithm) (app : App)
    (containers : List (Option (List String))) (pair : ContainerService × String) : Route :=
  let deployment := latestRunning (start.listDeployments app.id)
  serviceRoute app algorithm pair.1
    (start.upstreamsOf app (servesService app deployment pair.1)
      (runtimeService app deployment pair.1).port (containerNames containers)) pair.2

variable {containers : List (Option (List String))}

theorem adds_eq {app : App} (loaded : start.loadApp appId = .ok (some app))
    (listed : start.listContainers ("containr-" ++ app.id.toString) = .ok containers) :
    start.adds algorithm baseDomain appId =
      (publicDomains app baseDomain).map (installedRoute start algorithm app containers) := by
  simp only [ContainrProxy.adds, loaded, listed, publicDomains, List.map_flatMap, List.map_map]
  rfl

theorem claims_eq {app : App} (loaded : start.loadApp appId = .ok (some app))
    (listed : start.listContainers ("containr-" ++ app.id.toString) = .ok containers) :
    start.claims baseDomain appId = publicDomains app baseDomain := by
  simp only [ContainrProxy.claims, loaded, listed]

/-- Every installed route is tagged with the app and stands at a claimed domain. -/
theorem adds_claimed {route : Route} (member : route ∈ start.adds algorithm baseDomain appId) :
    route.appId = some appId ∧ ∃ pair ∈ start.claims baseDomain appId, pair.2 = route.domain := by
  cases loaded : start.loadApp appId with
  | error message => simp [ContainrProxy.adds, loaded] at member
  | ok found =>
      cases found with
      | none => simp [ContainrProxy.adds, loaded] at member
      | some app =>
          cases listed : start.listContainers ("containr-" ++ app.id.toString) with
          | error message => simp [ContainrProxy.adds, loaded, listed] at member
          | ok containers =>
              rw [adds_eq loaded listed] at member
              rcases List.mem_map.mp member with ⟨pair, inPairs, isRoute⟩
              rw [claims_eq loaded listed, ← isRoute]
              exact ⟨congrArg some (start.loadedId appId app loaded), pair, inPairs, rfl⟩

/-- The keys of the claimed domains are those of the installed routes. -/
theorem claims_installed {pair : ContainerService × String}
    (member : pair ∈ start.claims baseDomain appId) :
    ∃ route ∈ start.adds algorithm baseDomain appId, route.domain = pair.2 := by
  cases loaded : start.loadApp appId with
  | error message => simp [ContainrProxy.claims, loaded] at member
  | ok found =>
      cases found with
      | none => simp [ContainrProxy.claims, loaded] at member
      | some app =>
          cases listed : start.listContainers ("containr-" ++ app.id.toString) with
          | error message => simp [ContainrProxy.claims, loaded, listed] at member
          | ok containers =>
              rw [claims_eq loaded listed] at member
              rw [adds_eq loaded listed]
              exact ⟨_, List.mem_map.mpr ⟨pair, member, rfl⟩, rfl⟩

noncomputable def refreshed (start : ContainrProxy lib) (algorithm : LoadBalanceAlgorithm)
    (baseDomain : String) (appId : Uuid) : View :=
  install lib (start.adds algorithm baseDomain appId)
    (erased (start.removes baseDomain appId) start.table.view)

theorem refreshed_untouched {key : String} (untouched : ¬start.Touches baseDomain appId key) :
    refreshed start algorithm baseDomain appId key = start.table.view key := by
  have notAdded : ∀ route ∈ start.adds algorithm baseDomain appId,
      normalizeDomain lib route.domain ≠ key := by
    intro route member isKey
    rcases (adds_claimed member).2 with ⟨pair, claimed, sameDomain⟩
    rw [← sameDomain] at isKey
    exact untouched (Or.inr ⟨pair, claimed, isKey⟩)
  have notRemoved : key ∉ start.removes baseDomain appId := fun gone => untouched (Or.inl gone)
  unfold refreshed
  rw [install_other notAdded, erased_of_not_mem _ notRemoved]

theorem refreshed_touched {key : String} {route : Route}
    (touched : start.Touches baseDomain appId key)
    (found : refreshed start algorithm baseDomain appId key = some route) :
    route.appId = some appId := by
  by_cases added : ∃ route ∈ start.adds algorithm baseDomain appId,
      normalizeDomain lib route.domain = key
  · rcases install_mem (erased (start.removes baseDomain appId) start.table.view) added with
      ⟨installed, member, -, isInstalled⟩
    unfold refreshed at found
    rw [found] at isInstalled
    rw [Option.some.inj isInstalled]
    exact (adds_claimed member).1
  · have notAdded : ∀ route ∈ start.adds algorithm baseDomain appId,
        normalizeDomain lib route.domain ≠ key :=
      fun route member isKey => added ⟨route, member, isKey⟩
    unfold refreshed at found
    rw [install_other notAdded] at found
    rcases touched with gone | ⟨pair, claimed, isKey⟩
    · rw [erased_of_mem _ gone] at found
      cases found
    · rcases @claims_installed lib start algorithm baseDomain appId pair claimed with
        ⟨route, member, sameDomain⟩
      rw [← sameDomain] at isKey
      exact absurd isKey (notAdded route member)

/-- Other routes stay exactly when the refresh writes nowhere they stand. -/
theorem keeps_others_iff : KeepsOthers appId start.table.view
      (refreshed start algorithm baseDomain appId) ↔
    ∀ key route, start.table.view key = some route → route.appId ≠ some appId →
      ¬start.Touches baseDomain appId key := by
  constructor
  · intro keeps key route found foreign touched
    exact foreign (refreshed_touched touched (keeps key route found foreign))
  · intro apart key route found foreign
    rw [refreshed_untouched (apart key route found foreign)]
    exact found

section Rebuilt

variable {app : App} {containers : List (Option (List String))}
  (loaded : start.loadApp appId = .ok (some app))
  (listed : start.listContainers ("containr-" ++ app.id.toString) = .ok containers)

theorem installed_eq_intended_iff (pair : ContainerService × String) :
    keyed lib (installedRoute start algorithm app containers pair) =
        intendedRoute start algorithm app containers pair ↔
      NameIsIdle start app containers pair.1 := by
  rw [← recorded_upstreams_iff start app
    (runtimeService app (latestRunning (start.listDeployments app.id)) pair.1).port]
  unfold installedRoute intendedRoute
  constructor
  · intro same
    exact congrArg Route.upstreams same
  · intro same
    simp only [same]

include loaded listed

theorem refreshed_pair
    (distinct : ((publicDomains app baseDomain).map fun pair => normalizeDomain lib pair.2).Nodup)
    {pair : ContainerService × String} (member : pair ∈ publicDomains app baseDomain) :
    refreshed start algorithm baseDomain appId (normalizeDomain lib pair.2) =
      some (keyed lib (installedRoute start algorithm app containers pair)) := by
  unfold refreshed
  rw [adds_eq loaded listed]
  have added : ∃ route ∈ (publicDomains app baseDomain).map
      (installedRoute start algorithm app containers),
      normalizeDomain lib route.domain = normalizeDomain lib pair.2 :=
    ⟨_, List.mem_map.mpr ⟨pair, member, rfl⟩, rfl⟩
  rcases install_mem (erased (start.removes baseDomain appId) start.table.view) added with
    ⟨route, inRoutes, isKey, isInstalled⟩
  rcases List.mem_map.mp inRoutes with ⟨other, inPairs, isRoute⟩
  have sameKey : normalizeDomain lib other.2 = normalizeDomain lib pair.2 := by
    rw [← isRoute] at isKey
    exact isKey
  have same : other = pair := List.inj_on_of_nodup_map distinct inPairs member sameKey
  rw [isInstalled, ← isRoute, same]

theorem exactly_rebuilt_iff :
    ExactlyRebuilt start algorithm baseDomain app containers appId
        (refreshed start algorithm baseDomain appId) ↔
      ((publicDomains app baseDomain).map fun pair => normalizeDomain lib pair.2).Nodup ∧
      (∀ service ∈ exposedServices app, NameIsIdle start app containers service) ∧
      ∀ key route, start.table.view key = some route → route.appId = some appId →
        start.Touches baseDomain appId key := by
  constructor
  · intro rebuilt
    refine ⟨rebuilt.distinct, ?_, ?_⟩
    · intro service exposed
      -- the generated domain of the service is one of its domains
      have member := subdomain_public baseDomain exposed
      have intended := (rebuilt.routes _ _).mpr ⟨_, member, rfl, rfl⟩
      have installed := @refreshed_pair lib start algorithm baseDomain appId app containers loaded
        listed rebuilt.distinct _ member
      rw [intended.1] at installed
      exact (installed_eq_intended_iff _).mp (Option.some.inj installed).symm
    · intro key route found tagged
      by_contra untouched
      have stays : refreshed start algorithm baseDomain appId key = some route := by
        rw [refreshed_untouched untouched]
        exact found
      rcases (rebuilt.routes key route).mp ⟨stays, tagged⟩ with ⟨pair, member, isKey, -⟩
      rw [← claims_eq loaded listed] at member
      exact untouched (Or.inr ⟨pair, member, isKey⟩)
  · intro conditions
    rcases conditions with ⟨distinct, idle, reached⟩
    have intended : ∀ pair ∈ publicDomains app baseDomain,
        refreshed start algorithm baseDomain appId (normalizeDomain lib pair.2) =
          some (intendedRoute start algorithm app containers pair) := by
      intro pair member
      rw [refreshed_pair loaded listed distinct member]
      exact congrArg some ((installed_eq_intended_iff pair).mpr (idle _ (public_exposed member)))
    refine ⟨distinct, ?_⟩
    intro key route
    constructor
    · intro found
      -- a route of the app stands where the refresh wrote, so a domain claims its key
      have touched : start.Touches baseDomain appId key := by
        by_contra untouched
        have before := found.1
        rw [refreshed_untouched untouched] at before
        exact untouched (reached key route before found.2)
      by_cases claimed : ∃ pair ∈ publicDomains app baseDomain, normalizeDomain lib pair.2 = key
      · rcases claimed with ⟨pair, member, isKey⟩
        refine ⟨pair, member, isKey, ?_⟩
        have stands := intended pair member
        rw [isKey, found.1] at stands
        exact (Option.some.inj stands).symm
      · have emptied : refreshed start algorithm baseDomain appId key = none := by
          unfold refreshed
          rw [adds_eq loaded listed]
          have notAdded : ∀ route ∈ (publicDomains app baseDomain).map
              (installedRoute start algorithm app containers),
              normalizeDomain lib route.domain ≠ key := by
            intro route member isKey
            rcases List.mem_map.mp member with ⟨pair, inPairs, isRoute⟩
            rw [← isRoute] at isKey
            exact claimed ⟨pair, inPairs, isKey⟩
          rw [install_other notAdded]
          rcases touched with gone | ⟨pair, member, isKey⟩
          · exact erased_of_mem _ gone
          · rw [claims_eq loaded listed] at member
            exact absurd ⟨pair, member, isKey⟩ claimed
        rw [emptied] at found
        cases found.1
    · intro exists_pair
      rcases exists_pair with ⟨pair, member, isKey, isRoute⟩
      rw [← isKey, ← isRoute]
      exact ⟨intended pair member, congrArg some (start.loadedId appId app loaded)⟩

end Rebuilt

end After

/-- A refresh beside any lookups leaves the routes of other apps and external routes
alone and rebuilds its own exactly under these conditions on the table before it. -/
theorem refresh_keeps_to_itself_iff (lib : Libraries) (start final : ContainrProxy lib)
    (algorithm : LoadBalanceAlgorithm) (baseDomain : String) (appId : Uuid)
    (run : Runs (serving lib).can (refreshRoutesForApp lib algorithm baseDomain appId) start ()
      final) :
    (KeepsOthers appId start.table.view final.table.view ∧
      ∀ app containers, start.loadApp appId = .ok (some app) →
        start.listContainers ("containr-" ++ app.id.toString) = .ok containers →
        ExactlyRebuilt start algorithm baseDomain app containers appId final.table.view) ↔
    KeepsToItself start baseDomain appId := by
  have after : final.table.view = refreshed start algorithm baseDomain appId :=
    ((ensures_refresh start algorithm baseDomain appId).runs run).view
  rw [after, keeps_others_iff]
  constructor
  · intro good
    refine ⟨good.1, ?_⟩
    intro app containers loaded listed
    exact (exactly_rebuilt_iff loaded listed).mp (good.2 app containers loaded listed)
  · intro good
    refine ⟨good.apart, ?_⟩
    intro app containers loaded listed
    exact (exactly_rebuilt_iff loaded listed).mpr (good.own app containers loaded listed)

/-! An app named `shop` with one web service, and one route that is not its own. -/

def shopApp : App where
  id := ⟨1⟩
  name := "shop"
  githubUrl := ""
  branch := "main"
  domains := []
  envVars := []
  autoDeployEnabled := false
  autoDeployWatchPaths := []
  autoDeployCleanupStaleDeployments := false
  deployWebhookToken := none
  port := 8080
  services := [{ ContainerService.new ⟨2⟩ 0 ⟨1⟩ "web" "nginx" 80 with serviceType := .webService }]
  rolloutStrategy := .stopFirst
  ownerId := ⟨3⟩
  createdAt := 0
  updatedAt := 0

def shopProxy (foreign : Route) : ContainrProxy plainLibraries :=
  { demoProxy foreign with
    loadApp := fun id => .ok (if id = ⟨1⟩ then some shopApp else none)
    loadedId := by
      intro id app loaded
      have found := Except.ok.inj loaded
      split_ifs at found with same
      rw [← Option.some.inj found, same]
      rfl }

def foreignRoute (domain : String) : Route :=
  { demoRoute domain false with appId := some ⟨9⟩, serviceId := some ⟨8⟩ }

theorem shop_view (domain : String) (key : String) :
    (shopProxy (foreignRoute domain)).table.view key =
      if key = normalizeDomain plainLibraries domain then
        some (keyed plainLibraries (foreignRoute domain)) else none := by
  have view := Table.view_add_route (⟨Map.empty, 0⟩ : Table plainLibraries) (foreignRoute domain)
  have atKey := congrFun view key
  rw [Function.update_apply] at atKey
  exact atKey

theorem shop_view_some {domain key : String} {route : Route}
    (found : (shopProxy (foreignRoute domain)).table.view key = some route) :
    key = normalizeDomain plainLibraries domain ∧
      route = keyed plainLibraries (foreignRoute domain) := by
  rw [shop_view] at found
  split_ifs at found with isKey
  exact ⟨isKey, (Option.some.inj found).symm⟩

/-- Neither the names of `shop` nor its suffix take a route of another app. -/
theorem foreign_not_removed {domain : String}
    (unnamed : normalizeDomain plainLibraries "shop.example.com" ≠
      normalizeDomain plainLibraries domain)
    (elsewhere : Text.endsWith (normalizeDomain plainLibraries domain)
      (serviceSuffix shopApp "example.com") = false) :
    normalizeDomain plainLibraries domain ∉
      appKeys plainLibraries shopApp "example.com" (shopProxy (foreignRoute domain)).table.view := by
  rintro ((tagged | named) | suffixed)
  · rcases tagged with ⟨other, listed, isListed, isTagged, -⟩
    rw [(shop_view_some isListed).2] at isTagged
    have foreign : taggedWith shopApp.id (keyed plainLibraries (foreignRoute domain)) = false := rfl
    rw [foreign] at isTagged
    cases isTagged
  · rcases named with ⟨name, member, sameKey⟩
    have domains : appSubdomain shopApp "example.com" :: shopApp.customDomains =
        ["shop.example.com"] := by decide +kernel
    rw [domains, List.mem_singleton] at member
    rw [member] at sameKey
    exact unnamed sameKey
  · rcases suffixed with ⟨other, listed, isListed, ends, -⟩
    unfold erased at isListed
    split_ifs at isListed
    rw [(shop_view_some isListed).2] at ends
    cases elsewhere.symm.trans ends

theorem shop_keeps_to_itself :
    KeepsToItself (shopProxy (foreignRoute "blog.example.org")) "example.com" ⟨1⟩ where
  apart := by
    intro key route found foreign touched
    have isKey := (shop_view_some found).1
    rcases touched with removed | claimed
    · rw [isKey] at removed
      exact foreign_not_removed (by decide +kernel) (by decide +kernel) removed
    · have elsewhere : ∀ pair ∈ publicDomains shopApp "example.com",
          normalizeDomain plainLibraries pair.2 ≠ normalizeDomain plainLibraries
            "blog.example.org" := by decide +kernel
      rcases claimed with ⟨pair, member, sameKey⟩
      rw [isKey] at sameKey
      exact elsewhere pair member sameKey
  own := by
    intro app containers loaded listed
    have isApp : shopApp = app := Option.some.inj (Except.ok.inj loaded)
    have isContainers : [] = containers := Except.ok.inj listed
    rw [← isApp, ← isContainers]
    refine ⟨by decide +kernel, ?_, ?_⟩
    · intro service _
      right
      intro name member
      cases member
    · intro key route found tagged
      rw [(shop_view_some found).2] at tagged
      have foreign : (keyed plainLibraries (foreignRoute "blog.example.org")).appId ≠
          some ⟨1⟩ := by decide
      exact absurd tagged foreign

/-- The refresh of `shop` leaves a route elsewhere alone. -/
theorem refresh_keeps_to_itself_elsewhere : ∃ final : ContainrProxy plainLibraries,
    KeepsOthers ⟨1⟩ (shopProxy (foreignRoute "blog.example.org")).table.view final.table.view ∧
    ExactlyRebuilt (shopProxy (foreignRoute "blog.example.org")) .roundRobin "example.com" shopApp
      [] ⟨1⟩ final.table.view := by
  have run := runs_run (serving plainLibraries) (fun _ _ => []) (by simp [serving])
    (refreshRoutesForApp plainLibraries .roundRobin "example.com" ⟨1⟩)
    (shopProxy (foreignRoute "blog.example.org"))
  have good := (refresh_keeps_to_itself_iff plainLibraries _ _ .roundRobin "example.com" ⟨1⟩
    run).mpr shop_keeps_to_itself
  exact ⟨_, good.1, good.2 shopApp [] rfl rfl⟩

/-- Another app's custom domain under the name of `shop` is taken offline. -/
theorem refresh_removes_foreign_route : ∃ final : ContainrProxy plainLibraries,
    Runs (serving plainLibraries).can
      (refreshRoutesForApp plainLibraries .roundRobin "example.com" ⟨1⟩)
      (shopProxy (foreignRoute "api.shop.example.com")) () final ∧
    ¬(KeepsOthers ⟨1⟩ (shopProxy (foreignRoute "api.shop.example.com")).table.view
        final.table.view ∧
      ∀ app containers,
        (shopProxy (foreignRoute "api.shop.example.com")).loadApp ⟨1⟩ = .ok (some app) →
        (shopProxy (foreignRoute "api.shop.example.com")).listContainers
          ("containr-" ++ app.id.toString) = .ok containers →
        ExactlyRebuilt (shopProxy (foreignRoute "api.shop.example.com")) .roundRobin "example.com"
          app containers ⟨1⟩ final.table.view) := by
  have run := runs_run (serving plainLibraries) (fun _ _ => []) (by simp [serving])
    (refreshRoutesForApp plainLibraries .roundRobin "example.com" ⟨1⟩)
    (shopProxy (foreignRoute "api.shop.example.com"))
  refine ⟨_, run, ?_⟩
  intro good
  have stays := good.1 "api.shop.example.com"
    (keyed plainLibraries (foreignRoute "api.shop.example.com")) (by decide +kernel) (by decide)
  revert stays
  decide +kernel

end Containr.Proxy
