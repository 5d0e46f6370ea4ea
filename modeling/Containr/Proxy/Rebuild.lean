import Containr.Proxy.Refresh

/-!
# What a refresh does to the route table

Requests look routes up between any two calls of a refresh; that moves counters and
fills caches but leaves every route as it is (`Shows`). The refresh is followed
through views of the table: which keys it empties, which routes it installs, and
which calls that change the table it makes at all.
-/

namespace Containr.Proxy

open Containr.Effect Containr.Effect.Program

variable {lib : Libraries}

/-- The calls of a request that read the route table. -/
def ProxyOp.isLookup : ProxyOp lib → Bool
  | .getRoute _ | .checkBasicAuth _ _ | .verify _ | .selectUpstream _ => true
  | _ => false

def ContainrProxy.serve (proxy : ContainrProxy lib) (lookups : List (ProxyOp lib)) :
    ContainrProxy lib :=
  lookups.foldl (fun proxy lookup => (proxy.answer lookup).2) proxy

def serving (lib : Libraries) : Machine (ProxyFace lib) (ContainrProxy lib) where
  Choice _ := List (ProxyOp lib)
  exec op lookups proxy := (proxy.serve lookups).answer op
  Admits _ lookups _ := ∀ lookup ∈ lookups, lookup.isLookup = true

/-- What the keys of a table hold. -/
abbrev View : Type := String → Option Route

structure Shows (start : ContainrProxy lib) (view : View) (proxy : ContainrProxy lib) : Prop where
  view : proxy.table.view = view
  loadApp : proxy.loadApp = start.loadApp
  listDeployments : proxy.listDeployments = start.listDeployments
  listContainers : proxy.listContainers = start.listContainers
  networksOf : proxy.networksOf = start.networksOf

section Steps

variable {start proxy : ContainrProxy lib} {view : View}

theorem shows_start (start : ContainrProxy lib) : Shows start start.table.view start :=
  ⟨rfl, rfl, rfl, rfl, rfl⟩

theorem Shows.change (shows : Shows start view proxy) {next : View} {table : Table lib}
    (changed : table.view = next) : Shows start next { proxy with table := table } :=
  ⟨changed, shows.loadApp, shows.listDeployments, shows.listContainers, shows.networksOf⟩

theorem lookup_shows {lookup : ProxyOp lib} (isLookup : lookup.isLookup = true)
    (shows : Shows start view proxy) : Shows start view (proxy.answer lookup).2 := by
  cases lookup with
  | getRoute domain => exact shows
  | checkBasicAuth domain authorization => exact shows
  | verify pending => exact shows.change ((Table.view_verify _ _).trans shows.view)
  | selectUpstream domain => exact shows.change ((Table.view_select_upstream _ _).trans shows.view)
  | _ => cases isLookup

theorem serve_shows (lookups : List (ProxyOp lib))
    (onlyLookups : ∀ lookup ∈ lookups, lookup.isLookup = true)
    (shows : Shows start view proxy) : Shows start view (proxy.serve lookups) := by
  induction lookups generalizing proxy with
  | nil => exact shows
  | cons lookup rest ih =>
      apply ih
      · intro other member
        exact onlyLookups other (List.mem_cons_of_mem lookup member)
      · exact lookup_shows (onlyLookups lookup List.mem_cons_self) shows

/-- A call is answered in a state that still shows the same. -/
theorem serving_step {op : ProxyOp lib} {answer : op.Answer} {after : ContainrProxy lib}
    (possible : (serving lib).can op proxy answer after) (shows : Shows start view proxy) :
    ∃ now, Shows start view now ∧ now.answer op = (answer, after) := by
  obtain ⟨lookups, onlyLookups, answered⟩ := possible
  exact ⟨proxy.serve lookups, serve_shows lookups onlyLookups shows, answered⟩

end Steps

section Calls

variable {start proxy : ContainrProxy lib} {view : View} {allowed : ProxyOp lib → Prop}

/-- One call: it is permitted, and whatever answer it gets leads to `post`. -/
theorem ensures_ask {op : ProxyOp lib} {post : op.Answer → ContainrProxy lib → Prop}
    (permitted : allowed op) (shows : Shows start view proxy)
    (leads : ∀ now, Shows start view now → post (now.answer op).1 (now.answer op).2) :
    (ask op).Always (serving lib).can (fun _ op => allowed op) post proxy := by
  refine always_call.mpr ⟨permitted, ?_⟩
  intro answer after possible
  obtain ⟨now, showsNow, answered⟩ := serving_step possible shows
  apply always_pure.mpr
  have reached := leads now showsNow
  rw [answered] at reached
  exact reached

theorem ensures_remove_route {domain : String} (permitted : allowed (.removeRoute domain))
    (shows : Shows start view proxy) :
    (ask (.removeRoute domain)).Always (serving lib).can (fun _ op => allowed op)
      (fun _ after => Shows start (Function.update view (normalizeDomain lib domain) none) after)
      proxy := by
  apply ensures_ask permitted shows
  intro now showsNow
  apply showsNow.change
  rw [Table.view_remove_route, showsNow.view]

theorem ensures_add_route {route : Route} (permitted : allowed (.addRoute route))
    (shows : Shows start view proxy) :
    (ask (.addRoute route)).Always (serving lib).can (fun _ op => allowed op)
      (fun _ after => Shows start (Function.update view (normalizeDomain lib route.domain)
        (some { route with domain := normalizeDomain lib route.domain })) after) proxy := by
  apply ensures_ask permitted shows
  intro now showsNow
  apply showsNow.change
  rw [Table.view_add_route, showsNow.view]

end Calls

open Classical in
noncomputable def erased (gone : Set String) (view : View) : View :=
  fun key => if key ∈ gone then none else view key

variable {key : String}

theorem erased_of_mem {gone : Set String} (view : View) (isGone : key ∈ gone) :
    erased gone view key = none := if_pos isGone

theorem erased_of_not_mem {gone : Set String} (view : View) (stays : key ∉ gone) :
    erased gone view key = view key := if_neg stays

@[simp] theorem erased_empty (view : View) : erased ∅ view = view := by
  funext key
  exact erased_of_not_mem view (Set.notMem_empty key)

theorem erased_erased (first second : Set String) (view : View) :
    erased second (erased first view) = erased (first ∪ second) view := by
  funext key
  by_cases inSecond : key ∈ second
  · rw [erased_of_mem _ inSecond, erased_of_mem _ (Or.inr inSecond)]
  · rw [erased_of_not_mem _ inSecond]
    by_cases inFirst : key ∈ first
    · rw [erased_of_mem _ inFirst, erased_of_mem _ (Or.inl inFirst)]
    · have neither : key ∉ first ∪ second := by simp [inFirst, inSecond]
      rw [erased_of_not_mem _ inFirst, erased_of_not_mem _ neither]

theorem erased_insert (gone : Set String) (view : View) (key : String) :
    Function.update (erased gone view) key none = erased (gone ∪ {key}) view := by
  rw [← erased_erased]
  funext other
  by_cases same : other = key
  · rw [same, Function.update_self, erased_of_mem _ (Set.mem_singleton key)]
  · rw [Function.update_of_ne same, erased_of_not_mem _ (Set.notMem_singleton_iff.mpr same)]

section Removal

variable {start proxy : ContainrProxy lib} {view : View} {allowed : ProxyOp lib → Prop}

def keysOf (lib : Libraries) (domains : List String) : Set String :=
  { key | ∃ domain ∈ domains, normalizeDomain lib domain = key }

theorem keys_of_append_singleton (domains : List String) (domain : String) :
    keysOf lib (domains ++ [domain]) = keysOf lib domains ∪ {normalizeDomain lib domain} := by
  ext key
  constructor
  · intro member
    rcases member with ⟨other, inList, isKey⟩
    rcases List.mem_append.mp inList with earlier | last
    · exact Or.inl ⟨other, earlier, isKey⟩
    · rw [List.mem_singleton] at last
      rw [last] at isKey
      exact Or.inr isKey.symm
  · intro member
    rcases member with ⟨other, inList, isKey⟩ | isKey
    · exact ⟨other, List.mem_append_left _ inList, isKey⟩
    · exact ⟨domain, by simp, isKey.symm⟩

theorem ensures_remove_all (domains : List String)
    (permitted : ∀ domain ∈ domains, allowed (.removeRoute domain))
    (shows : Shows start view proxy) :
    (forAll (fun domain => ask (.removeRoute domain)) domains).Always (serving lib).can
      (fun _ op => allowed op)
      (fun _ after => Shows start (erased (keysOf lib domains) view) after) proxy := by
  -- after the first domains of the list, exactly their keys are empty
  refine always_for_all (fun done now => Shows start (erased (keysOf lib done) view) now)
    domains [] proxy ?_ (fun _ reached => reached) ?_
  · have none : keysOf lib [] = ∅ := by simp [keysOf]
    rw [none, erased_empty]
    exact shows
  · intro before domain after now split reached
    have member : domain ∈ domains := by simp [split]
    refine (ensures_remove_route (permitted domain member) reached).mono ?_
    intro _ next emptied
    rw [erased_insert] at emptied
    rw [keys_of_append_singleton]
    exact emptied

def listedKeys (lib : Libraries) (pick : Route → Bool) (view : View) : Set String :=
  { key | ∃ other route, view other = some route ∧ pick route = true ∧
    normalizeDomain lib route.domain = key }

theorem ensures_remove_listed (pick : Route → Bool) (readable : allowed .listRoutes)
    (permitted : ∀ key route, view key = some route → pick route = true →
      allowed (.removeRoute route.domain))
    (shows : Shows start view proxy) :
    (removeListed pick).Always (serving lib).can (fun _ op => allowed op)
      (fun _ after => Shows start (erased (listedKeys lib pick view) view) after) proxy := by
  apply always_bind.mpr
  apply ensures_ask readable shows
  intro now showsNow
  have listed : ∀ domain, domain ∈ ((now.table.listRoutes.filter pick).map Route.domain) ↔
      ∃ key route, view key = some route ∧ pick route = true ∧ route.domain = domain := by
    intro domain
    simp only [List.mem_map, List.mem_filter, Table.mem_list_routes, showsNow.view]
    constructor
    · intro member
      rcases member with ⟨route, ⟨⟨key, found⟩, picked⟩, isDomain⟩
      exact ⟨key, route, found, picked, isDomain⟩
    · intro member
      rcases member with ⟨key, route, found, picked, isDomain⟩
      exact ⟨route, ⟨⟨key, found⟩, picked⟩, isDomain⟩
  have sameKeys : keysOf lib ((now.table.listRoutes.filter pick).map Route.domain) =
      listedKeys lib pick view := by
    ext key
    constructor
    · intro member
      rcases member with ⟨domain, inList, isKey⟩
      rcases (listed domain).mp inList with ⟨other, route, found, picked, isDomain⟩
      rw [← isDomain] at isKey
      exact ⟨other, route, found, picked, isKey⟩
    · intro member
      rcases member with ⟨other, route, found, picked, isKey⟩
      exact ⟨route.domain, (listed _).mpr ⟨other, route, found, picked, rfl⟩, isKey⟩
  rw [← sameKeys]
  apply ensures_remove_all _ _ showsNow
  intro domain member
  rcases (listed domain).mp member with ⟨key, route, found, picked, isDomain⟩
  rw [← isDomain]
  exact permitted key route found picked

end Removal

/-- The route as `add_route` stores it. -/
def keyed (lib : Libraries) (route : Route) : Route :=
  { route with domain := normalizeDomain lib route.domain }

def install (lib : Libraries) (routes : List Route) (view : View) : View :=
  routes.foldl (fun view route =>
    Function.update view (normalizeDomain lib route.domain) (some (keyed lib route))) view

theorem install_append (first second : List Route) (view : View) :
    install lib (first ++ second) view = install lib second (install lib first view) :=
  List.foldl_append

theorem install_eq_last (routes : List Route) (view : View) (key : String) :
    install lib routes view key = ((routes.reverse.find? fun route =>
      normalizeDomain lib route.domain = key).map (keyed lib)).or (view key) := by
  induction routes using List.reverseRecOn with
  | nil => rfl
  | append_singleton routes last ih =>
      rw [install_append, List.reverse_append, List.reverse_singleton, List.singleton_append]
      change Function.update (install lib routes view) (normalizeDomain lib last.domain)
        (some (keyed lib last)) key = _
      by_cases isKey : normalizeDomain lib last.domain = key
      · rw [List.find?_cons_of_pos (by simpa using isKey), ← isKey, Function.update_self]
        rfl
      · rw [List.find?_cons_of_neg (by simpa using isKey),
          Function.update_of_ne (fun same => isKey same.symm), ih]

theorem install_other {routes : List Route}
    (other : ∀ route ∈ routes, normalizeDomain lib route.domain ≠ key) (view : View) :
    install lib routes view key = view key := by
  induction routes generalizing view with
  | nil => rfl
  | cons route rest ih =>
      have different : key ≠ normalizeDomain lib route.domain :=
        fun same => other route List.mem_cons_self same.symm
      have kept := ih (fun route member => other route (List.mem_cons_of_mem _ member))
        (Function.update view (normalizeDomain lib route.domain) (some (keyed lib route)))
      rw [Function.update_of_ne different] at kept
      exact kept

theorem install_mem {routes : List Route} (view : View)
    (some_route : ∃ route ∈ routes, normalizeDomain lib route.domain = key) :
    ∃ route ∈ routes, normalizeDomain lib route.domain = key ∧
      install lib routes view key = some (keyed lib route) := by
  induction routes generalizing view with
  | nil => simp at some_route
  | cons route rest ih =>
      by_cases later : ∃ route ∈ rest, normalizeDomain lib route.domain = key
      · rcases ih (Function.update view (normalizeDomain lib route.domain)
          (some (keyed lib route))) later with ⟨found, member, isKey, installed⟩
        exact ⟨found, List.mem_cons_of_mem _ member, isKey, installed⟩
      · have isKey : normalizeDomain lib route.domain = key := by
          rcases some_route with ⟨found, member, isKey⟩
          rcases List.mem_cons.mp member with same | inRest
          · rw [← same]
            exact isKey
          · exact absurd ⟨found, inRest, isKey⟩ later
        have untouched : ∀ route ∈ rest, normalizeDomain lib route.domain ≠ key :=
          fun found member same => later ⟨found, member, same⟩
        refine ⟨route, List.mem_cons_self, isKey, ?_⟩
        have kept := install_other untouched (Function.update view
          (normalizeDomain lib route.domain) (some (keyed lib route)))
        rw [← isKey, Function.update_self] at kept
        rw [← isKey]
        exact kept

section Rebuilding

variable {start proxy : ContainrProxy lib} {view : View} {allowed : ProxyOp lib → Prop}

theorem ensures_add_all {Item : Type} (routeOf : Item → Route) (items : List Item)
    (permitted : ∀ item ∈ items, allowed (.addRoute (routeOf item)))
    (shows : Shows start view proxy) :
    (forAll (fun item => ask (.addRoute (routeOf item))) items).Always (serving lib).can
      (fun _ op => allowed op)
      (fun _ after => Shows start (install lib (items.map routeOf) view) after) proxy := by
  refine always_for_all (fun done now => Shows start (install lib (done.map routeOf) view) now)
    items [] proxy shows (fun _ reached => reached) ?_
  intro before item after now split reached
  have member : item ∈ items := by simp [split]
  refine (ensures_add_route (permitted item member) reached).mono ?_
  intro _ next added
  rw [List.map_append, install_append]
  exact added

def ContainrProxy.addressOf (proxy : ContainrProxy lib) (app : App) (name : String) :
    Option String :=
  (proxy.networksOf name).bind fun networks => pickAddress networks app.networkName

def ContainrProxy.upstreamsOf (proxy : ContainrProxy lib) (app : App)
    (serves : String → Bool) (port : Nat) (names : List String) : List Upstream :=
  ((names.filter serves).filterMap (proxy.addressOf app)).map fun host => ⟨host, port⟩

theorem upstreams_of_append (proxy : ContainrProxy lib) (app : App) (serves : String → Bool)
    (port : Nat) (first second : List String) :
    proxy.upstreamsOf app serves port (first ++ second) =
      proxy.upstreamsOf app serves port first ++ proxy.upstreamsOf app serves port second := by
  simp [ContainrProxy.upstreamsOf]

theorem ensures_collect_upstreams (app : App) (deployment : Option Deployment)
    (service : ContainerService) (containers : List (Option (List String)))
    (readable : ∀ name, allowed (.networksOf name)) (shows : Shows start view proxy) :
    (collectUpstreams app deployment service containers).Always (serving lib).can
      (fun _ op => allowed op)
      (fun upstreams after => Shows start view after ∧
        upstreams = start.upstreamsOf app (servesService app deployment service)
          (runtimeService app deployment service).port (containerNames containers)) proxy := by
  refine always_fold (fun done upstreams now => Shows start view now ∧
    upstreams = start.upstreamsOf app (servesService app deployment service)
      (runtimeService app deployment service).port done) (containerNames containers) [] [] proxy
    ⟨shows, rfl⟩ (fun _ _ reached => reached) ?_
  intro before name after upstreams now split reached
  rw [upstreams_of_append]
  split_ifs with served
  · apply always_bind.mpr
    apply always_bind.mpr
    apply ensures_ask (readable name) reached.1
    intro later showsLater
    apply always_pure.mpr
    apply always_pure.mpr
    refine ⟨showsLater, ?_⟩
    have sameAddress : ((later.networksOf name).bind fun networks =>
        pickAddress networks app.networkName) = start.addressOf app name := by
      rw [showsLater.networksOf]
      rfl
    simp only [ContainrProxy.answer, sameAddress, reached.2]
    congr 1
    cases address : start.addressOf app name with
    | none => simp [ContainrProxy.upstreamsOf, served, address]
    | some ip => simp [ContainrProxy.upstreamsOf, served, address]
  · apply always_pure.mpr
    refine ⟨reached.1, ?_⟩
    simp [ContainrProxy.upstreamsOf, served, reached.2]

end Rebuilding

section Refresh

variable (start : ContainrProxy lib) (algorithm : LoadBalanceAlgorithm) (baseDomain : String)

def ownKeys (lib : Libraries) (app : App) (baseDomain : String) (view : View) : Set String :=
  listedKeys lib (taggedWith app.id) view ∪
    keysOf lib (appSubdomain app baseDomain :: app.customDomains)

/-- What `remove_app_routes` empties: those, and then the rest of the app's suffix. -/
def appKeys (lib : Libraries) (app : App) (baseDomain : String) (view : View) : Set String :=
  ownKeys lib app baseDomain view ∪
    listedKeys lib (fun route => Text.endsWith route.domain (serviceSuffix app baseDomain))
      (erased (ownKeys lib app baseDomain view) view)

def routesOfService (app : App) (deployment : Option Deployment)
    (containers : List (Option (List String))) (service : ContainerService) : List Route :=
  let upstreams := start.upstreamsOf app (servesService app deployment service)
    (runtimeService app deployment service).port (containerNames containers)
  (domainsForService service baseDomain).map (serviceRoute app algorithm service upstreams)

def ContainrProxy.removes (appId : Uuid) : Set String :=
  match start.loadApp appId with
  | .error _ => ∅
  | .ok none => listedKeys lib (taggedWith appId) start.table.view
  | .ok (some app) =>
      match start.listContainers ("containr-" ++ app.id.toString) with
      | .error _ => ∅
      | .ok _ => appKeys lib app baseDomain start.table.view

/-- The routes a refresh installs, in this order. -/
def ContainrProxy.adds (appId : Uuid) : List Route :=
  match start.loadApp appId with
  | .error _ | .ok none => []
  | .ok (some app) =>
      match start.listContainers ("containr-" ++ app.id.toString) with
      | .error _ => []
      | .ok containers => (exposedServices app).flatMap
          (routesOfService start algorithm baseDomain app
            (latestRunning (start.listDeployments app.id)) containers)

/-- The calls by which a refresh changes the table. -/
def PermittedWrites (lib : Libraries) (gone : Set String) (routes : List Route) :
    ProxyOp lib → Prop
  | .removeRoute domain => normalizeDomain lib domain ∈ gone
  | .addRoute route => route ∈ routes
  | _ => True

variable {start algorithm baseDomain}
variable {proxy : ContainrProxy lib} {view : View} {gone : Set String} {routes : List Route}

theorem ensures_remove_app_routes (app : App) (baseDomain : String)
    (included : appKeys lib app baseDomain view ⊆ gone) (shows : Shows start view proxy) :
    (removeAppRoutes app baseDomain).Always (serving lib).can
      (fun _ op => PermittedWrites lib gone routes op)
      (fun _ after => Shows start (erased (appKeys lib app baseDomain view) view) after) proxy := by
  refine (ensures_remove_listed _ trivial ?_ shows).bind ?_
  · intro key route found picked
    exact included (Or.inl (Or.inl ⟨key, route, found, picked, rfl⟩))
  · intro _ second showsSecond
    refine (ensures_remove_all _ ?_ showsSecond).bind ?_
    · intro domain member
      exact included (Or.inl (Or.inr ⟨domain, member, rfl⟩))
    · intro _ third showsThird
      rw [erased_erased] at showsThird
      refine (ensures_remove_listed _ trivial ?_ showsThird).mono ?_
      · intro key route found picked
        exact included (Or.inr ⟨key, route, found, picked, rfl⟩)
      · intro _ last showsLast
        rw [erased_erased] at showsLast
        exact showsLast

theorem ensures_add_service_routes (app : App) (deployment : Option Deployment)
    (containers : List (Option (List String))) (service : ContainerService)
    (included : ∀ route ∈ routesOfService start algorithm baseDomain app deployment containers
      service, route ∈ routes) (shows : Shows start view proxy) :
    (addServiceRoutes app algorithm baseDomain deployment containers service).Always
      (serving lib).can (fun _ op => PermittedWrites lib gone routes op)
      (fun _ after => Shows start (install lib
        (routesOfService start algorithm baseDomain app deployment containers service) view) after)
      proxy := by
  refine (ensures_collect_upstreams app deployment service containers (fun _ => trivial)
    shows).bind ?_
  intro upstreams after collected
  rw [collected.2]
  apply ensures_add_all _ _ _ collected.1
  intro domain member
  exact included _ (List.mem_map.mpr ⟨domain, member, rfl⟩)

/-- There is an exposed service to select as soon as there is one at all. -/
theorem select_exposed_service_is_none (app : App) :
    (selectExposedService app).isNone = (exposedServices app).isEmpty := by
  simp only [selectExposedService, exposedServices]
  cases found : app.services.find? ContainerService.isPublicHttp with
  | none =>
      have noWeb : app.services.find? (fun service =>
          service.isPublicHttp && decide (service.name = "web")) = none := by
        rw [List.find?_eq_none] at found ⊢
        intro service member
        simp [found service member]
      have empty : app.services.filter ContainerService.isPublicHttp = [] := by
        rw [List.filter_eq_nil_iff]
        exact List.find?_eq_none.mp found
      simp [noWeb, empty]
  | some service =>
      have member := List.mem_of_find?_eq_some found
      have isPublic := List.find?_some found
      have nonempty : app.services.filter ContainerService.isPublicHttp ≠ [] :=
        List.ne_nil_of_mem (List.mem_filter.mpr ⟨member, isPublic⟩)
      rw [List.isEmpty_eq_false_iff.mpr nonempty]
      cases app.services.find? fun service =>
          service.isPublicHttp && decide (service.name = "web") with
      | none => rfl
      | some web => rfl

theorem ensures_rebuild_routes (app : App) (deployment : Option Deployment)
    (containers : List (Option (List String)))
    (removesIncluded : appKeys lib app baseDomain view ⊆ gone)
    (addsIncluded : ∀ service ∈ exposedServices app, ∀ route ∈ routesOfService start algorithm
      baseDomain app deployment containers service, route ∈ routes)
    (shows : Shows start view proxy) :
    (rebuildRoutes app algorithm baseDomain deployment containers).Always (serving lib).can
      (fun _ op => PermittedWrites lib gone routes op)
      (fun _ after => Shows start (install lib ((exposedServices app).flatMap
          (routesOfService start algorithm baseDomain app deployment containers))
        (erased (appKeys lib app baseDomain view) view)) after) proxy := by
  refine (ensures_remove_app_routes app baseDomain removesIncluded shows).bind ?_
  intro _ emptied showsEmptied
  rw [select_exposed_service_is_none, Bool.or_self]
  split_ifs with noService
  · apply always_pure.mpr
    rw [List.isEmpty_iff.mp noService]
    exact showsEmptied
  · refine always_for_all (fun done now => Shows start (install lib (done.flatMap
      (routesOfService start algorithm baseDomain app deployment containers))
      (erased (appKeys lib app baseDomain view) view)) now)
      (exposedServices app) [] emptied showsEmptied (fun _ reached => reached) ?_
    intro before service after now split reached
    have member : service ∈ exposedServices app := by simp [split]
    refine (ensures_add_service_routes app deployment containers service
      (addsIncluded service member) reached).mono ?_
    intro _ next added
    rw [← install_append] at added
    simpa using added

/-- A refresh empties the keys it removes and installs the routes it adds. -/
theorem ensures_refresh (start : ContainrProxy lib) (algorithm : LoadBalanceAlgorithm)
    (baseDomain : String) (appId : Uuid) :
    (refreshRoutesForApp lib algorithm baseDomain appId).Always (serving lib).can
      (fun _ op => PermittedWrites lib (start.removes baseDomain appId)
        (start.adds algorithm baseDomain appId) op)
      (fun _ after => Shows start (install lib (start.adds algorithm baseDomain appId)
        (erased (start.removes baseDomain appId) start.table.view)) after) start := by
  apply always_bind.mpr
  apply ensures_ask trivial (shows_start start)
  intro first showsFirst
  simp only [ContainrProxy.answer, showsFirst.loadApp, ContainrProxy.removes, ContainrProxy.adds]
  cases loaded : start.loadApp appId with
  | error message =>
      apply always_pure.mpr
      simpa [install] using showsFirst
  | ok found =>
      cases found with
      | none =>
          refine ensures_remove_listed _ trivial ?_ showsFirst
          intro key route found picked
          exact ⟨key, route, found, picked, rfl⟩
      | some app =>
          apply always_bind.mpr
          apply ensures_ask trivial showsFirst
          intro second showsSecond
          apply always_bind.mpr
          apply ensures_ask trivial showsSecond
          intro third showsThird
          simp only [ContainrProxy.answer, showsSecond.listDeployments, showsThird.listContainers]
          cases listed : start.listContainers ("containr-" ++ app.id.toString) with
          | error message =>
              apply always_pure.mpr
              simpa [install] using showsThird
          | ok containers =>
              refine ensures_rebuild_routes app _ containers (fun _ member => member) ?_ showsThird
              intro service member route isRoute
              exact List.mem_flatMap.mpr ⟨service, member, isRoute⟩

end Refresh

end Containr.Proxy
