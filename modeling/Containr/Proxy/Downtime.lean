import Containr.Proxy.Isolation

/-!
# Domains during a refresh

A lookup between two calls of a refresh finds the table as the refresh has left it so
far. A domain that is live before and after stays live in between exactly when the
refresh does not empty its key and installs no route without upstreams for it.
-/

namespace Containr.Proxy

open Containr.Effect Containr.Effect.Program

variable {lib : Libraries}

def Live (key : String) (view : View) : Prop := ∃ route, view key = some route ∧ route.upstreams ≠ []

structure StaysFilled (start : ContainrProxy lib) (algorithm : LoadBalanceAlgorithm)
    (baseDomain : String) (appId : Uuid) (key : String) : Prop where
  kept : key ∉ start.removes baseDomain appId
  filled : ∀ route ∈ start.adds algorithm baseDomain appId,
    normalizeDomain lib route.domain = key → route.upstreams ≠ []

section Keeps

variable {start proxy after : ContainrProxy lib} {key : String}

theorem live_after_call {op : ProxyOp lib} {answer : op.Answer} {gone : Set String}
    {routes : List Route} (kept : key ∉ gone)
    (filled : ∀ route ∈ routes, normalizeDomain lib route.domain = key → route.upstreams ≠ [])
    (permitted : PermittedWrites lib gone routes op) (live : Live key proxy.table.view)
    (possible : (serving lib).can op proxy answer after) : Live key after.table.view := by
  rcases serving_step possible (shows_start proxy) with ⟨now, shows, answered⟩
  have isAfter : after = (now.answer op).2 := (congrArg Prod.snd answered).symm
  have liveNow : Live key now.table.view := by
    rw [shows.view]
    exact live
  rw [isAfter]
  cases op with
  | verify pending =>
      change Live key (now.table.verify pending).2.view
      rw [Table.view_verify]
      exact liveNow
  | selectUpstream domain =>
      change Live key (now.table.selectUpstream domain).2.view
      rw [Table.view_select_upstream]
      exact liveNow
  | addRoute route =>
      change Live key (now.table.addRoute route).view
      rw [Table.view_add_route]
      by_cases isKey : key = normalizeDomain lib route.domain
      · refine ⟨keyed lib route, ?_, filled route permitted isKey.symm⟩
        rw [isKey, Function.update_self]
        rfl
      · rcases liveNow with ⟨old, found, upstreams⟩
        refine ⟨old, ?_, upstreams⟩
        rw [Function.update_of_ne isKey]
        exact found
  | removeRoute domain =>
      change Live key (now.table.removeRoute domain).view
      rw [Table.view_remove_route]
      have other : key ≠ normalizeDomain lib domain := by
        intro isKey
        rw [isKey] at kept
        exact kept permitted
      rcases liveNow with ⟨old, found, upstreams⟩
      refine ⟨old, ?_, upstreams⟩
      rw [Function.update_of_ne other]
      exact found
  | _ => exact liveNow

theorem stays_filled_live {algorithm : LoadBalanceAlgorithm} {baseDomain : String} {appId : Uuid}
    (stays : StaysFilled start algorithm baseDomain appId key) (live : Live key start.table.view)
    {left : Prog lib Unit} {middle : ContainrProxy lib}
    (reached : Reaches (serving lib).can (refreshRoutesForApp lib algorithm baseDomain appId) start
      left middle) : Live key middle.table.view := by
  have guarded := (ensures_refresh start algorithm baseDomain appId).guard
    (fun _ _ _ _ permitted live possible =>
      live_after_call stays.kept stays.filled permitted live possible) live
  have everywhere := (guarded.mono fun _ _ ended => ended.2).restrict
    (fun _ _ _ _ possible => possible) (fun _ _ permitted => permitted.2)
  exact (everywhere.reaches reached).here

end Keeps

section Dark

variable {start : ContainrProxy lib} {algorithm : LoadBalanceAlgorithm} {baseDomain : String}
  {appId : Uuid} {key : String}

abbrev AlwaysLive {Value : Type} (key : String) (program : Prog lib Value)
    (proxy : ContainrProxy lib) : Prop :=
  program.Always (serving lib).can (fun before _ => Live key before.table.view)
    (fun _ after => Live key after.table.view) proxy

theorem run_alone {Value : Type} (program : Prog lib Value) (proxy : ContainrProxy lib) :
    ∃ value final, Runs (serving lib).can program proxy value final :=
  ⟨_, _, runs_run (serving lib) (fun _ _ => []) (fun _ _ _ member => by cases member) program proxy⟩

theorem run_alone_unit (program : Prog lib Unit) (proxy : ContainrProxy lib) :
    ∃ final, Runs (serving lib).can program proxy () final := by
  rcases run_alone program proxy with ⟨value, final, run⟩
  exact ⟨final, run⟩

theorem answer_alone (op : ProxyOp lib) (proxy : ContainrProxy lib) :
    (serving lib).can op proxy (proxy.answer op).1 (proxy.answer op).2 := by
  refine ⟨([] : List (ProxyOp lib)), ?_, rfl⟩
  intro lookup member
  cases member

theorem always_live_ask {Value : Type} {op : ProxyOp lib} {next : op.Answer → Prog lib Value}
    {proxy : ContainrProxy lib} (live : AlwaysLive key ((ask op).bind next) proxy) :
    AlwaysLive key (next (proxy.answer op).1) (proxy.answer op).2 :=
  (always_call.mp live).2 _ _ (answer_alone op proxy)

/-- The addresses docker gives never change. -/
theorem networks_kept (op : ProxyOp lib) (before : ContainrProxy lib) (answer : op.Answer)
    (after : ContainrProxy lib) (same : before.networksOf = start.networksOf)
    (possible : (serving lib).can op before answer after) :
    after.networksOf = start.networksOf := by
  rcases serving_step possible (shows_start before) with ⟨now, shows, answered⟩
  have isAfter : after = (now.answer op).2 := (congrArg Prod.snd answered).symm
  have nowSame : now.networksOf = start.networksOf := shows.networksOf.trans same
  rw [isAfter]
  cases op <;> exact nowSame

theorem upstreams_of_networks {first second : ContainrProxy lib}
    (same : first.networksOf = second.networksOf) (app : App) (serves : String → Bool) (port : Nat)
    (names : List String) :
    first.upstreamsOf app serves port names = second.upstreamsOf app serves port names := by
  have addresses : first.addressOf app = second.addressOf app := by
    funext name
    simp only [ContainrProxy.addressOf, same]
  simp only [ContainrProxy.upstreamsOf, addresses]

variable {containers : List (Option (List String))} {deployment : Option Deployment}

theorem turn_fills {app : App} {service : ContainerService} {turn : ContainrProxy lib}
    (same : turn.networksOf = start.networksOf) (live : AlwaysLive key
      (addServiceRoutes app algorithm baseDomain deployment containers service) turn)
    {route : Route}
    (member : route ∈ routesOfService start algorithm baseDomain app deployment containers service)
    (isKey : normalizeDomain lib route.domain = key) : route.upstreams ≠ [] := by
  rcases run_alone (collectUpstreams app deployment service containers) turn with
    ⟨upstreams, collected, run⟩
  have isUpstreams := ((@ensures_collect_upstreams lib turn turn _ (fun _ => True) app deployment
    service containers (fun _ => trivial) (shows_start turn)).runs run).2
  rw [upstreams_of_networks same] at isUpstreams
  rcases List.mem_map.mp member with ⟨domain, inDomains, isRoute⟩
  rcases (live.after_run run).for_all_item
    (fun domain state => ⟨_, .call (answer_alone _ state) (.pure _ _)⟩)
    (@networks_kept lib turn) (run.invariant (@networks_kept lib turn) rfl)
    inDomains with ⟨last, -, added⟩
  have ended := (always_call.mp added).2 _ _ (answer_alone _ last)
  have after : Live key ((last.table.addRoute
      (serviceRoute app algorithm service upstreams domain)).view) := ended.here
  rcases after with ⟨found, isFound, upstreamsFound⟩
  have installed : serviceRoute app algorithm service upstreams domain = route := by
    rw [isUpstreams]
    exact isRoute
  rw [installed, Table.view_add_route, isKey, Function.update_self] at isFound
  rw [← Option.some.inj isFound] at upstreamsFound
  exact upstreamsFound

theorem rebuild_stays_filled {app : App}
    (live : AlwaysLive key (rebuildRoutes app algorithm baseDomain deployment containers) start) :
    key ∉ appKeys lib app baseDomain start.table.view ∧
      ∀ route ∈ (exposedServices app).flatMap
        (routesOfService start algorithm baseDomain app deployment containers),
        normalizeDomain lib route.domain = key → route.upstreams ≠ [] := by
  rcases run_alone (removeAppRoutes app baseDomain) start with ⟨_, emptied, run⟩
  have shows := (@ensures_remove_app_routes lib start start start.table.view
    (appKeys lib app baseDomain start.table.view) [] app baseDomain (fun _ member => member)
    (shows_start start)).runs run
  have rest := live.after_run run
  constructor
  · intro gone
    rcases rest.here with ⟨route, found, -⟩
    rw [shows.view, erased_of_mem _ gone] at found
    cases found
  · intro route member isKey
    rcases List.mem_flatMap.mp member with ⟨service, exposed, inRoutes⟩
    have nonempty : (exposedServices app).isEmpty = false :=
      List.isEmpty_eq_false_iff.mpr (List.ne_nil_of_mem exposed)
    rw [select_exposed_service_is_none, Bool.or_self, nonempty] at rest
    rcases rest.for_all_item (fun service state => run_alone_unit _ state)
      (@networks_kept lib start) shows.networksOf exposed with ⟨turn, same, filled⟩
    exact turn_fills same filled inRoutes isKey

theorem stays_filled_of_always_live {final : ContainrProxy lib}
    (run : Runs (serving lib).can (refreshRoutesForApp lib algorithm baseDomain appId) start ()
      final) (after : Live key final.table.view)
    (live : AlwaysLive key (refreshRoutesForApp lib algorithm baseDomain appId) start) :
    StaysFilled start algorithm baseDomain appId key := by
  have loadedLive := always_live_ask live
  simp only [ContainrProxy.answer] at loadedLive
  cases loaded : start.loadApp appId with
  | error message =>
      exact ⟨by simp [ContainrProxy.removes, loaded], by simp [ContainrProxy.adds, loaded]⟩
  | ok loadedApp =>
      rw [loaded] at loadedLive
      cases loadedApp with
      | none =>
          refine ⟨?_, by simp [ContainrProxy.adds, loaded]⟩
          intro gone
          have view := ((ensures_refresh start algorithm baseDomain appId).runs run).view
          have noAdds : start.adds algorithm baseDomain appId = [] := by
            simp [ContainrProxy.adds, loaded]
          rcases after with ⟨route, isRoute, -⟩
          rw [view, noAdds] at isRoute
          have emptied : erased (start.removes baseDomain appId) start.table.view key =
              some route := isRoute
          rw [erased_of_mem _ gone] at emptied
          cases emptied
      | some app =>
          have listedLive := always_live_ask (always_live_ask loadedLive)
          simp only [ContainrProxy.answer] at listedLive
          cases listed : start.listContainers ("containr-" ++ app.id.toString) with
          | error message =>
              exact ⟨by simp [ContainrProxy.removes, loaded, listed],
                by simp [ContainrProxy.adds, loaded, listed]⟩
          | ok containers =>
              rw [listed] at listedLive
              have rebuilt := rebuild_stays_filled listedLive
              constructor
              · simpa only [ContainrProxy.removes, loaded, listed] using rebuilt.1
              · simpa only [ContainrProxy.adds, loaded, listed] using rebuilt.2

end Dark

def LiveThroughout (start : ContainrProxy lib) (algorithm : LoadBalanceAlgorithm)
    (baseDomain : String) (appId : Uuid) (domain : String) : Prop :=
  ∀ left middle lookups,
    Reaches (serving lib).can (refreshRoutesForApp lib algorithm baseDomain appId) start left
      middle →
    (∀ lookup ∈ lookups, lookup.isLookup = true) →
    ∃ route, (middle.serve lookups).table.getRoute domain = some route ∧ route.upstreams ≠ []

theorem LiveThroughout.always {start : ContainrProxy lib} {algorithm : LoadBalanceAlgorithm}
    {baseDomain : String} {appId : Uuid} {domain : String}
    (live : LiveThroughout start algorithm baseDomain appId domain) :
    AlwaysLive (normalizeDomain lib domain) (refreshRoutesForApp lib algorithm baseDomain appId)
      start :=
  always_of_reaches fun left middle reached => live left middle [] reached (by simp)

/-- A domain that is live before and after a refresh is live at every lookup in between
exactly when the refresh keeps its key filled. -/
theorem refresh_keeps_live_iff (lib : Libraries) (start final : ContainrProxy lib)
    (algorithm : LoadBalanceAlgorithm) (baseDomain : String) (appId : Uuid) (domain : String)
    (run : Runs (serving lib).can (refreshRoutesForApp lib algorithm baseDomain appId) start ()
      final)
    (before : Live (normalizeDomain lib domain) start.table.view)
    (after : Live (normalizeDomain lib domain) final.table.view) :
    LiveThroughout start algorithm baseDomain appId domain ↔
      StaysFilled start algorithm baseDomain appId (normalizeDomain lib domain) := by
  constructor
  · intro live
    exact stays_filled_of_always_live run after live.always
  · intro stays left middle lookups reached onlyLookups
    have live := stays_filled_live stays before reached
    have shows := serve_shows lookups onlyLookups (shows_start middle)
    rw [← shows.view] at live
    exact live

/-! The web service of `shop` has one running container. -/

def shopDomain : String := "service-aaaac.example.com"

def runningShop (route : Route) (containers : Except String (List (Option (List String)))) :
    ContainrProxy plainLibraries :=
  { shopProxy route with
    listContainers := fun _ => containers
    networksOf := fun _ => some [("bridge", some "10.0.0.7")] }

def webContainer : String := "/containr-00000000-0000-0000-0000-000000000001-web-0-ab"

theorem shop_live_before (route : Route) (filled : route.upstreams ≠ [])
    (containers : Except String (List (Option (List String)))) :
    Live (normalizeDomain plainLibraries route.domain) (runningShop route containers).table.view := by
  have stillFilled : (keyed plainLibraries route).upstreams ≠ [] := by
    unfold keyed
    exact filled
  refine ⟨keyed plainLibraries route, ?_, stillFilled⟩
  have view := Table.view_add_route (⟨Map.empty, 0⟩ : Table plainLibraries) route
  have atKey := congrFun view (normalizeDomain plainLibraries route.domain)
  rw [Function.update_self] at atKey
  exact atKey

def shopRefreshed (route : Route) : ContainrProxy plainLibraries :=
  ((refreshRoutesForApp plainLibraries .roundRobin "example.com" ⟨1⟩).run (serving plainLibraries)
    (fun _ _ => []) (runningShop route (.ok [some [webContainer]]))).2

/-- The refresh ends with the address of the container under the domain. -/
theorem shop_refreshed {route : Route}
    (answered : ((shopRefreshed route).table.getRoute shopDomain).map Route.upstreams =
      some [⟨"10.0.0.7", 80⟩]) :
    Runs (serving plainLibraries).can
      (refreshRoutesForApp plainLibraries .roundRobin "example.com" ⟨1⟩)
      (runningShop route (.ok [some [webContainer]])) () (shopRefreshed route) ∧
    Live (normalizeDomain plainLibraries shopDomain) (shopRefreshed route).table.view := by
  constructor
  · exact runs_run (serving plainLibraries) (fun _ _ => []) (by simp [serving]) _ _
  · rcases Option.map_eq_some_iff.mp answered with ⟨route, found, upstreams⟩
    exact ⟨route, found, by simp [upstreams]⟩

/-- While docker is down, nothing happens to the domain. A route that is not tagged with the app
is replaced in place. -/
theorem demo_refresh_keeps_live :
    LiveThroughout (runningShop (demoRoute shopDomain false) (.error "docker is down")) .roundRobin
      "example.com" ⟨1⟩ shopDomain ∧
    LiveThroughout (runningShop (foreignRoute shopDomain) (.ok [some [webContainer]])) .roundRobin
      "example.com" ⟨1⟩ shopDomain := by
  constructor
  · have run := runs_run (serving plainLibraries) (fun _ _ => []) (by simp [serving])
      (refreshRoutesForApp plainLibraries .roundRobin "example.com" ⟨1⟩)
      (runningShop (demoRoute shopDomain false) (.error "docker is down"))
    have live := shop_live_before (demoRoute shopDomain false) (List.cons_ne_nil _ _)
      (.error "docker is down")
    apply (refresh_keeps_live_iff plainLibraries _ _ .roundRobin "example.com" ⟨1⟩ shopDomain run
      live live).mpr
    exact ⟨Set.notMem_empty _, fun route member => by cases member⟩
  · obtain ⟨run, after⟩ := @shop_refreshed (foreignRoute shopDomain) (by decide +kernel)
    apply (refresh_keeps_live_iff plainLibraries _ _ .roundRobin "example.com" ⟨1⟩ shopDomain run
      (shop_live_before (foreignRoute shopDomain) (List.cons_ne_nil _ _) _) after).mpr
    refine ⟨foreign_not_removed (by decide +kernel) (by decide +kernel), ?_⟩
    decide +kernel

/-- The domain of a running service is live before and after, but not throughout. -/
theorem refresh_takes_domain_offline : ∃ final : ContainrProxy plainLibraries,
    Runs (serving plainLibraries).can
      (refreshRoutesForApp plainLibraries .roundRobin "example.com" ⟨1⟩)
      (runningShop (demoRoute shopDomain false) (.ok [some [webContainer]])) () final ∧
    Live (normalizeDomain plainLibraries shopDomain)
      (runningShop (demoRoute shopDomain false) (.ok [some [webContainer]])).table.view ∧
    Live (normalizeDomain plainLibraries shopDomain) final.table.view ∧
    ¬LiveThroughout (runningShop (demoRoute shopDomain false) (.ok [some [webContainer]])) .roundRobin
      "example.com" ⟨1⟩ shopDomain := by
  obtain ⟨run, after⟩ := @shop_refreshed (demoRoute shopDomain false) (by decide +kernel)
  have before := shop_live_before (demoRoute shopDomain false) (List.cons_ne_nil _ _)
    (.ok [some [webContainer]])
  refine ⟨_, run, before, after, ?_⟩
  intro live
  have stays := stays_filled_of_always_live run after live.always
  apply stays.kept
  exact Or.inl (Or.inl ⟨shopDomain, keyed plainLibraries (demoRoute shopDomain false),
    by decide +kernel, by decide, by decide +kernel⟩)

end Containr.Proxy
