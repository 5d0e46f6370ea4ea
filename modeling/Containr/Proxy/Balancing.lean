import Containr.Proxy.Admission
import Mathlib.Data.List.Perm.Subperm
import Mathlib.Logic.Relation

/-!
# How the requests are spread over the upstreams

The counters stand here as in memory: every route state there has been has a position, a
selection keeps the position it was made on, and its completion counts there, whether or not
a domain still leads to it. Each call is one step.
-/

namespace Containr.Proxy.Balanced

open Containr.Effect

/-- What load balancing uses of a `RouteState`; the cache is left out. -/
structure RouteState where
  route : Route
  inflight : List Nat
  rrCursor : Nat
deriving DecidableEq, Repr

structure SelectedUpstream where
  state : Nat
  index : Nat
deriving DecidableEq, Repr

structure RouteManager where
  states : List RouteState
  routes : Map String Nat
deriving DecidableEq

variable (lib : Libraries)

namespace RouteState

def fresh (route : Route) : RouteState := ⟨route, route.upstreams.map fun _ => 0, 0⟩

def chosenIndex (state : RouteState) : Nat :=
  match state.route.algorithm with
  | .roundRobin => state.rrCursor % state.route.upstreams.length
  | .leastConnections => Table.leastIndex state.inflight

/-- The two `fetch_add`. -/
def select (state : RouteState) : RouteState :=
  { state with
    rrCursor := match state.route.algorithm with
      | .roundRobin => (state.rrCursor + 1) % 2 ^ 64
      | .leastConnections => state.rrCursor
    inflight := state.inflight.modify state.chosenIndex fun count => (count + 1) % 2 ^ 64 }

/-- `checked_sub(1)`: a counter at zero stays there. -/
def complete (state : RouteState) (index : Nat) : RouteState :=
  { state with inflight := state.inflight.modify index fun count => count - 1 }

end RouteState

namespace RouteManager

def new : RouteManager := ⟨[], Map.empty⟩

def addRoute (manager : RouteManager) (route : Route) : RouteManager where
  states := manager.states ++
    [.fresh { route with domain := normalizeDomain lib route.domain }]
  routes := manager.routes.insert (normalizeDomain lib route.domain) manager.states.length

def removeRoute (manager : RouteManager) (domain : String) : RouteManager :=
  { manager with routes := manager.routes.remove (normalizeDomain lib domain) }

def find (manager : RouteManager) (domain : String) : Option (Nat × RouteState) := do
  let position ← manager.routes.get (normalizeDomain lib domain)
  let state ← manager.states[position]?
  some (position, state)

def selectUpstream (manager : RouteManager) (domain : String) :
    Option SelectedUpstream × RouteManager :=
  match manager.find lib domain with
  | none => (none, manager)
  | some (position, state) =>
      if state.route.upstreams.isEmpty then (none, manager)
      else (some ⟨position, state.chosenIndex⟩,
        { manager with states := manager.states.set position state.select })

/-- `SelectedUpstream::complete`. -/
def complete (manager : RouteManager) (selected : SelectedUpstream) : RouteManager :=
  { manager with
    states := manager.states.modify selected.state fun state => state.complete selected.index }

end RouteManager

/-- The routes, and the selections in their order with whether they were completed. -/
structure Session where
  manager : RouteManager
  selections : List (SelectedUpstream × Bool)

def Session.new : Session := ⟨.new, []⟩

/-- One call. A selection is completed at most once. -/
inductive Step : Session → Session → Prop
  | addRoute (session : Session) (route : Route) :
      Step session { session with manager := session.manager.addRoute lib route }
  | removeRoute (session : Session) (domain : String) :
      Step session { session with manager := session.manager.removeRoute lib domain }
  | select (session : Session) (domain : String) :
      Step session ⟨(session.manager.selectUpstream lib domain).2,
        session.selections ++
          (session.manager.selectUpstream lib domain).1.toList.map fun selected => (selected, false)⟩
  | complete (manager : RouteManager) (earlier later : List (SelectedUpstream × Bool))
      (selected : SelectedUpstream) :
      Step ⟨manager, earlier ++ (selected, false) :: later⟩
        ⟨manager.complete selected, earlier ++ (selected, true) :: later⟩

abbrev Reachable (session : Session) : Prop :=
  Relation.ReflTransGen (Step lib) Session.new session

namespace Session

def selected (session : Session) (state index : Nat) : Nat :=
  (session.selections.map Prod.fst).count ⟨state, index⟩

def completed (session : Session) (state index : Nat) : Nat :=
  session.selections.count (⟨state, index⟩, true)

def outstanding (session : Session) (state index : Nat) : Nat :=
  session.selections.count (⟨state, index⟩, false)

/-- The upstreams that were selected on a route version, in order. -/
def picks (session : Session) (state : Nat) : List Nat :=
  (session.selections.filter fun entry => entry.1.state = state).map fun entry => entry.1.index

theorem selected_eq (session : Session) (state index : Nat) :
    session.selected state index = session.completed state index + session.outstanding state index := by
  unfold selected completed outstanding
  induction session.selections with
  | nil => rfl
  | cons entry rest ih =>
      obtain ⟨upstream, isDone⟩ := entry
      rw [List.map_cons, List.count_cons, List.count_cons, List.count_cons, ih]
      cases isDone with
      | true => simp; omega
      | false => simp; omega

end Session

/-- A counter has room for every selection of its upstream that is not completed. -/
def Within (session : Session) : Prop :=
  ∀ state index, session.outstanding state index < 2 ^ 64

/-- A run in which that holds after every call. -/
abbrev ReachableWithin (session : Session) : Prop :=
  Relation.ReflTransGen (fun before after => Step lib before after ∧ Within after) Session.new
    session

section Least

structure IsLeast (counts : List Nat) (index : Nat) (value : Nat) : Prop where
  there : counts[index]? = some value
  least : ∀ other count : Nat, counts[other]? = some count → value ≤ count
  first : ∀ other count : Nat, counts[other]? = some count → other < index → value < count

theorem least_step {counts : List Nat} {value index next : Nat}
    (isLeast : IsLeast counts index value) :
    (Table.leastStep (counts.length, value, index) next).1 = (counts ++ [next]).length ∧
      IsLeast (counts ++ [next]) (Table.leastStep (counts.length, value, index) next).2.2
        (Table.leastStep (counts.length, value, index) next).2.1 := by
  have last : (counts ++ [next])[counts.length]? = some next := by simp
  have known : ∀ {other count : Nat}, (counts ++ [next])[other]? = some count →
      counts[other]? = some count ∨ other = counts.length ∧ count = next := by
    intro other count found
    by_cases inside : other < counts.length
    · left
      rwa [List.getElem?_append_left inside] at found
    · right
      have bound := (List.getElem?_eq_some_iff.mp found).1
      rw [List.length_append, List.length_singleton] at bound
      have same : other = counts.length := by omega
      rw [same, last] at found
      exact ⟨same, (Option.some.inj found).symm⟩
  have inside : index < counts.length := (List.getElem?_eq_some_iff.mp isLeast.there).1
  unfold Table.leastStep
  by_cases lower : next < value
  · rw [if_pos lower]
    refine ⟨by simp, last, ?_, ?_⟩
    · intro other count found
      rcases known found with earlier | ⟨-, same⟩
      · have above := isLeast.least other count earlier
        dsimp only
        omega
      · exact Nat.le_of_eq same.symm
    · intro other count found before
      rcases known found with earlier | ⟨same, -⟩
      · have above := isLeast.least other count earlier
        dsimp only
        omega
      · exact absurd same (Nat.ne_of_lt before)
  · rw [if_neg lower]
    refine ⟨by simp, ?_, ?_, ?_⟩
    · rw [List.getElem?_append_left inside]
      exact isLeast.there
    · intro other count found
      rcases known found with earlier | ⟨-, same⟩
      · exact isLeast.least other count earlier
      · dsimp only
        omega
    · intro other count found before
      rcases known found with earlier | ⟨same, -⟩
      · exact isLeast.first other count earlier before
      · dsimp only at before
        omega

theorem least_index_first {counts : List Nat} (nonempty : counts ≠ []) :
    ∃ value, IsLeast counts (Table.leastIndex counts) value := by
  have folded (rest done : List Nat) (value index : Nat) (isLeast : IsLeast done index value) :
      ∃ least, IsLeast (done ++ rest)
        (rest.foldl Table.leastStep (done.length, value, index)).2.2 least := by
    induction rest generalizing done value index with
    | nil => exact ⟨value, by simpa using isLeast⟩
    | cons next rest ih =>
        obtain ⟨length, stepped⟩ := least_step isLeast
        obtain ⟨least, whole⟩ := ih (done ++ [next]) _ _ stepped
        refine ⟨least, ?_⟩
        rw [List.foldl_cons]
        rw [← length, List.append_assoc] at whole
        exact whole
  cases counts with
  | nil => exact absurd rfl nonempty
  | cons first rest =>
      have alone : IsLeast [first] 0 first := by
        refine ⟨rfl, ?_, ?_⟩
        · intro other count found
          have zero : other = 0 := by
            have bound := (List.getElem?_eq_some_iff.mp found).1
            rw [List.length_singleton] at bound
            omega
          rw [zero] at found
          exact Nat.le_of_eq (Option.some.inj found)
        · intro other count _ before
          exact absurd before (Nat.not_lt_zero other)
      exact folded rest [first] first 0 alone

end Least

variable {lib}

/-- A selection finds no upstream, or moves the counters of the state its domain leads to. -/
theorem select_cases (manager : RouteManager) (domain : String) :
    manager.selectUpstream lib domain = (none, manager) ∨
      ∃ position state, manager.states[position]? = some state ∧ state.route.upstreams ≠ [] ∧
        manager.selectUpstream lib domain = (some ⟨position, state.chosenIndex⟩,
          { manager with states := manager.states.set position state.select }) := by
  unfold RouteManager.selectUpstream
  cases found : manager.find lib domain with
  | none => exact .inl rfl
  | some entry =>
      obtain ⟨position, state⟩ := entry
      have present : manager.states[position]? = some state := by
        simp only [RouteManager.find, Option.bind_eq_bind, Option.bind_eq_some_iff] at found
        obtain ⟨other, -, third, isState, same⟩ := found
        cases same
        exact isState
      by_cases empty : state.route.upstreams.isEmpty = true
      · left
        simp [empty]
      · right
        exact ⟨position, state, present, by simpa using empty, by simp [empty]⟩

structure Accounted (session : Session) : Prop where
  present : ∀ entry ∈ session.selections, ∃ state,
    session.manager.states[entry.1.state]? = some state ∧
      entry.1.index < state.route.upstreams.length
  counted : ∀ position state, session.manager.states[position]? = some state →
    state.inflight = (List.range state.route.upstreams.length).map (session.outstanding position)
  rotated : ∀ position state, session.manager.states[position]? = some state →
    state.route.algorithm = .roundRobin →
      state.rrCursor = (session.picks position).length % 2 ^ 64 ∧
        session.picks position = (List.range (session.picks position).length).map fun count =>
          count % 2 ^ 64 % state.route.upstreams.length

section Counting

variable {before after : Session} {earlier later : List (SelectedUpstream × Bool)}
  {chosen : SelectedUpstream}

theorem outstanding_select (made : after.selections = before.selections ++ [(chosen, false)])
    (position index : Nat) : after.outstanding position index =
      before.outstanding position index + if chosen = ⟨position, index⟩ then 1 else 0 := by
  unfold Session.outstanding
  rw [made, List.count_append, List.count_singleton]
  by_cases same : chosen = ⟨position, index⟩
  · simp [same]
  · simp [same]

theorem picks_select (made : after.selections = before.selections ++ [(chosen, false)])
    (position : Nat) : after.picks position =
      before.picks position ++ if chosen.state = position then [chosen.index] else [] := by
  unfold Session.picks
  rw [made, List.filter_append, List.map_append]
  by_cases same : chosen.state = position
  · simp [same]
  · simp [same]

theorem outstanding_complete (waiting : before.selections = earlier ++ (chosen, false) :: later)
    (done : after.selections = earlier ++ (chosen, true) :: later) (position index : Nat) :
    before.outstanding position index =
      after.outstanding position index + if chosen = ⟨position, index⟩ then 1 else 0 := by
  unfold Session.outstanding
  rw [waiting, done, List.count_append, List.count_cons, List.count_append, List.count_cons]
  by_cases same : chosen = ⟨position, index⟩
  · simp [same]
    omega
  · simp [same]

theorem picks_complete (waiting : before.selections = earlier ++ (chosen, false) :: later)
    (done : after.selections = earlier ++ (chosen, true) :: later) (position : Nat) :
    after.picks position = before.picks position := by
  unfold Session.picks
  rw [waiting, done, List.filter_append, List.filter_append, List.map_append, List.map_append]
  by_cases same : chosen.state = position
  · simp [same]
  · simp [same]

end Counting

theorem chosen_index_lt {state : RouteState} (nonempty : state.route.upstreams ≠ [])
    (counted : state.inflight.length = state.route.upstreams.length) :
    state.chosenIndex < state.route.upstreams.length := by
  have positive := List.length_pos_iff.mpr nonempty
  unfold RouteState.chosenIndex
  cases state.route.algorithm with
  | roundRobin => exact Nat.mod_lt _ positive
  | leastConnections =>
      have filled : state.inflight ≠ [] := by
        rw [← List.length_pos_iff, counted]
        exact positive
      obtain ⟨value, isLeast⟩ := least_index_first filled
      rw [← counted]
      exact (List.getElem?_eq_some_iff.mp isLeast.there).1

theorem modify_range {count index : Nat} {values after : Nat → Nat} {change : Nat → Nat}
    (changed : after index = change (values index))
    (others : ∀ other, other ≠ index → after other = values other) :
    ((List.range count).map values).modify index change = (List.range count).map after := by
  apply List.ext_getElem?
  intro other
  rw [List.getElem?_modify, List.getElem?_map, List.getElem?_map]
  by_cases inside : other < count
  · rw [List.getElem?_range inside]
    by_cases same : index = other
    · rw [← same]
      simp [changed]
    · simp [same, others other (Ne.symm same)]
  · have outside : (List.range count)[other]? = none :=
      List.getElem?_eq_none (by simpa using inside)
    rw [outside]
    rfl

section Steps

variable {session : Session}

theorem add_route_accounted (accounted : Accounted session) (route : Route) :
    Accounted { session with manager := session.manager.addRoute lib route } := by
  have unselected : ∀ entry ∈ session.selections, entry.1.state ≠ session.manager.states.length := by
    intro entry member same
    obtain ⟨state, found, -⟩ := accounted.present entry member
    rw [same, List.getElem?_eq_none (Nat.le_refl _)] at found
    cases found
  have known : ∀ position state,
      (session.manager.addRoute lib route).states[position]? = some state →
        session.manager.states[position]? = some state ∨
          position = session.manager.states.length ∧
            state = .fresh { route with domain := normalizeDomain lib route.domain } := by
    intro position state found
    unfold RouteManager.addRoute at found
    by_cases inside : position < session.manager.states.length
    · rw [List.getElem?_append_left inside] at found
      exact .inl found
    · have bound := (List.getElem?_eq_some_iff.mp found).1
      rw [List.length_append, List.length_singleton] at bound
      have last : position = session.manager.states.length := by omega
      rw [last, List.getElem?_append_right (Nat.le_refl _), Nat.sub_self] at found
      exact .inr ⟨last, (Option.some.inj found).symm⟩
  have noPicks : session.picks session.manager.states.length = [] := by
    unfold Session.picks
    rw [List.map_eq_nil_iff, List.filter_eq_nil_iff]
    intro entry member
    simpa using unselected entry member
  constructor
  · intro entry member
    obtain ⟨state, found, inside⟩ := accounted.present entry member
    refine ⟨state, ?_, inside⟩
    have bound := (List.getElem?_eq_some_iff.mp found).1
    unfold RouteManager.addRoute
    rw [List.getElem?_append_left bound]
    exact found
  · intro position state found
    rcases known position state found with earlier | ⟨last, isFresh⟩
    · exact accounted.counted position state earlier
    · have none : ∀ index, session.outstanding session.manager.states.length index = 0 := by
        intro index
        apply List.count_eq_zero.mpr
        intro member
        exact unselected _ member rfl
      rw [last, isFresh]
      unfold RouteState.fresh
      dsimp only
      apply List.ext_getElem
      · simp
      · intro index _ _
        simp only [List.getElem_map, List.getElem_range]
        exact (none index).symm
  · intro position state found isRoundRobin
    rcases known position state found with earlier | ⟨last, isFresh⟩
    · exact accounted.rotated position state earlier isRoundRobin
    · have empty : Session.picks { session with manager := session.manager.addRoute lib route }
          session.manager.states.length = [] := noPicks
      rw [last, isFresh, empty]
      exact ⟨rfl, rfl⟩

theorem selected_accounted {after : Session} (accounted : Accounted session) {position : Nat}
    {state : RouteState} (found : session.manager.states[position]? = some state)
    (nonempty : state.route.upstreams ≠ [])
    (moved : after.manager.states = session.manager.states.set position state.select)
    (made : after.selections = session.selections ++ [(⟨position, state.chosenIndex⟩, false)])
    (within : Within after) : Accounted after := by
  have counted := accounted.counted position state found
  have length : state.inflight.length = state.route.upstreams.length := by simp [counted]
  have inside := chosen_index_lt nonempty length
  have here : after.manager.states[position]? = some state.select := by
    rw [moved]
    exact List.getElem?_set_self (List.getElem?_eq_some_iff.mp found).1
  have elsewhere : ∀ other, other ≠ position →
      after.manager.states[other]? = session.manager.states[other]? := by
    intro other different
    rw [moved]
    exact List.getElem?_set_ne (Ne.symm different)
  constructor
  · intro entry member
    rw [made] at member
    rcases List.mem_append.mp member with old | new
    · obtain ⟨owner, isOwner, bound⟩ := accounted.present entry old
      by_cases same : entry.1.state = position
      · rw [same, found] at isOwner
        rw [← Option.some.inj isOwner] at bound
        rw [same]
        exact ⟨state.select, here, bound⟩
      · rw [elsewhere entry.1.state same]
        exact ⟨owner, isOwner, bound⟩
    · have isNew : entry = (⟨position, state.chosenIndex⟩, false) := by simpa using new
      rw [isNew]
      exact ⟨state.select, here, inside⟩
  · intro other next isNext
    by_cases same : other = position
    · rw [same, here] at isNext
      rw [same, ← Option.some.inj isNext]
      have one := outstanding_select made position state.chosenIndex
      rw [if_pos rfl] at one
      have room := within position state.chosenIndex
      have changed : after.outstanding position state.chosenIndex =
          (session.outstanding position state.chosenIndex + 1) % 2 ^ 64 := by
        rw [← one, Nat.mod_eq_of_lt room]
      unfold RouteState.select
      dsimp only
      rw [counted]
      apply modify_range changed
      intro index different
      rw [outstanding_select made, if_neg (by simpa using Ne.symm different), Nat.add_zero]
    · rw [elsewhere other same] at isNext
      have unchanged : after.outstanding other = session.outstanding other := by
        funext index
        rw [outstanding_select made, if_neg (by simp [Ne.symm same]), Nat.add_zero]
      rw [unchanged]
      exact accounted.counted other next isNext
  · intro other next isNext isRoundRobin
    by_cases same : other = position
    · rw [same, here] at isNext
      rw [← Option.some.inj isNext] at isRoundRobin ⊢
      have plain : state.route.algorithm = .roundRobin := isRoundRobin
      obtain ⟨cursor, all⟩ := accounted.rotated position state found plain
      have chosen : state.chosenIndex =
          (session.picks position).length % 2 ^ 64 % state.route.upstreams.length := by
        unfold RouteState.chosenIndex
        rw [plain]
        dsimp only
        rw [cursor]
      have longer : after.picks position = session.picks position ++ [state.chosenIndex] := by
        rw [picks_select made, if_pos rfl]
      have count : (after.picks position).length = (session.picks position).length + 1 := by
        rw [longer, List.length_append, List.length_singleton]
      rw [same, count]
      constructor
      · unfold RouteState.select
        rw [plain]
        dsimp only
        rw [cursor, Nat.mod_add_mod]
      · rw [longer, List.range_succ, List.map_append, List.map_singleton, chosen]
        exact congrArg (· ++ _) all
    · rw [elsewhere other same] at isNext
      have unchanged : after.picks other = session.picks other := by
        rw [picks_select made, if_neg (Ne.symm same), List.append_nil]
      rw [unchanged]
      exact accounted.rotated other next isNext isRoundRobin

theorem completed_accounted {after : Session} (accounted : Accounted session)
    {earlier later : List (SelectedUpstream × Bool)} {chosen : SelectedUpstream}
    (moved : after.manager = session.manager.complete chosen)
    (waiting : session.selections = earlier ++ (chosen, false) :: later)
    (done : after.selections = earlier ++ (chosen, true) :: later) : Accounted after := by
  have states : ∀ position, after.manager.states[position]? =
      (session.manager.states[position]?).map fun state =>
        if chosen.state = position then state.complete chosen.index else state := by
    intro position
    rw [moved]
    unfold RouteManager.complete
    rw [List.getElem?_modify]
    rfl
  have known : ∀ position next, after.manager.states[position]? = some next →
      ∃ state, session.manager.states[position]? = some state ∧ next.route = state.route ∧
        next.rrCursor = state.rrCursor ∧
        next.inflight = if chosen.state = position
          then state.inflight.modify chosen.index fun count => count - 1 else state.inflight := by
    intro position next isNext
    rw [states position] at isNext
    obtain ⟨state, found, isAfter⟩ := Option.map_eq_some_iff.mp isNext
    refine ⟨state, found, ?_⟩
    rw [← isAfter]
    split_ifs
    · exact ⟨rfl, rfl, rfl⟩
    · exact ⟨rfl, rfl, rfl⟩
  constructor
  · intro entry member
    have old : ∃ flag, (entry.1, flag) ∈ session.selections := by
      rw [done] at member
      rw [waiting]
      rcases List.mem_append.mp member with before | rest
      · exact ⟨entry.2, List.mem_append_left _ before⟩
      · rcases List.mem_cons.mp rest with same | behind
        · rw [same]
          exact ⟨false, List.mem_append_right _ List.mem_cons_self⟩
        · exact ⟨entry.2, List.mem_append_right _ (List.mem_cons_of_mem _ behind)⟩
    obtain ⟨flag, inOld⟩ := old
    obtain ⟨owner, isOwner, bound⟩ := accounted.present _ inOld
    have isAfter := states entry.1.state
    rw [isOwner, Option.map_some] at isAfter
    refine ⟨_, isAfter, ?_⟩
    split_ifs
    · exact bound
    · exact bound
  · intro position next isNext
    obtain ⟨state, found, route, -, inflight⟩ := known position next isNext
    rw [inflight, route, accounted.counted position state found]
    by_cases same : chosen.state = position
    · rw [if_pos same]
      have less := outstanding_complete waiting done position
      apply modify_range
      · rw [less chosen.index, if_pos (by rw [← same])]
        rfl
      · intro index different
        rw [less index, if_neg, Nat.add_zero]
        intro isChosen
        rw [isChosen] at different
        exact different rfl
    · rw [if_neg same]
      have unchanged : after.outstanding position = session.outstanding position := by
        funext index
        rw [outstanding_complete waiting done position index, if_neg, Nat.add_zero]
        intro isChosen
        rw [isChosen] at same
        exact same rfl
      rw [unchanged]
  · intro position next isNext isRoundRobin
    obtain ⟨state, found, route, cursor, -⟩ := known position next isNext
    rw [route] at isRoundRobin
    rw [cursor, route, picks_complete waiting done]
    exact accounted.rotated position state found isRoundRobin

theorem step_accounted {after : Session} (step : Step lib session after) (within : Within after)
    (accounted : Accounted session) : Accounted after := by
  cases step with
  | addRoute _ route => exact add_route_accounted accounted route
  | removeRoute _ domain => exact ⟨accounted.present, accounted.counted, accounted.rotated⟩
  | select _ domain =>
      rcases @select_cases lib session.manager domain with
        missed | ⟨position, state, found, nonempty, moved⟩
      · rw [missed]
        simpa using accounted
      · apply selected_accounted accounted found nonempty _ _ within
        · rw [moved]
        · rw [moved]
          rfl
  | complete manager earlier later chosen => exact completed_accounted accounted rfl rfl rfl

theorem reachable_accounted (reached : ReachableWithin lib session) : Accounted session := by
  induction reached with
  | refl =>
      constructor
      · exact fun _ member => absurd member List.not_mem_nil
      · exact fun _ _ found => absurd found (by simp [Session.new, RouteManager.new])
      · exact fun _ _ found => absurd found (by simp [Session.new, RouteManager.new])
  | tail _ step ih => exact step_accounted step.1 step.2 ih

end Steps

variable (lib)

/-- What load balancing promises of a session. -/
structure Fair (session : Session) : Prop where
  /-- The counters are selections less completions. -/
  counters : ∀ position state index, session.manager.states[position]? = some state →
    index < state.route.upstreams.length →
      session.completed position index ≤ session.selected position index ∧
      state.inflight[index]? =
        some (session.selected position index - session.completed position index)
  /-- A completion finds its counter above zero. -/
  positive : ∀ chosen, (chosen, false) ∈ session.selections → ∃ state count,
    session.manager.states[chosen.state]? = some state ∧
      state.inflight[chosen.index]? = some (count + 1)
  least : ∀ domain chosen state,
    (session.manager.selectUpstream lib domain).1 = some chosen →
      session.manager.states[chosen.state]? = some state →
      state.route.algorithm = .leastConnections →
        chosen.index < state.route.upstreams.length ∧
        ∀ other, other < state.route.upstreams.length →
          session.outstanding chosen.state chosen.index ≤ session.outstanding chosen.state other ∧
          (other < chosen.index →
            session.outstanding chosen.state chosen.index < session.outstanding chosen.state other)
  /-- As many selections in a row as there are upstreams, the cursor not wrapping. -/
  rotation : ∀ position state start, session.manager.states[position]? = some state →
    state.route.algorithm = .roundRobin →
      start + state.route.upstreams.length ≤ (session.picks position).length →
      start % 2 ^ 64 + state.route.upstreams.length ≤ 2 ^ 64 →
        (((session.picks position).drop start).take state.route.upstreams.length).Perm
          (List.range state.route.upstreams.length)

variable {lib}

/-- Consecutive numbers are distinct modulo how many there are. -/
theorem window_perm (start count : Nat) :
    ((List.range count).map fun offset => (start + offset) % count).Perm (List.range count) := by
  have distinct : ((List.range count).map fun offset => (start + offset) % count).Nodup := by
    apply List.Nodup.map_on _ List.nodup_range
    intro one isOne other isOther same
    rw [List.mem_range] at isOne isOther
    have above := Nat.sub_mod_eq_zero_of_mod_eq same
    have below := Nat.sub_mod_eq_zero_of_mod_eq same.symm
    rw [Nat.mod_eq_of_lt (by omega)] at above below
    omega
  apply List.Subperm.perm_of_length_le
  · apply distinct.subperm
    intro index member
    obtain ⟨offset, isOffset, rfl⟩ := List.mem_map.mp member
    rw [List.mem_range] at isOffset ⊢
    exact Nat.mod_lt _ (by omega)
  · simp

/-- Counting up from a start that does not reach the wrap. -/
theorem cursor_plain {start offset count : Nat} (before : offset < count)
    (room : start % 2 ^ 64 + count ≤ 2 ^ 64) : (start + offset) % 2 ^ 64 = start % 2 ^ 64 + offset := by
  have split : (start + offset) % 2 ^ 64 = (start % 2 ^ 64 + offset) % 2 ^ 64 := by
    rw [Nat.mod_add_mod]
  rw [split]
  exact Nat.mod_eq_of_lt (by omega)

theorem accounted_fair {session : Session} (accounted : Accounted session) :
    Fair lib session := by
  have counter : ∀ position state index, session.manager.states[position]? = some state →
      index < state.route.upstreams.length →
        state.inflight[index]? = some (session.outstanding position index) := by
    intro position state index found inside
    rw [accounted.counted position state found, List.getElem?_map, List.getElem?_range inside]
    rfl
  constructor
  · intro position state index found inside
    have split := session.selected_eq position index
    have left : session.selected position index - session.completed position index =
        session.outstanding position index := by omega
    rw [left]
    exact ⟨by omega, counter position state index found inside⟩
  · intro chosen waiting
    obtain ⟨state, found, inside⟩ := accounted.present _ waiting
    have some_ : 0 < session.outstanding chosen.state chosen.index := List.count_pos_iff.mpr waiting
    refine ⟨state, session.outstanding chosen.state chosen.index - 1, found, ?_⟩
    rw [counter chosen.state state chosen.index found inside, Nat.sub_add_cancel some_]
  · intro domain chosen state made found isLeast
    rcases @select_cases lib session.manager domain with
      missed | ⟨position, owner, isOwner, nonempty, moved⟩
    · rw [missed] at made
      cases made
    · rw [moved] at made
      rw [← Option.some.inj made] at found ⊢
      have same : owner = state := Option.some.inj (isOwner.symm.trans found)
      rw [same] at nonempty ⊢
      have counted := accounted.counted position state found
      have filled : state.inflight ≠ [] := by
        rw [← List.length_pos_iff, counted, List.length_map, List.length_range]
        exact List.length_pos_iff.mpr nonempty
      obtain ⟨value, there, least, first⟩ := least_index_first filled
      have chosenIndex : state.chosenIndex = Table.leastIndex state.inflight := by
        unfold RouteState.chosenIndex
        rw [isLeast]
      have inside := chosen_index_lt nonempty (by simp [counted])
      have here := counter position state state.chosenIndex found inside
      rw [chosenIndex, there] at here
      dsimp only
      refine ⟨inside, ?_⟩
      intro other bound
      have there := counter position state other found bound
      rw [chosenIndex, ← Option.some.inj here]
      exact ⟨least other _ there, first other _ there⟩
  · intro position state start found isRoundRobin long room
    obtain ⟨-, all⟩ := accounted.rotated position state found isRoundRobin
    have window : ((session.picks position).drop start).take state.route.upstreams.length =
        (List.range state.route.upstreams.length).map fun offset =>
          (start % 2 ^ 64 + offset) % state.route.upstreams.length := by
      apply List.ext_getElem
      · simp
        omega
      · intro offset bound _
        have before : offset < state.route.upstreams.length := by
          rw [List.length_take] at bound
          omega
        have pick : (session.picks position)[start + offset]? =
            some ((start % 2 ^ 64 + offset) % state.route.upstreams.length) := by
          rw [all, List.getElem?_map, List.getElem?_range (by omega), Option.map_some,
            cursor_plain before room]
        rw [List.getElem_take, List.getElem_drop, List.getElem_map, List.getElem_range]
        exact (List.getElem?_eq_some_iff.mp pick).2
    rw [window]
    exact window_perm _ _

/-- In every run in which no upstream has `2 ^ 64` selections that are not completed, each
counter is the selections of its upstream less their completions, a completion never finds
it at zero, the least loaded upstream is the first of those with the fewest selections under
way, and round robin takes every upstream once in as many selections. -/
theorem reachable_fair {session : Session} (reached : ReachableWithin lib session) :
    Fair lib session := accounted_fair (reachable_accounted reached)

theorem within_of_short {session : Session} (short : session.selections.length < 2 ^ 64) :
    Within session := fun _ _ => Nat.lt_of_le_of_lt List.count_le_length short

def demoSpread (algorithm : LoadBalanceAlgorithm) (upstreams : List Upstream) : Route where
  domain := "web"
  appId := none
  serviceId := none
  upstreams := upstreams
  sslEnabled := false
  algorithm := algorithm
  basicAuth := none
  loginGate := none

def demoPair : Route := demoSpread .roundRobin [⟨"10.0.0.1", 80⟩, ⟨"10.0.0.2", 80⟩]

def demoAdded (route : Route) : Session :=
  ⟨RouteManager.new.addRoute plainLibraries route, []⟩

/-- Two selections, a refresh of the route, and the completion of the first one. -/
theorem refreshed_route_fair : ∃ session, ReachableWithin plainLibraries session ∧
    session.selections = [(⟨0, 0⟩, true), (⟨0, 1⟩, false)] ∧
    session.manager.states.map (·.inflight) = [[0, 1], [0, 0]] ∧ Fair plainLibraries session := by
  have added : ReachableWithin plainLibraries (demoAdded demoPair) :=
    .tail .refl ⟨.addRoute .new demoPair, within_of_short (by decide)⟩
  have first : ReachableWithin plainLibraries
      ⟨((demoAdded demoPair).manager.selectUpstream plainLibraries "web").2, [(⟨0, 0⟩, false)]⟩ :=
    .tail added ⟨.select _ "web", within_of_short (by decide +kernel)⟩
  have second : ReachableWithin plainLibraries
      ⟨(((demoAdded demoPair).manager.selectUpstream plainLibraries "web").2.selectUpstream
        plainLibraries "web").2, [(⟨0, 0⟩, false), (⟨0, 1⟩, false)]⟩ :=
    .tail first ⟨.select _ "web", within_of_short (by decide +kernel)⟩
  have refreshed := Relation.ReflTransGen.tail second
    ⟨Step.addRoute _ demoPair, within_of_short (by decide +kernel)⟩
  have done := Relation.ReflTransGen.tail refreshed
    ⟨Step.complete _ [] [(⟨0, 1⟩, false)] ⟨0, 0⟩, within_of_short (by decide +kernel)⟩
  exact ⟨_, done, rfl, by decide +kernel, reachable_fair done⟩

def demoSingle : Route := demoSpread .leastConnections [⟨"10.0.0.1", 80⟩]

/-- So many selections of the only upstream, none of them completed. -/
theorem single_selected (count : Nat) : ∃ session, Reachable plainLibraries session ∧
    session.manager.routes.get "web" = some 0 ∧
    session.manager.states = [⟨demoSingle, [count % 2 ^ 64], 0⟩] ∧
    session.selections = List.replicate count (⟨0, 0⟩, false) := by
  have plain : normalizeDomain plainLibraries "web" = "web" := by decide +kernel
  induction count with
  | zero =>
      refine ⟨demoAdded demoSingle, .tail .refl (.addRoute .new demoSingle), ?_, ?_, rfl⟩
      · decide +kernel
      · decide +kernel
  | succ count ih =>
      obtain ⟨session, reached, leads, states, selections⟩ := ih
      have found : session.manager.find plainLibraries "web" =
          some (0, ⟨demoSingle, [count % 2 ^ 64], 0⟩) := by
        unfold RouteManager.find
        rw [plain, leads, states]
        rfl
      have moved : session.manager.selectUpstream plainLibraries "web" = (some ⟨0, 0⟩,
          { session.manager with states := [⟨demoSingle, [(count + 1) % 2 ^ 64], 0⟩] }) := by
        have next : (count % 2 ^ 64 + 1) % 2 ^ 64 = (count + 1) % 2 ^ 64 := Nat.mod_add_mod _ _ _
        unfold RouteManager.selectUpstream
        rw [found, states, ← next]
        rfl
      have step := @Step.select plainLibraries session "web"
      rw [moved, selections] at step
      refine ⟨_, .tail reached step, leads, rfl, ?_⟩
      rw [List.replicate_succ']
      rfl

/-- After `2 ^ 64` selections without a completion the counter is at zero again. -/
theorem counter_wraps : ∃ session, Reachable plainLibraries session ∧
    session.selected 0 0 = 2 ^ 64 ∧ session.completed 0 0 = 0 ∧
    session.manager.states = [⟨demoSingle, [0], 0⟩] ∧ ¬Fair plainLibraries session := by
  obtain ⟨session, reached, -, states, selections⟩ := single_selected (2 ^ 64)
  have selected : session.selected 0 0 = 2 ^ 64 := by
    unfold Session.selected
    rw [selections, List.map_replicate]
    exact List.count_replicate_self
  have completed : session.completed 0 0 = 0 := by
    unfold Session.completed
    rw [selections, List.count_eq_zero]
    intro member
    exact absurd (List.eq_of_mem_replicate member) (by decide)
  have wrapped : session.manager.states = [⟨demoSingle, [0], 0⟩] := by
    rw [states, Nat.mod_self]
  refine ⟨session, reached, selected, completed, wrapped, ?_⟩
  intro fair
  have found : session.manager.states[0]? = some ⟨demoSingle, [0], 0⟩ := by
    rw [wrapped]
    rfl
  have counter := (fair.counters 0 _ 0 found (by decide)).2
  rw [selected, completed] at counter
  have zero : 0 = 2 ^ 64 - 0 := Option.some.inj counter
  omega

end Containr.Proxy.Balanced
