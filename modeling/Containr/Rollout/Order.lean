import Containr.Graph
import Containr.Rollout.Names
import Mathlib.Data.List.Count

/-!
# The order of a rollout

The loop keeps the degree of each name equal to the number of its edges from names not
yet visited. So a name is queued exactly when all its dependencies are visited, and what
is left when the queue runs dry is a set in which every name depends on another.
-/

namespace Containr.Rollout

open Containr.Graph

def DependsOn (services : List ContainerService) (dependency dependent : String) : Prop :=
  ∃ service ∈ services, service.name = dependent ∧ dependency ∈ service.dependsOn ∧
    ∃ other ∈ services, other.name = dependency

def DependenciesFirst (services sorted : List ContainerService) : Prop :=
  ∀ before service after, sorted = before ++ service :: after →
    ∀ name ∈ service.dependsOn, (∃ other ∈ services, other.name = name) →
      ∃ other ∈ before, other.name = name

theorem mem_dependency_edges {services : List ContainerService} {dependency dependent : String} :
    (dependency, dependent) ∈ dependencyEdges services ↔ DependsOn services dependency dependent := by
  simp only [dependencyEdges, DependsOn, List.mem_flatMap, List.mem_map, List.mem_filter,
    List.any_eq_true, decide_eq_true_eq, Prod.mk.injEq]
  constructor
  · rintro ⟨service, member, name, ⟨depends, other, listed, same⟩, rfl, rfl⟩
    exact ⟨service, member, rfl, depends, other, listed, same⟩
  · rintro ⟨service, member, rfl, depends, other, listed, same⟩
    exact ⟨service, member, dependency, ⟨depends, other, listed, same⟩, rfl, rfl⟩

def pending (edges : List (String × String)) (visited : List String) (name : String) : Nat :=
  (edges.filter fun edge => edge.2 = name ∧ edge.1 ∉ visited).length

theorem pending_nil (edges : List (String × String)) (name : String) :
    pending edges [] name = inDegree edges name := by
  simp [pending, inDegree]

variable {visited : List String}

theorem pending_visited (edges : List (String × String)) {visit : String} (new : visit ∉ visited)
    (name : String) : pending edges visited name =
      pending edges (visited ++ [visit]) name + (neighbors edges visit).count name := by
  induction edges with
  | nil => rfl
  | cons edge edges ih =>
      obtain ⟨source, target⟩ := edge
      simp only [pending, neighbors] at ih ⊢
      by_cases here : target = name
      · by_cases isVisit : source = visit
        · subst isVisit
          simp [here, new] at ih ⊢
          omega
        · by_cases old : source ∈ visited
          · simp [here, isVisit, old] at ih ⊢
            omega
          · simp [here, isVisit, old] at ih ⊢
            omega
      · by_cases isVisit : source = visit
        · simp [here, isVisit] at ih ⊢
          omega
        · simp [here, isVisit] at ih ⊢
          omega

variable {name : String} {edges : List (String × String)}

theorem pending_zero (none : pending edges visited name = 0) {source : String}
    (isEdge : (source, name) ∈ edges) : source ∈ visited := by
  have empty := List.eq_nil_of_length_eq_zero none
  by_contra new
  have member : (source, name) ∈ edges.filter fun edge => edge.2 = name ∧ edge.1 ∉ visited :=
    List.mem_filter.mpr ⟨isEdge, by simpa using new⟩
  rw [empty] at member
  cases member

theorem pending_pos (some : pending edges visited name ≠ 0) :
    ∃ source, (source, name) ∈ edges ∧ source ∉ visited := by
  obtain ⟨⟨source, target⟩, member⟩ := List.exists_mem_of_length_pos (Nat.pos_of_ne_zero some)
  obtain ⟨isEdge, matched⟩ := List.mem_filter.mp member
  have parts : target = name ∧ source ∉ visited := by simpa using matched
  rw [parts.1] at isEdge
  exact ⟨source, isEdge, parts.2⟩

structure Released (names : List String) (before after : Kahn) : Prop where
  degree : ∀ name, after.degree name + names.count name = before.degree name
  once : after.queue.Nodup
  queued : ∀ name, name ∈ after.queue ↔
    name ∈ before.queue ∨ (name ∈ names ∧ after.degree name = 0)

/-- `*degree -= 1`, where `none` is the underflow. -/
def releaseChecked (state : Kahn) (neighbor : String) : Option Kahn :=
  if state.degree neighbor = 0 then none else some (state.release neighbor)

theorem released (names : List String) {state : Kahn}
    (enough : ∀ name, names.count name ≤ state.degree name) (once : state.queue.Nodup)
    (drained : ∀ name ∈ state.queue, state.degree name = 0) :
    Released names state (names.foldl Kahn.release state) ∧
      names.foldlM releaseChecked state = some (names.foldl Kahn.release state) := by
  induction names generalizing state with
  | nil => exact ⟨⟨fun _ => rfl, once, fun name => by simp⟩, rfl⟩
  | cons name names ih =>
      have positive : 0 < state.degree name := by
        have bound := enough name
        rw [List.count_cons_self] at bound
        omega
      have notQueued : name ∉ state.queue := by
        intro member
        have zero := drained name member
        omega
      have lowered : ∀ other, (state.release name).degree other =
          if other = name then state.degree name - 1 else state.degree other := fun _ => rfl
      have queue : (state.release name).queue =
          if state.degree name - 1 = 0 then state.queue ++ [name] else state.queue := rfl
      have enoughNext : ∀ other, names.count other ≤ (state.release name).degree other := by
        intro other
        have bound := enough other
        rw [lowered]
        by_cases same : other = name
        · rw [if_pos same]
          rw [same, List.count_cons_self] at bound
          rw [same]
          omega
        · rw [if_neg same]
          rw [List.count_cons_of_ne (Ne.symm same)] at bound
          exact bound
      have onceNext : (state.release name).queue.Nodup := by
        rw [queue]
        split_ifs
        · exact List.nodup_append.mpr ⟨once, List.nodup_singleton name, by
            intro other member last isLast same
            rw [List.mem_singleton] at isLast
            exact notQueued (isLast ▸ same ▸ member)⟩
        · exact once
      have memQueue : ∀ other, other ∈ (state.release name).queue ↔
          other ∈ state.queue ∨ (other = name ∧ state.degree name - 1 = 0) := by
        intro other
        rw [queue]
        split_ifs with zero
        · simp [zero]
        · simp [zero]
      have drainedNext : ∀ other ∈ (state.release name).queue,
          (state.release name).degree other = 0 := by
        intro other member
        rw [lowered]
        rcases (memQueue other).mp member with old | ⟨same, zero⟩
        · have different : other ≠ name := fun same => notQueued (same ▸ old)
          rw [if_neg different]
          exact drained other old
        · rw [if_pos same]
          exact zero
      obtain ⟨rest, checked⟩ := ih enoughNext onceNext drainedNext
      refine ⟨⟨fun other => ?_, rest.once, fun other => ?_⟩, ?_⟩
      · have counted := rest.degree other
        rw [lowered] at counted
        rw [List.foldl_cons]
        by_cases same : other = name
        · rw [if_pos same] at counted
          rw [same, List.count_cons_self]
          rw [same] at counted
          omega
        · rw [if_neg same] at counted
          rw [List.count_cons_of_ne (Ne.symm same)]
          exact counted
      · have counted := rest.degree other
        rw [lowered] at counted
        rw [List.foldl_cons, rest.queued other, memQueue, List.mem_cons]
        by_cases same : other = name
        · rw [if_pos same] at counted
          by_cases later : other ∈ names
          · have some := List.count_pos_iff.mpr later
            have last : state.degree name - 1 ≠ 0 := by omega
            simp [same] at later ⊢
            simp [later, last]
          · have none := List.count_eq_zero.mpr later
            have zero : state.degree name - 1 =
                (List.foldl Kahn.release (state.release name) names).degree other := by omega
            simp [same] at later zero ⊢
            simp [later, zero]
        · simp [same]
      · rw [List.foldlM_cons, List.foldl_cons, ← checked]
        unfold releaseChecked
        rw [if_neg (Nat.pos_iff_ne_zero.mp positive)]
        rfl

def visiting (services : List ContainerService) (state : Kahn) (name : String)
    (rest : List String) : Kahn :=
  { state with
    queue := rest
    visited := state.visited ++ [name]
    sorted := state.sorted ++ (nameToService services name).toList }

def loopChecked (services : List ContainerService) : Nat → Kahn → Option Kahn
  | 0, state => some state
  | fuel + 1, state =>
      match state.queue with
      | [] => some state
      | name :: rest =>
          if name ∈ state.visited then loopChecked services fuel { state with queue := rest }
          else
            ((neighbors (dependencyEdges services) name).foldlM releaseChecked
              (visiting services state name rest)).bind (loopChecked services fuel)

structure Sorting (services : List ContainerService) (state : Kahn) : Prop where
  visits : Visited services state
  once : state.queue.Nodup
  fresh : ∀ name ∈ state.queue, name ∉ state.visited
  listed : ∀ name, name ∈ state.queue ∨ name ∈ state.visited → ∃ service ∈ services,
    service.name = name
  degree : ∀ name, state.degree name = pending (dependencyEdges services) state.visited name
  ready : ∀ service ∈ services, state.degree service.name = 0 ↔
    service.name ∈ state.queue ∨ service.name ∈ state.visited
  follows : Follows (DependsOn services) state.visited

variable {services : List ContainerService}

theorem sorting_start {ready : List String} (order : ready.Perm (readyNames services)) :
    Sorting services (Kahn.start services ready) where
  visits := ⟨List.nodup_nil, rfl⟩
  once := order.nodup_iff.mpr ((List.nodup_dedup _).filter _)
  fresh := fun _ _ => List.not_mem_nil
  listed := by
    rintro name (queued | visited)
    · have member := (List.mem_filter.mp (order.mem_iff.mp queued)).1
      obtain ⟨service, inServices, named⟩ := List.mem_map.mp (List.mem_dedup.mp member)
      exact ⟨service, inServices, named⟩
    · cases visited
  degree := fun name => (pending_nil _ name).symm
  ready := by
    intro service member
    have named : service.name ∈ (services.map (·.name)).dedup :=
      List.mem_dedup.mpr (List.mem_map_of_mem member)
    have queued : service.name ∈ ready ↔
        inDegree (dependencyEdges services) service.name = 0 := by
      rw [order.mem_iff]
      unfold readyNames
      rw [List.mem_filter]
      simp [named]
    exact ⟨fun zero => Or.inl (queued.mpr zero), fun either => either.elim queued.mp fun visited => by
      cases visited⟩
  follows := follows_nil

theorem depends_on_listed {dependency dependent : String}
    (depends : DependsOn services dependency dependent) :
    (∃ service ∈ services, service.name = dependency) ∧
      ∃ service ∈ services, service.name = dependent := by
  obtain ⟨service, member, named, -, other⟩ := depends
  exact ⟨other, service, member, named⟩

theorem mem_neighbors {neighbor : String} :
    neighbor ∈ neighbors (dependencyEdges services) name ↔ DependsOn services name neighbor := by
  rw [← mem_dependency_edges]
  unfold neighbors
  simp

section Visit

variable {state : Kahn} {name : String} {rest : List String}

theorem visit_released (inv : Sorting services state) (first : state.queue = name :: rest) :
    Released (neighbors (dependencyEdges services) name) (visiting services state name rest)
        (state.visit services name rest) ∧
      (neighbors (dependencyEdges services) name).foldlM releaseChecked
        (visiting services state name rest) = some (state.visit services name rest) := by
  have queued : name ∈ state.queue := by simp [first]
  have once := inv.once
  rw [first] at once
  apply released
  · intro other
    have moved := pending_visited (dependencyEdges services) (inv.fresh name queued) other
    have degree := inv.degree other
    have same : (visiting services state name rest).degree other = state.degree other := rfl
    omega
  · exact (List.nodup_cons.mp once).2
  · intro other member
    have inQueue : other ∈ state.queue := by simp [first, show other ∈ rest from member]
    obtain ⟨service, inServices, named⟩ := inv.listed other (Or.inl inQueue)
    rw [← named] at inQueue ⊢
    exact (inv.ready service inServices).mpr (Or.inl inQueue)

theorem sorting_visit (inv : Sorting services state) (first : state.queue = name :: rest) :
    Sorting services (state.visit services name rest) := by
  obtain ⟨released, -⟩ := visit_released inv first
  have queued : name ∈ state.queue := by simp [first]
  have new := inv.fresh name queued
  have once := inv.once
  rw [first] at once
  obtain ⟨notRest, restOnce⟩ := List.nodup_cons.mp once
  have visits := visit_visited rest new inv.visits
  have visited : (state.visit services name rest).visited = state.visited ++ [name] :=
    (release_visited _ _).1
  have zero : state.degree name = 0 := by
    obtain ⟨service, inServices, named⟩ := inv.listed name (Or.inl queued)
    rw [← named] at queued ⊢
    exact (inv.ready service inServices).mpr (Or.inl queued)
  have sources : ∀ source, DependsOn services source name → source ∈ state.visited := by
    intro source depends
    rw [inv.degree] at zero
    exact pending_zero zero (mem_dependency_edges.mpr depends)
  have degree : ∀ other, (state.visit services name rest).degree other =
      pending (dependencyEdges services) (state.visit services name rest).visited other := by
    intro other
    have counted := released.degree other
    have before : (visiting services state name rest).degree other = state.degree other := rfl
    have moved := pending_visited (dependencyEdges services) new other
    rw [before, inv.degree, moved] at counted
    rw [visited]
    omega
  have kept : ∀ other, other ∈ rest → other ∈ state.queue := by
    intro other member
    simp [first, member]
  -- a released name had a pending edge until now
  have notYet : ∀ other, other ∈ neighbors (dependencyEdges services) name →
      other ∉ state.queue ∧ other ∉ state.visited := by
    intro other member
    have counted := released.degree other
    have positive := List.count_pos_iff.mpr member
    have before : (visiting services state name rest).degree other = state.degree other := rfl
    obtain ⟨-, service, inServices, named⟩ := depends_on_listed (mem_neighbors.mp member)
    have ready := inv.ready service inServices
    rw [named] at ready
    have some : ¬state.degree other = 0 := by omega
    rw [ready, not_or] at some
    exact some
  constructor
  · exact visits
  · exact released.once
  · intro other member
    rw [visited, List.mem_append, List.mem_singleton, not_or]
    rcases (released.queued other).mp member with old | ⟨neighbor, -⟩
    · exact ⟨inv.fresh other (kept other old), fun same => notRest (same ▸ old)⟩
    · have absent := notYet other neighbor
      exact ⟨absent.2, fun same => absent.1 (same ▸ queued)⟩
  · rintro other (member | member)
    · rcases (released.queued other).mp member with old | ⟨neighbor, -⟩
      · exact inv.listed other (Or.inl (kept other old))
      · exact (depends_on_listed (mem_neighbors.mp neighbor)).2
    · rw [visited, List.mem_append, List.mem_singleton] at member
      rcases member with old | same
      · exact inv.listed other (Or.inr old)
      · rw [same]
        exact inv.listed name (Or.inl queued)
  · exact degree
  · intro service inServices
    have counted := released.degree service.name
    have before : (visiting services state name rest).degree service.name =
      state.degree service.name := rfl
    have ready := inv.ready service inServices
    rw [first, List.mem_cons] at ready
    rw [released.queued, visited, List.mem_append, List.mem_singleton]
    have restQueue : service.name ∈ (visiting services state name rest).queue ↔
      service.name ∈ rest := Iff.rfl
    rw [restQueue]
    constructor
    · intro lowered
      by_cases neighbor : service.name ∈ neighbors (dependencyEdges services) name
      · exact Or.inl (Or.inr ⟨neighbor, lowered⟩)
      · have none := List.count_eq_zero.mpr neighbor
        have zero : state.degree service.name = 0 := by omega
        rcases ready.mp zero with (same | inRest) | old
        · exact Or.inr (Or.inr same)
        · exact Or.inl (Or.inl inRest)
        · exact Or.inr (Or.inl old)
    · rintro ((inRest | ⟨-, lowered⟩) | old | same)
      · have zero := ready.mpr (Or.inl (Or.inr inRest))
        omega
      · exact lowered
      · have zero := ready.mpr (Or.inr old)
        omega
      · have zero := ready.mpr (Or.inl (Or.inl same))
        omega
  · rw [visited]
    exact inv.follows.snoc sources

end Visit

/-- With a round for every name left the loop ends with an empty queue, and no degree has
gone below zero. -/
theorem sorting_loop (fuel : Nat) {state : Kahn} (inv : Sorting services state)
    (enough : services.length ≤ state.visited.length + fuel) :
    Sorting services (Kahn.loop services fuel state) ∧ (Kahn.loop services fuel state).queue = [] ∧
      loopChecked services fuel state = some (Kahn.loop services fuel state) := by
  induction fuel generalizing state with
  | zero =>
      refine ⟨inv, ?_, rfl⟩
      -- all names are visited
      have included : state.visited ⊆ services.map (·.name) := by
        intro name visited
        obtain ⟨service, member, named⟩ := inv.listed name (Or.inr visited)
        exact List.mem_map.mpr ⟨service, member, named⟩
      have short : (services.map (·.name)).length ≤ state.visited.length := by
        rw [List.length_map]
        exact enough
      have all := (List.subperm_of_subset inv.visits.once included).perm_of_length_le short
      apply List.eq_nil_iff_forall_not_mem.mpr
      intro name queued
      obtain ⟨service, member, named⟩ := inv.listed name (Or.inl queued)
      exact inv.fresh name queued (all.mem_iff.mpr (List.mem_map.mpr ⟨service, member, named⟩))
  | succ fuel ih =>
      cases first : state.queue with
      | nil =>
          unfold Kahn.loop loopChecked
          rw [first]
          exact ⟨inv, first, rfl⟩
      | cons name rest =>
          have new : name ∉ state.visited := inv.fresh name (by simp [first])
          have visited : (state.visit services name rest).visited = state.visited ++ [name] :=
            (release_visited _ _).1
          have enoughNext : services.length ≤
              (state.visit services name rest).visited.length + fuel := by
            rw [visited, List.length_append, List.length_singleton]
            omega
          have next := ih (sorting_visit inv first) enoughNext
          unfold Kahn.loop loopChecked
          rw [first]
          dsimp only
          rw [if_neg new, if_neg new, (visit_released inv first).2]
          exact next

section Sorted

variable {state : Kahn}

theorem name_to_service_some {name : String} (listed : ∃ service ∈ services, service.name = name) :
    ∃ service, nameToService services name = some service := by
  obtain ⟨service, member, named⟩ := listed
  apply Option.isSome_iff_exists.mp
  unfold nameToService
  rw [List.find?_isSome]
  exact ⟨service, List.mem_reverse.mpr member, by simpa using named⟩

theorem sorted_names (inv : Sorting services state) :
    state.sorted.map (·.name) = state.visited := by
  rw [inv.visits.sorted]
  have listed : ∀ name ∈ state.visited, ∃ service ∈ services, service.name = name :=
    fun name visited => inv.listed name (Or.inr visited)
  generalize state.visited = names at listed
  induction names with
  | nil => rfl
  | cons name names ih =>
      obtain ⟨service, found⟩ := name_to_service_some (listed name List.mem_cons_self)
      rw [List.filterMap_cons_some found, List.map_cons, (name_to_service_mem found).2,
        ih fun other member => listed other (List.mem_cons_of_mem _ member)]

/-- What is not visited when the queue is empty depends on something not visited. -/
theorem all_visited (inv : Sorting services state) (drained : state.queue = [])
    (acyclic : Acyclic (DependsOn services)) :
    ∀ service ∈ services, service.name ∈ state.visited := by
  by_contra some
  obtain ⟨service, remains⟩ := not_forall.mp some
  obtain ⟨member, left⟩ := Classical.not_imp.mp remains
  have nonempty : (services.map (·.name)).filter (fun name => name ∉ state.visited) ≠ [] := by
    apply List.ne_nil_of_mem
    exact List.mem_filter.mpr ⟨List.mem_map_of_mem member, by simpa using left⟩
  obtain ⟨name, isLeft, least⟩ := acyclic.exists_source nonempty
  obtain ⟨isName, notVisited⟩ := List.mem_filter.mp isLeft
  obtain ⟨found, inServices, named⟩ := List.mem_map.mp isName
  have waiting : state.degree name ≠ 0 := by
    have ready := inv.ready found inServices
    rw [named, drained] at ready
    intro zero
    rcases ready.mp zero with queued | visited
    · cases queued
    · simp [visited] at notVisited
  rw [inv.degree] at waiting
  obtain ⟨source, isEdge, sourceLeft⟩ := pending_pos waiting
  have depends := mem_dependency_edges.mp isEdge
  obtain ⟨other, otherMember, otherNamed⟩ := (depends_on_listed depends).1
  refine least source (List.mem_filter.mpr ⟨?_, by simpa using sourceLeft⟩) depends
  exact List.mem_map.mpr ⟨other, otherMember, otherNamed⟩

end Sorted

def topologicalSortChecked (services : List ContainerService) (ready : List String) :
    Option (Except String (List ContainerService)) :=
  (loopChecked services services.length (Kahn.start services ready)).map fun state =>
    if state.sorted.length ≠ services.length then
      .error "circular dependency detected in services"
    else .ok state.sorted

/-- For every order of the hash map the sort succeeds exactly on services without a
circular dependency, with each service after those it depends on; no degree underflows. -/
theorem topological_sort_correct {ready : List String}
    (distinct : (services.map (·.name)).Nodup) (order : ready.Perm (readyNames services)) :
    topologicalSortChecked services ready = some (topologicalSortServices services ready) ∧
      ((∃ sorted, topologicalSortServices services ready = .ok sorted) ↔
        Acyclic (DependsOn services)) ∧
      ∀ sorted, topologicalSortServices services ready = .ok sorted →
        sorted.Perm services ∧ DependenciesFirst services sorted := by
  obtain ⟨inv, drained, checked⟩ := sorting_loop services.length (sorting_start order)
    (Nat.le_add_left _ _)
  have names := sorted_names inv
  have length := congrArg List.length names
  rw [List.length_map] at length
  refine ⟨?_, ⟨?_, ?_⟩, ?_⟩
  · unfold topologicalSortChecked
    rw [checked]
    rfl
  · rintro ⟨sorted, result⟩
    have perm := sorted_perm result
    unfold topologicalSortServices at result
    dsimp only at result
    split_ifs at result
    cases result
    have covers : ∀ source target, DependsOn services source target →
        target ∈ (Kahn.loop services services.length (Kahn.start services ready)).visited := by
      intro source target depends
      obtain ⟨service, member, named⟩ := (depends_on_listed depends).2
      rw [← names, ← named]
      exact List.mem_map_of_mem (perm.mem_iff.mpr member)
    exact acyclic_of_follows inv.visits.once inv.follows covers
  · intro acyclic
    have all := all_visited inv drained acyclic
    have included : services.map (·.name) ⊆
        (Kahn.loop services services.length (Kahn.start services ready)).visited := by
      intro name member
      obtain ⟨service, inServices, named⟩ := List.mem_map.mp member
      rw [← named]
      exact all service inServices
    have atLeast := (List.subperm_of_subset distinct included).length_le
    have listed : (Kahn.loop services services.length (Kahn.start services ready)).visited ⊆
        services.map (·.name) := by
      intro name visited
      obtain ⟨service, member, named⟩ := inv.listed name (Or.inr visited)
      exact List.mem_map.mpr ⟨service, member, named⟩
    have atMost := (List.subperm_of_subset inv.visits.once listed).length_le
    rw [List.length_map] at atLeast atMost
    have counted : ¬(Kahn.loop services services.length
        (Kahn.start services ready)).sorted.length ≠ services.length := by omega
    exact ⟨_, if_neg counted⟩
  · intro sorted result
    have perm := sorted_perm result
    refine ⟨perm, ?_⟩
    unfold topologicalSortServices at result
    dsimp only at result
    split_ifs at result
    cases result
    intro before service after split name depends listed
    rw [split, List.map_append, List.map_cons] at names
    have member : service ∈ services := by
      apply perm.mem_iff.mp
      rw [split]
      exact List.mem_append_right _ List.mem_cons_self
    have found := inv.follows _ _ _ names.symm name ⟨service, member, rfl, depends, listed⟩
    obtain ⟨other, inBefore, named⟩ := List.mem_map.mp found
    exact ⟨other, inBefore, named⟩

def demoDependent : ContainerService :=
  { ContainerService.new ⟨2⟩ 0 ⟨1⟩ "api" "" 8081 with dependsOn := ["web", "postgres", "web"] }

def demoOrdered : List ContainerService := [demoDependent, .new ⟨3⟩ 0 ⟨1⟩ "web" "" 8080]

theorem api_after_web :
    ∃ sorted, topologicalSortServices demoOrdered (readyNames demoOrdered) = .ok sorted ∧
      sorted.map (·.name) = ["web", "api"] ∧ DependenciesFirst demoOrdered sorted := by
  have sorts : (topologicalSortServices demoOrdered (readyNames demoOrdered)).toOption.map
      (List.map (·.name)) = some ["web", "api"] := by decide +kernel
  obtain ⟨sorted, some, names⟩ := Option.map_eq_some_iff.mp sorts
  have result := Effect.ok_of_to_option some
  have correct := topological_sort_correct (by decide) (List.Perm.refl (readyNames demoOrdered))
  exact ⟨sorted, result, names, (correct.2.2 sorted result).2⟩

end Containr.Rollout
