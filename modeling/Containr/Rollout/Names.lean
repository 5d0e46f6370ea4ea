import Containr.Identifiers
import Containr.Worker.Rollout

/-!
# Container names and the order of services

A container's name ends with eight hexadecimal digits of its deployment, so no
seeding helper has the name of a replica. A sort that returns has only reordered
the services.
-/

namespace Containr.Rollout

open Containr.Effect Containr.Worker

theorem hex_digits_no_s (width value : Nat) : 's' ∉ Uuid.hexDigits width value := by
  intro member
  have isHex := hex_digits_chars member
  revert isHex
  decide

theorem short_id_chars (id : Uuid) :
    (shortDeploymentId id).toList = (Uuid.hexDigits 32 id.value).take 8 := by
  simp [shortDeploymentId, Text.takeChars, Uuid.simple]

/-- The helper's name has an `s` where a replica's name has a hexadecimal digit. -/
theorem seed_helper_ne_name (app : App) (service : ContainerService) (replica : Nat) (id : Uuid)
    (container : String) : seedHelperName container ≠ containerName app service replica id := by
  intro same
  have lists := congrArg String.toList same
  simp only [seedHelperName, containerName, String.toList_append] at lists
  rw [short_id_chars] at lists
  have short : ((Uuid.hexDigits 32 id.value).take 8).length = 8 := by
    rw [List.length_take, hex_digits_length]
    rfl
  rcases List.append_eq_append_iff.mp lists with ⟨middle, -, split⟩ | ⟨middle, -, split⟩
  · have counted := congrArg List.length split
    rw [List.length_append, short] at counted
    simp at counted
  · have member : 's' ∈ (Uuid.hexDigits 32 id.value).take 8 := by
      rw [split]
      simp
    exact hex_digits_no_s 32 id.value (List.mem_of_mem_take member)

variable {services : List ContainerService}

theorem name_to_service_mem {name : String} {service : ContainerService}
    (found : nameToService services name = some service) :
    service ∈ services ∧ service.name = name := by
  unfold nameToService at found
  have member := List.mem_of_find?_eq_some found
  have named := List.find?_some found
  exact ⟨List.mem_reverse.mp member, by simpa using named⟩

structure Visited (services : List ContainerService) (state : Kahn) : Prop where
  once : state.visited.Nodup
  sorted : state.sorted = state.visited.filterMap (nameToService services)

theorem release_visited (names : List String) (state : Kahn) :
    (names.foldl Kahn.release state).visited = state.visited ∧
      (names.foldl Kahn.release state).sorted = state.sorted := by
  induction names generalizing state with
  | nil => exact ⟨rfl, rfl⟩
  | cons name names ih =>
      rw [List.foldl_cons]
      obtain ⟨visited, sorted⟩ := ih (state.release name)
      exact ⟨visited.trans rfl, sorted.trans rfl⟩

theorem visit_visited {state : Kahn} {name : String} (rest : List String)
    (new : name ∉ state.visited) (inv : Visited services state) :
    Visited services (state.visit services name rest) := by
  unfold Kahn.visit
  obtain ⟨visited, sorted⟩ := release_visited (neighbors (dependencyEdges services) name)
    { state with
      queue := rest
      visited := state.visited ++ [name]
      sorted := state.sorted ++ (nameToService services name).toList }
  constructor
  · rw [visited]
    exact List.nodup_append.mpr ⟨inv.once, List.nodup_singleton name, by
      intro other member last isLast same
      rw [List.mem_singleton] at isLast
      exact new (isLast ▸ same ▸ member)⟩
  · rw [sorted, visited, List.filterMap_append, ← inv.sorted]
    cases found : nameToService services name with
    | none => simp [found]
    | some service => simp [found]

theorem loop_visited (fuel : Nat) {state : Kahn} (inv : Visited services state) :
    Visited services (Kahn.loop services fuel state) := by
  induction fuel generalizing state with
  | zero => exact inv
  | succ fuel ih =>
      unfold Kahn.loop
      split
      · exact inv
      · split
        · exact ih ⟨inv.once, inv.sorted⟩
        · rename_i name rest _ new
          exact ih (visit_visited rest new inv)

theorem filter_map_names {services : List ContainerService} (names : List String)
    (once : names.Nodup) :
    ((names.filterMap (nameToService services)).map (·.name)).Nodup := by
  have sublist : ((names.filterMap (nameToService services)).map (·.name)).Sublist names := by
    induction names with
    | nil => exact List.Sublist.refl _
    | cons name names ih =>
        have rest := ih (List.nodup_cons.mp once).2
        cases found : nameToService services name with
        | none =>
            rw [List.filterMap_cons_none found]
            exact rest.cons name
        | some service =>
            rw [List.filterMap_cons_some found, List.map_cons, (name_to_service_mem found).2]
            exact rest.cons_cons name
  exact sublist.nodup once

theorem sorted_perm {sorted : List ContainerService} {ready : List String}
    (result : topologicalSortServices services ready = .ok sorted) : sorted.Perm services := by
  have inv : Visited services (Kahn.loop services services.length (Kahn.start services ready)) :=
    loop_visited _ ⟨List.nodup_nil, rfl⟩
  unfold topologicalSortServices at result
  dsimp only at result
  split_ifs at result with counted
  cases result
  have length := not_not.mp counted
  rw [inv.sorted] at length ⊢
  have namesOnce := @filter_map_names services _ inv.once
  have once : (List.filterMap (nameToService services)
      (Kahn.loop services services.length (Kahn.start services ready)).visited).Nodup :=
    List.Nodup.of_map _ namesOnce
  have included : List.filterMap (nameToService services)
      (Kahn.loop services services.length (Kahn.start services ready)).visited ⊆ services := by
    intro service member
    obtain ⟨name, -, found⟩ := List.mem_filterMap.mp member
    exact (name_to_service_mem found).1
  exact (List.subperm_of_subset once included).perm_of_length_le (le_of_eq length.symm)

end Containr.Rollout
