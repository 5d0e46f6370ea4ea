import Mathlib.Data.List.Dedup
import Containr.Models

/-!
# `topological_sort_services` of `containr-runtime/src/worker.rs`

Kahn's algorithm over service names. The queue starts with the names of degree
zero in the iteration order of a hash map, which is an argument here (`ready`).
-/

namespace Containr

/-- `name_to_service`: of two services of one name the later one is kept. -/
def nameToService (services : List ContainerService) (name : String) : Option ContainerService :=
  services.reverse.find? (·.name = name)

def dependencyEdges (services : List ContainerService) : List (String × String) :=
  services.flatMap fun service =>
    (service.dependsOn.filter fun name => services.any (·.name = name)).map fun name =>
      (name, service.name)

def neighbors (edges : List (String × String)) (name : String) : List String :=
  (edges.filter (·.1 = name)).map (·.2)

def inDegree (edges : List (String × String)) (name : String) : Nat :=
  (edges.filter (·.2 = name)).length

def readyNames (services : List ContainerService) : List String :=
  ((services.map (·.name)).dedup).filter fun name => inDegree (dependencyEdges services) name = 0

structure Kahn where
  queue : List String
  degree : String → Nat
  visited : List String
  sorted : List ContainerService

def Kahn.release (state : Kahn) (neighbor : String) : Kahn :=
  let degree := state.degree neighbor - 1
  { state with
    degree := fun name => if name = neighbor then degree else state.degree name
    queue := if degree = 0 then state.queue ++ [neighbor] else state.queue }

def Kahn.visit (services : List ContainerService) (state : Kahn) (name : String)
    (rest : List String) : Kahn :=
  let visited := { state with
    queue := rest
    visited := state.visited ++ [name]
    sorted := state.sorted ++ (nameToService services name).toList }
  (neighbors (dependencyEdges services) name).foldl Kahn.release visited

/-- The `while let` loop. Every round takes one name off the queue and a name
enters it at most once, so as many rounds as services are enough. -/
def Kahn.loop (services : List ContainerService) : Nat → Kahn → Kahn
  | 0, state => state
  | fuel + 1, state =>
      match state.queue with
      | [] => state
      | name :: rest =>
          if name ∈ state.visited then Kahn.loop services fuel { state with queue := rest }
          else Kahn.loop services fuel (state.visit services name rest)

def Kahn.start (services : List ContainerService) (ready : List String) : Kahn :=
  ⟨ready, inDegree (dependencyEdges services), [], []⟩

def topologicalSortServices (services : List ContainerService) (ready : List String) :
    Except String (List ContainerService) :=
  let sorted := (Kahn.loop services services.length (Kahn.start services ready)).sorted
  if sorted.length ≠ services.length then .error "circular dependency detected in services"
  else .ok sorted

end Containr
