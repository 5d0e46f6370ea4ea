import Mathlib.Data.List.Basic
import Mathlib.Data.Set.Finite.Basic
import Mathlib.Data.Set.Finite.List
import Mathlib.Order.WellFounded
import Mathlib.Data.Fintype.EquivFin

/-!
# Orders of a directed graph

An order follows the edges when every edge into a vertex comes from before it. A graph
with such an order of all its vertices has no cycle; in a graph without cycles every
finite set has a member no edge of the set leads to.
-/

namespace Containr.Graph

variable {Vertex : Type} {edge : Vertex → Vertex → Prop}

def Acyclic (edge : Vertex → Vertex → Prop) : Prop := ∀ vertex, ¬Relation.TransGen edge vertex vertex

def Follows (edge : Vertex → Vertex → Prop) (order : List Vertex) : Prop :=
  ∀ before vertex after, order = before ++ vertex :: after →
    ∀ source, edge source vertex → source ∈ before

theorem follows_nil : Follows edge [] := by
  intro before vertex after split
  simp at split

variable {order : List Vertex}

theorem Follows.snoc {last : Vertex} (follows : Follows edge order)
    (sources : ∀ source, edge source last → source ∈ order) : Follows edge (order ++ [last]) := by
  intro before vertex after split source isEdge
  rcases List.eq_nil_or_concat' after with rfl | ⟨others, final, rfl⟩
  · have parts := List.append_inj' split rfl
    rw [← List.singleton_inj.mp parts.2] at isEdge
    rw [← parts.1]
    exact sources source isEdge
  · have reassoc : order ++ [last] = (before ++ vertex :: others) ++ [final] := by
      simpa using split
    have parts := List.append_inj' reassoc rfl
    exact follows before vertex others parts.1 source isEdge

theorem Follows.trans_before (follows : Follows edge order) {first last : Vertex}
    (path : Relation.TransGen edge first last) {before after : List Vertex}
    (split : order = before ++ last :: after) : first ∈ before := by
  induction path generalizing before after with
  | single isEdge => exact follows before _ after split first isEdge
  | @tail middle last path isEdge ih =>
      have earlier := follows before _ after split _ isEdge
      obtain ⟨front, back, place⟩ := List.append_of_mem earlier
      have whole : order = front ++ middle :: (back ++ last :: after) := by
        rw [split, place, List.append_assoc, List.cons_append]
      have member := ih whole
      rw [place]
      exact List.mem_append_left _ member

theorem acyclic_of_follows (once : order.Nodup) (follows : Follows edge order)
    (covers : ∀ source target, edge source target → target ∈ order) : Acyclic edge := by
  intro vertex cycle
  have target : ∃ source, edge source vertex := by
    cases cycle with
    | single isEdge => exact ⟨vertex, isEdge⟩
    | tail _ isEdge => exact ⟨_, isEdge⟩
  obtain ⟨source, isEdge⟩ := target
  obtain ⟨before, after, split⟩ := List.append_of_mem (covers source vertex isEdge)
  have earlier := follows.trans_before cycle split
  rw [split] at once
  exact (List.nodup_append.mp once).2.2 vertex earlier vertex List.mem_cons_self rfl

theorem Acyclic.exists_source (acyclic : Acyclic edge) {vertices : List Vertex}
    (nonempty : vertices ≠ []) : ∃ vertex ∈ vertices, ∀ source ∈ vertices, ¬edge source vertex := by
  let leads : {vertex // vertex ∈ vertices} → {vertex // vertex ∈ vertices} → Prop :=
    fun first last => Relation.TransGen edge first.val last.val
  have finite : Finite {vertex // vertex ∈ vertices} := List.finite_toSet vertices
  have transitive : IsTrans _ leads := ⟨fun _ _ _ first second => first.trans second⟩
  have irreflexive : Std.Irrefl leads := ⟨fun vertex => acyclic vertex.val⟩
  have wellFounded : WellFounded leads := Finite.wellFounded_of_trans_of_irrefl leads
  obtain ⟨vertex, member⟩ := List.exists_mem_of_ne_nil vertices nonempty
  obtain ⟨minimal, -, least⟩ := wellFounded.has_min Set.univ ⟨⟨vertex, member⟩, trivial⟩
  refine ⟨minimal.val, minimal.property, fun source inside isEdge => ?_⟩
  exact least ⟨source, inside⟩ trivial (Relation.TransGen.single isEdge)

end Containr.Graph
