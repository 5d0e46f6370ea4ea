import Containr.Files.Tree
import Mathlib.Logic.Relation

/-!
# The places a path leads through

`resolve` answers with the end of the way; here the way itself is a sequence of steps.
-/

namespace Containr.Files

/-- A place on the way, and what is left of the path. -/
structure Position (Name : Type) where
  location : List Name
  rest : List (Segment Name)

variable {Name : Type}

inductive Step (node : List Name → Option (Node Name)) : Position Name → Position Name → Prop
  | current (location : List Name) (rest : List (Segment Name)) :
      Step node ⟨location, .current :: rest⟩ ⟨location, rest⟩
  | parent (location : List Name) (rest : List (Segment Name)) :
      Step node ⟨location, .parent :: rest⟩ ⟨location.dropLast, rest⟩
  | directory {location : List Name} {name : Name} (rest : List (Segment Name))
      (there : node (location ++ [name]) = some .directory) :
      Step node ⟨location, .name name :: rest⟩ ⟨location ++ [name], rest⟩
  | file {location : List Name} {name : Name} (there : node (location ++ [name]) = some .file) :
      Step node ⟨location, [.name name]⟩ ⟨location ++ [name], []⟩
  | link {location : List Name} {name : Name} {target : Target Name} (rest : List (Segment Name))
      (there : node (location ++ [name]) = some (.link target)) :
      Step node ⟨location, .name name :: rest⟩
        ⟨Tree.origin location target, target.segments ++ rest⟩

def Visits (node : List Name → Option (Node Name)) : Position Name → Position Name → Prop :=
  Relation.ReflTransGen (Step node)

namespace Tree

variable (tree : Tree Name) {directory path : List Name} {segments : List (Segment Name)}

theorem walk_visits
    {follow : List Name → List (Segment Name) → Except Failure (List Name)}
    (followed : ∀ start rest final, follow start rest = .ok final →
      Visits tree.node ⟨start, rest⟩ ⟨final, []⟩)
    (walked : tree.walk true follow directory segments = .ok path) :
    Visits tree.node ⟨directory, segments⟩ ⟨path, []⟩ := by
  induction segments generalizing directory with
  | nil =>
      have same : directory = path := Except.ok.inj walked
      rw [same]
      exact .refl
  | cons segment rest ih =>
      cases segment with
      | current => exact .head (.current directory rest) (ih walked)
      | parent => exact .head (.parent directory rest) (ih walked)
      | name name =>
          rw [walk] at walked
          cases entry : tree.node (directory ++ [name]) with
          | none => simp [entry] at walked
          | some node =>
              cases node with
              | directory =>
                  rw [entry] at walked
                  exact .head (.directory rest entry) (ih walked)
              | file =>
                  simp only [entry] at walked
                  split_ifs at walked with last
                  have same : directory ++ [name] = path := Except.ok.inj walked
                  have nothing : rest = [] := by simpa using last
                  rw [← same, nothing]
                  exact .single (.file entry)
              | link target =>
                  simp only [entry, Bool.not_true, Bool.and_false, Bool.false_eq_true,
                    if_false] at walked
                  exact .head (.link rest entry) (followed _ _ path walked)

/-- The answer of `resolve` is the end of the way. -/
theorem resolve_visits {links : Nat}
    (resolved : tree.resolve true links directory segments = .ok path) :
    Visits tree.node ⟨directory, segments⟩ ⟨path, []⟩ := by
  induction links generalizing directory segments path with
  | zero => exact tree.walk_visits (fun _ _ _ impossible => by cases impossible) resolved
  | succ links ih => exact tree.walk_visits (fun _ _ _ followed => ih followed) resolved

end Tree

end Containr.Files
