import Containr.Effect.Table

/-!
# Hash maps

A map is the list of its entries in some order, with no key twice. What a map
says is said through `get`; the order shows only where a program iterates.
-/

namespace Containr.Effect

structure Map (Key Value : Type) where
  entries : List (Key × Value)
  unique : (entries.map Prod.fst).Nodup
deriving DecidableEq

namespace Map

variable {Key Value : Type} [DecidableEq Key]

def empty : Map Key Value := ⟨[], List.nodup_nil⟩

def keys (map : Map Key Value) : List Key := map.entries.map Prod.fst

def get (map : Map Key Value) (key : Key) : Option Value :=
  (lookup Prod.fst key map.entries).map Prod.snd

def contains (map : Map Key Value) (key : Key) : Bool := (map.get key).isSome

def insert (map : Map Key Value) (key : Key) (value : Value) : Map Key Value :=
  ⟨upsert Prod.fst (key, value) map.entries, upsert_nodup Prod.fst (key, value) map.entries map.unique⟩

def retain (map : Map Key Value) (keep : Key → Value → Bool) : Map Key Value :=
  ⟨map.entries.filter fun entry => keep entry.1 entry.2,
    map.unique.sublist (List.filter_sublist.map Prod.fst)⟩

def remove (map : Map Key Value) (key : Key) : Map Key Value :=
  map.retain fun other _ => other ≠ key

variable (map : Map Key Value) (key : Key)

@[simp] theorem get_empty : (empty : Map Key Value).get key = none := rfl

theorem get_eq_some {map : Map Key Value} {key : Key} {value : Value} :
    map.get key = some value ↔ (key, value) ∈ map.entries := by
  constructor
  · intro found
    obtain ⟨entry, looked, rfl⟩ := Option.map_eq_some_iff.mp found
    obtain ⟨member, rfl⟩ := lookup_eq_some_mem looked
    exact member
  · intro member
    have looked := lookup_of_mem map.unique member
    exact Option.map_eq_some_iff.mpr ⟨(key, value), looked, rfl⟩

theorem get_insert_same (value : Value) : (map.insert key value).get key = some value := by
  have found := lookup_upsert_same Prod.fst (key, value) map.entries
  exact Option.map_eq_some_iff.mpr ⟨(key, value), found, rfl⟩

theorem get_insert_other {key other : Key} (value : Value) (different : other ≠ key) :
    (map.insert key value).get other = map.get other :=
  congrArg (Option.map Prod.snd)
    (lookup_upsert_other Prod.fst (key, value) map.entries other different)

@[simp] theorem get_insert (other : Key) (value : Value) :
    (map.insert key value).get other = if other = key then some value else map.get other := by
  split_ifs with same
  · rw [same]
    exact map.get_insert_same key value
  · exact map.get_insert_other value same

@[simp] theorem get_retain (keep : Key → Value → Bool) (key : Key) :
    (map.retain keep).get key = (map.get key).filter (keep key) := by
  apply Option.ext
  intro value
  rw [get_eq_some, Option.filter_eq_some_iff, get_eq_some]
  exact List.mem_filter

@[simp] theorem get_remove (other : Key) :
    (map.remove key).get other = if other = key then none else map.get other := by
  unfold remove
  rw [get_retain]
  split_ifs with same
  · rw [same]
    cases map.get key with
    | none => rfl
    | some value => simp
  · cases map.get other with
    | none => rfl
    | some value => simp [same]

theorem mem_keys {map : Map Key Value} {key : Key} :
    key ∈ map.keys ↔ ∃ value, map.get key = some value := by
  constructor
  · intro member
    obtain ⟨⟨found, value⟩, inEntries, rfl⟩ := List.mem_map.mp member
    exact ⟨value, get_eq_some.mpr inEntries⟩
  · rintro ⟨value, found⟩
    exact List.mem_map.mpr ⟨(key, value), get_eq_some.mp found, rfl⟩

theorem contains_eq_mem_keys : map.contains key = true ↔ key ∈ map.keys := by
  unfold contains
  rw [Option.isSome_iff_exists, mem_keys]

end Map

end Containr.Effect
