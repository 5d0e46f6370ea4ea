import Containr.Effect.Recorded

/-!
# Rows written from copies

Threads share rows. A thread keeps copies of rows it has read or written and writes whole
rows. As long as each write finds the rows it overwrites as its thread's copies have them,
what a write leaves in a row stays there until a later write changes it against its own
copy.
-/

namespace Containr.Effect

variable {face : Interface} {Thread Value State Key Row : Type}

structure RowStore (face : Interface) (State Key Row : Type) where
  valid : State → Prop
  stored : State → Key → Row
  /-- The answer to a write that went through. -/
  writes : (op : face.Op) → face.Answer op → Prop
  covers : face.Op → State → Key → Prop
  written : face.Op → Key → Row
  /-- What a write takes a row for, after the calls of its thread. -/
  copied : List (Call face) → face.Op → Key → Row

namespace RowStore

structure Serves (store : RowStore face State Key Row) (can : Behaviour face State) : Prop where
  valid : ∀ op before answer after, can op before answer after → store.valid before →
    store.valid after
  still : ∀ op before answer after, can op before answer after → ¬store.writes op answer →
    store.stored after = store.stored before
  written : ∀ op before answer after key, can op before answer after → store.valid before →
    store.writes op answer → store.covers op before key →
      store.stored after key = store.written op key
  other : ∀ op before answer after key, can op before answer after → store.valid before →
    store.writes op answer → ¬store.covers op before key →
      store.stored after key = store.stored before key

variable [DecidableEq Thread]

def Unmoved (store : RowStore face State Key Row) : Pool.Restriction face Thread Value State :=
  fun history pool event => store.writes event.op event.answer →
    ∀ key, store.covers event.op pool.state key →
      store.stored pool.state key =
        store.copied (Pool.own event.thread history) event.op key

def Keeps (store : RowStore face State Key Row) (key : Key) (holds : Row → Prop)
    (history : List (Event face Thread)) (event : Event face Thread) : Prop :=
  store.writes event.op event.answer →
    holds (store.copied (Pool.own event.thread history) event.op key) →
      holds (store.written event.op key)

def Left (store : RowStore face State Key Row) (key : Key) (holds : Row → Prop)
    (event : Event face Thread) (earlier later : List (Event face Thread)) : Prop :=
  ∀ between other rest, later = between ++ other :: rest → other.thread ≠ event.thread →
    store.Keeps key holds (earlier ++ event :: between) other

section Runs

variable {store : RowStore face State Key Row} {can : Behaviour face State}
  {meets : Pool.Restriction face Thread Value State} {start pool : Pool face Thread Value State}
  {history : List (Event face Thread)}

variable {event : Event face Thread} {holds : Row → Prop} {key : Key}

end Runs

end RowStore

end Containr.Effect
