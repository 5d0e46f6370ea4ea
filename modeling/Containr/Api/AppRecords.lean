import Containr.Api.Identity
import Containr.Effect.Copies

/-!
# The rows of an app and the copies of them

An app is stored as one row and a row for each of its services. A request saves the whole
app from a copy it has read; here is what it takes each row for, and what its saves and
deletions do to the rows.
-/

namespace Containr.Api.Services

open Containr.Effect Containr.Effect.Program

/-- The row, and the app once its services have been read too. -/
inductive Held where
  | unread
  | row (app : App)
  | whole (app : App)
deriving DecidableEq, Repr

def Held.join (services : List ContainerService) : Held → Held
  | .row app => .whole { app with services := services }
  | held => held

def Held.services : Held → List ContainerService
  | .whole app => app.services
  | _ => []

def Held.app : Held → Option App
  | .unread => none
  | .row app | .whole app => some app

/-- A listing of all apps is only compared with; the copy is that of `get_app` or the one
that was written last. -/
def Held.after (id : Uuid) (held : Held) : (op : Op) → op.Answer → Held
  | .query (.app wanted), .ok found => if wanted = id then Option.elim found .unread .row else held
  | .query (.servicesByApp wanted), .ok services => if wanted = id then held.join services else held
  | .write (.saveApp app), .ok _ => if app.id = id then .whole app else held
  | .write (.deleteApp deleted), .ok _ => if deleted = id then .unread else held
  | _, _ => held

def heldAfter (id : Uuid) (calls : List (Call Effects)) : Held :=
  calls.foldl (fun held call => held.after id call.1 call.2) .unread

/-- The columns a save writes: `created_at` is not one of them. -/
def columns (app : App) : App := { app with services := [], createdAt := 0 }

def WritesApp : (op : Op) → op.Answer → Prop
  | .write (.saveApp _), .ok _ | .write (.deleteApp _), .ok _ => True
  | _, _ => False

def uniqueServices (world : World) : Prop := (world.db.services.map (·.id)).Nodup

def target : Op → Option Uuid
  | .write (.saveApp app) => some app.id
  | .write (.deleteApp id) => some id
  | _ => none

def writtenRow : Op → Option App
  | .write (.saveApp app) => some (columns app)
  | _ => none

def appRecords : RowStore Effects World Uuid (Option App) where
  valid := uniqueServices
  stored world id := (world.db.appRow id).map columns
  writes := WritesApp
  covers op _ id := target op = some id
  written op id := if target op = some id then writtenRow op else none
  copied calls op id := if target op = some id then (heldAfter id calls).app.map columns else none

def savedService (app : App) (id : Uuid) : Option ContainerService :=
  lookup (·.id) id app.services.reverse

def OfApp (world : World) (id appId : Uuid) : Prop :=
  ∃ row, world.db.serviceRow id = some row ∧ row.appId = appId

def serviceRecords : RowStore Effects World Uuid (Option ContainerService) where
  valid := uniqueServices
  stored world id := world.db.serviceRow id
  writes := WritesApp
  covers op world id := match op with
    | .write (.saveApp app) => savedService app id ≠ none ∨ OfApp world id app.id
    | .write (.deleteApp deleted) => OfApp world id deleted
    | _ => False
  written op id := match op with
    | .write (.saveApp app) => savedService app id
    | _ => none
  copied calls op id := match op with
    | .write (.saveApp app) =>
        lookup (·.id) id (heldAfter app.id calls).services.reverse
    | .write (.deleteApp deleted) =>
        lookup (·.id) id (heldAfter deleted calls).services.reverse
    | _ => none

section Served

variable {op : Op} {before after : World} {answer : op.Answer}

end Served

end Containr.Api.Services
