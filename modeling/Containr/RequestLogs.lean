import Containr.Effect.IndexedLog
import Containr.Effect.Program
import Containr.Models
import Mathlib.Data.List.Forall2

/-!
# The HTTP request logs of `containr-common/src/db.rs`

An append is one transaction: it numbers the row after the service's largest index and
cuts the service's rows at the largest index less the cap. A statement that fails rolls
it back. The JSON of a row is a parameter.
-/

namespace Containr.RequestLogs

open Containr.Effect

structure HttpRequestLog where
  serviceId : Uuid
  appId : Uuid
  domain : String
  method : String
  path : String
  status : Nat
  upstream : String
  protocol : String
  createdAt : Time
deriving DecidableEq, Repr

/-- `serde_json` at this type. -/
structure LogJson where
  toText : HttpRequestLog → Except String String
  fromText : String → Except String HttpRequestLog

/-- What was written is read back. -/
def LogJson.RoundTrips (json : LogJson) : Prop :=
  ∀ log text, json.toText log = .ok text → json.fromText text = .ok log

abbrev RequestLogTable : Type := IndexedLog Uuid String

def maxHttpRequestLogsPerService : Nat := 2000

section Statements

variable (json : LogJson) (fault : Option String)

def appendHttpRequestLog (log : HttpRequestLog) (table : RequestLogTable) :
    Except String Unit × RequestLogTable :=
  match fault with
  | some message => (.error message, table)
  | none =>
      match table.nextIdx log.serviceId with
      | none => (.error "mismatched types: i64 is not compatible with SQL type REAL", table)
      | some idx =>
          match json.toText log with
          | .error message => (.error message, table)
          | .ok value =>
              let inserted := table.insert log.serviceId idx value
              (.ok (), inserted.deleteUpTo log.serviceId
                (inserted.maxIdx log.serviceId - maxHttpRequestLogsPerService))

def listHttpRequestLogs (serviceId : Uuid) (limit offset : Nat) (table : RequestLogTable) :
    Except String (List HttpRequestLog) :=
  match fault with
  | some message => .error message
  | none => (page (asI64 limit) (asI64 offset) (table.descending serviceId)).mapM json.fromText

def deleteHttpRequestLogs (serviceId : Uuid) (table : RequestLogTable) :
    Except String Nat × RequestLogTable :=
  match fault with
  | some message => (.error message, table)
  | none => (.ok (table.rows serviceId).length, table.deleteOwner serviceId)

end Statements

inductive LogCall where
  | append (log : HttpRequestLog)
  | delete (serviceId : Uuid)
deriving DecidableEq, Repr

def LogCall.service : LogCall → Uuid
  | .append log => log.serviceId
  | .delete serviceId => serviceId

def LogCall.perform (json : LogJson) (fault : Option String) (table : RequestLogTable) :
    LogCall → Bool × RequestLogTable
  | .append log =>
      let result := appendHttpRequestLog json fault log table
      (result.1.toOption.isSome, result.2)
  | .delete serviceId =>
      let result := deleteHttpRequestLogs fault serviceId table
      (result.1.toOption.isSome, result.2)

structure LogRun where
  table : RequestLogTable
  succeeded : List LogCall

def LogRun.step (json : LogJson) (run : LogRun) (entry : Option String × LogCall) : LogRun :=
  let result := entry.2.perform json entry.1 run.table
  ⟨result.2, if result.1 then run.succeeded ++ [entry.2] else run.succeeded⟩

/-- Each call with its fault, from an empty table. -/
def logRun (json : LogJson) (calls : List (Option String × LogCall)) : LogRun :=
  calls.foldl (LogRun.step json) ⟨[], []⟩

def LogCall.after (serviceId : Uuid) (logs : List HttpRequestLog) : LogCall → List HttpRequestLog
  | .append log => if log.serviceId = serviceId then logs ++ [log] else logs
  | .delete other => if other = serviceId then [] else logs

def sinceDeletion (serviceId : Uuid) (calls : List LogCall) : List HttpRequestLog :=
  calls.foldl (LogCall.after serviceId) []

/-- The last of them, up to the cap. -/
def kept (logs : List HttpRequestLog) : List HttpRequestLog :=
  logs.drop (logs.length - maxHttpRequestLogsPerService)

def Retained (json : LogJson) (run : LogRun) (serviceId : Uuid) : Prop :=
  (run.table.ascending serviceId).mapM json.fromText =
    .ok (kept (sinceDeletion serviceId run.succeeded))

def window (limit offset : Nat) (logs : List HttpRequestLog) : List HttpRequestLog :=
  ((kept logs).reverse.drop offset).take limit

theorem kept_length (logs : List HttpRequestLog) :
    (kept logs).length = min logs.length maxHttpRequestLogsPerService := by
  unfold kept
  rw [List.length_drop]
  omega

/-- One more log pushes the oldest out once the cap is reached. -/
theorem kept_append (logs : List HttpRequestLog) (log : HttpRequestLog) :
    kept (logs ++ [log]) =
      (kept logs ++ [log]).drop ((kept logs).length + 1 - maxHttpRequestLogsPerService) := by
  have length := kept_length logs
  unfold kept at length ⊢
  rw [List.length_append, List.length_singleton]
  by_cases room : logs.length < maxHttpRequestLogsPerService
  · have first : logs.length - maxHttpRequestLogsPerService = 0 := by omega
    have second : logs.length + 1 - maxHttpRequestLogsPerService = 0 := by omega
    simp [first, second]
  · have full : (logs.drop (logs.length - maxHttpRequestLogsPerService)).length =
        maxHttpRequestLogsPerService := by omega
    have whole : logs.drop (logs.length - maxHttpRequestLogsPerService) ++ [log] =
        (logs ++ [log]).drop (logs.length - maxHttpRequestLogsPerService) :=
      (List.drop_append_of_le_length (Nat.sub_le _ _)).symm
    rw [full, whole, List.drop_drop]
    apply congrArg (fun count => (logs ++ [log]).drop count)
    omega

/-- The stored texts of the service are those of the logs kept, numbered without a gap. -/
def Numbered (json : LogJson) (table : RequestLogTable) (serviceId : Uuid)
    (logs : List HttpRequestLog) : Prop :=
  ∃ first texts, table.Holds serviceId first texts ∧
    List.Forall₂ (fun text log => json.toText log = .ok text) texts (kept logs)

variable {json : LogJson} {serviceId : Uuid} {table : RequestLogTable}

def appended (table : RequestLogTable) (serviceId : Uuid) (idx : Int) (value : String) :
    RequestLogTable :=
  (table.insert serviceId idx value).deleteUpTo serviceId
    ((table.insert serviceId idx value).maxIdx serviceId - maxHttpRequestLogsPerService)

/-- A transaction goes through or changes nothing. -/
theorem append_cases (fault : Option String) (log : HttpRequestLog) (table : RequestLogTable) :
    (∃ idx value, table.nextIdx log.serviceId = some idx ∧ json.toText log = .ok value ∧
      (LogCall.append log).perform json fault table =
        (true, appended table log.serviceId idx value)) ∨
      (LogCall.append log).perform json fault table = (false, table) := by
  unfold LogCall.perform appendHttpRequestLog
  cases fault with
  | some message => exact Or.inr rfl
  | none =>
      dsimp only
      cases next : table.nextIdx log.serviceId with
      | none => exact Or.inr rfl
      | some idx =>
          dsimp only
          cases written : json.toText log with
          | error message => exact Or.inr rfl
          | ok value => exact Or.inl ⟨idx, value, rfl, rfl, rfl⟩

theorem delete_cases (fault : Option String) (other : Uuid) (table : RequestLogTable) :
    (LogCall.delete other).perform json fault table = (true, table.deleteOwner other) ∨
      (LogCall.delete other).perform json fault table = (false, table) := by
  unfold LogCall.perform deleteHttpRequestLogs
  cases fault with
  | some message => exact Or.inr rfl
  | none => exact Or.inl rfl

theorem rows_appended_other (table : RequestLogTable) {other : Uuid} (different : serviceId ≠ other)
    (idx : Int) (value : String) :
    (appended table other idx value).rows serviceId = table.rows serviceId := by
  unfold appended
  rw [IndexedLog.rows_delete_up_to_other _ _ different,
    IndexedLog.rows_insert_other _ _ _ different]

theorem perform_other {call : LogCall} (fault : Option String) (table : RequestLogTable)
    (different : serviceId ≠ call.service) :
    (call.perform json fault table).2.rows serviceId = table.rows serviceId := by
  cases call with
  | append log =>
      rcases append_cases fault log table with ⟨idx, value, -, -, done⟩ | failed
      · rw [done]
        exact rows_appended_other table different idx value
      · rw [failed]
  | delete other =>
      rcases delete_cases fault other table with done | failed
      · rw [done]
        exact IndexedLog.rows_delete_owner_other table different
      · rw [failed]

variable {fault : Option String}

theorem perform_failed {call : LogCall} (failed : (call.perform json fault table).1 = false) :
    (call.perform json fault table).2 = table := by
  cases call with
  | append log =>
      rcases append_cases fault log table with ⟨idx, value, -, -, done⟩ | same
      · rw [done] at failed
        cases failed
      · rw [same]
  | delete other =>
      rcases delete_cases fault other table with done | same
      · rw [done] at failed
        cases failed
      · rw [same]

variable {logs : List HttpRequestLog}

theorem append_numbered {log : HttpRequestLog} (numbered : Numbered json table log.serviceId logs)
    (succeeded : ((LogCall.append log).perform json fault table).1 = true) :
    Numbered json ((LogCall.append log).perform json fault table).2 log.serviceId
      (logs ++ [log]) := by
  obtain ⟨first, texts, holds, stored⟩ := numbered
  rcases append_cases fault log table with ⟨idx, value, next, written, done⟩ | failed
  · rw [done]
    have inserted := holds.insert_next next value
    have cut := inserted.delete_up_to maxHttpRequestLogsPerService (by simp)
    refine ⟨_, _, cut, ?_⟩
    rw [kept_append, List.length_append, List.length_singleton, stored.length_eq]
    apply List.forall₂_drop
    exact List.rel_append stored (List.Forall₂.cons written List.Forall₂.nil)
  · rw [failed] at succeeded
    cases succeeded

theorem numbered_nil (empty : table.rows serviceId = []) : Numbered json table serviceId [] := by
  refine ⟨0, [], empty, ?_⟩
  rw [show kept [] = [] from List.drop_nil]
  exact List.Forall₂.nil

theorem delete_numbered {other : Uuid}
    (succeeded : ((LogCall.delete other).perform json fault table).1 = true) :
    Numbered json ((LogCall.delete other).perform json fault table).2 other [] := by
  rcases @delete_cases json fault other table with done | failed
  · rw [done]
    exact numbered_nil (IndexedLog.rows_delete_owner table other)
  · rw [failed] at succeeded
    cases succeeded

theorem step_numbered {run : LogRun} (entry : Option String × LogCall) {serviceId : Uuid}
    (numbered : Numbered json run.table serviceId (sinceDeletion serviceId run.succeeded)) :
    Numbered json (run.step json entry).table serviceId
      (sinceDeletion serviceId (run.step json entry).succeeded) := by
  obtain ⟨fault, call⟩ := entry
  cases outcome : (call.perform json fault run.table).1 with
  | false =>
      have same : run.step json (fault, call) = run := by
        simp [LogRun.step, outcome, perform_failed outcome]
      rw [same]
      exact numbered
  | true =>
      have moved : run.step json (fault, call) =
          ⟨(call.perform json fault run.table).2, run.succeeded ++ [call]⟩ := by
        simp [LogRun.step, outcome]
      have since : sinceDeletion serviceId (run.succeeded ++ [call]) =
          call.after serviceId (sinceDeletion serviceId run.succeeded) := by
        simp [sinceDeletion]
      rw [moved]
      dsimp only
      rw [since]
      by_cases mine : call.service = serviceId
      · subst mine
        cases call with
        | append log =>
            have appended := append_numbered numbered outcome
            simpa [LogCall.after, LogCall.service] using appended
        | delete other =>
            have emptied := delete_numbered outcome
            simpa [LogCall.after, LogCall.service] using emptied
      · have rows := @perform_other json serviceId call fault run.table (Ne.symm mine)
        have after : call.after serviceId (sinceDeletion serviceId run.succeeded) =
            sinceDeletion serviceId run.succeeded := by
          cases call with
          | append log => exact if_neg mine
          | delete other => exact if_neg mine
        rw [after]
        obtain ⟨first, texts, holds, stored⟩ := numbered
        refine ⟨first, texts, ?_, stored⟩
        unfold IndexedLog.Holds at holds ⊢
        rw [rows]
        exact holds

theorem run_numbered (calls : List (Option String × LogCall)) (serviceId : Uuid) :
    Numbered json (logRun json calls).table serviceId
      (sinceDeletion serviceId (logRun json calls).succeeded) := by
  unfold logRun
  have start : Numbered json (LogRun.table ⟨[], []⟩) serviceId
      (sinceDeletion serviceId (LogRun.succeeded ⟨[], []⟩)) := numbered_nil rfl
  generalize (⟨[], []⟩ : LogRun) = run at start
  induction calls generalizing run with
  | nil => exact start
  | cons entry calls ih => exact ih _ (step_numbered entry start)

theorem read_back (roundTrips : json.RoundTrips) {texts : List String}
    (stored : List.Forall₂ (fun text log => json.toText log = .ok text) texts logs) :
    texts.mapM json.fromText = .ok logs := by
  induction stored with
  | nil => rfl
  | cons written rest ih =>
      rw [List.mapM_cons, roundTrips _ _ written, ih]
      rfl

theorem page_stored {texts : List String}
    (stored : List.Forall₂ (fun text log => json.toText log = .ok text) texts logs)
    (limit offset : Int) :
    List.Forall₂ (fun text log => json.toText log = .ok text) (page limit offset texts)
      (page limit offset logs) := by
  unfold page
  split_ifs
  · exact List.forall₂_drop _ stored
  · exact List.forall₂_take _ (List.forall₂_drop _ stored)

/-- A window out of 64-bit arguments is the one asked for, unless the offset turns negative
and rows are returned from the newest on. -/
theorem page_window_iff {Value : Type} {values : List Value} (short : values.length < 2 ^ 63)
    {limit offset : Nat} (limitWord : limit < 2 ^ 64) (offsetWord : offset < 2 ^ 64) :
    page (asI64 limit) (asI64 offset) values = (values.drop offset).take limit ↔
      offset < 2 ^ 63 ∨ limit = 0 ∨ values = [] := by
  have limited : page (asI64 limit) (asI64 offset) values =
      (values.drop (asI64 offset).toNat).take limit := by
    unfold page
    by_cases small : limit < 2 ^ 63
    · rw [as_i64_small small, if_neg (by omega), Int.toNat_natCast]
    · have large := as_i64_large (Nat.not_lt.mp small) limitWord
      rw [if_pos large]
      apply (List.take_of_length_le _).symm
      rw [List.length_drop]
      omega
  rw [limited]
  by_cases small : offset < 2 ^ 63
  · rw [as_i64_small small, Int.toNat_natCast]
    exact ⟨fun _ => Or.inl small, fun _ => rfl⟩
  · have large := as_i64_large (Nat.not_lt.mp small) offsetWord
    have zero : (asI64 offset).toNat = 0 := Int.toNat_of_nonpos (le_of_lt large)
    have beyond : values.drop offset = [] := List.drop_eq_nil_of_le (by omega)
    rw [zero, beyond, List.drop_zero, List.take_nil, List.take_eq_nil_iff]
    constructor
    · exact Or.inr
    · rintro (below | other)
      · exact absurd below small
      · exact other

structure Served (json : LogJson) (run : LogRun) (serviceId : Uuid) (limit offset : Nat) : Prop where
  retained : Retained json run serviceId
  listed : listHttpRequestLogs json none serviceId limit offset run.table =
    .ok (window limit offset (sinceDeletion serviceId run.succeeded))
  apart : ∀ fault call, serviceId ≠ LogCall.service call →
    (run.step json (fault, call)).table.rows serviceId = run.table.rows serviceId

/-- After any calls the rows are the last logs, and each window of them is returned as
asked for exactly when the offset survives the cast to a signed word, or the window is
empty anyway. -/
theorem http_request_logs_served_iff (roundTrips : json.RoundTrips)
    (calls : List (Option String × LogCall)) (serviceId : Uuid) {limit offset : Nat}
    (limitWord : limit < 2 ^ 64) (offsetWord : offset < 2 ^ 64) :
    Served json (logRun json calls) serviceId limit offset ↔
      offset < 2 ^ 63 ∨ limit = 0 ∨
        sinceDeletion serviceId (logRun json calls).succeeded = [] := by
  obtain ⟨first, texts, holds, stored⟩ := @run_numbered json calls serviceId
  generalize (logRun json calls) = run at holds stored
  have length := kept_length (sinceDeletion serviceId run.succeeded)
  have cap : maxHttpRequestLogsPerService = 2000 := rfl
  have short : (kept (sinceDeletion serviceId run.succeeded)).reverse.length < 2 ^ 63 := by
    rw [List.length_reverse]
    omega
  have empty : (kept (sinceDeletion serviceId run.succeeded)).reverse = [] ↔
      sinceDeletion serviceId run.succeeded = [] := by
    rw [List.reverse_eq_nil_iff, ← List.length_eq_zero_iff, ← List.length_eq_zero_iff, length]
    omega
  have listing : listHttpRequestLogs json none serviceId limit offset run.table =
      .ok (page (asI64 limit) (asI64 offset)
        (kept (sinceDeletion serviceId run.succeeded)).reverse) := by
    unfold listHttpRequestLogs
    dsimp only
    rw [holds.descending]
    exact read_back roundTrips (page_stored (List.rel_reverse stored) _ _)
  have windowed := page_window_iff short limitWord offsetWord
  rw [empty] at windowed
  rw [← windowed]
  constructor
  · intro served
    have both := served.listed
    rw [listing] at both
    exact Except.ok.inj both
  · intro same
    refine ⟨?_, ?_, ?_⟩
    · unfold Retained
      rw [holds.ascending]
      exact read_back roundTrips stored
    · rw [listing, same]
      rfl
    · intro fault call different
      exact perform_other fault run.table different

def demoLog (path : String) : HttpRequestLog :=
  ⟨⟨1⟩, ⟨2⟩, "shop.example.org", "GET", path, 200, "172.18.0.2:8080", "HTTP/1.1", 0⟩

def demoLogs : List HttpRequestLog := [demoLog "/", demoLog "/cart"]

def demoText (log : HttpRequestLog) : String :=
  "\x7b\"service_id\":\"00000000-0000-0000-0000-000000000001\"," ++
    "\"app_id\":\"00000000-0000-0000-0000-000000000002\",\"domain\":\"shop.example.org\"," ++
    "\"method\":\"GET\",\"path\":\"" ++ log.path ++ "\",\"status\":200," ++
    "\"upstream\":\"172.18.0.2:8080\",\"protocol\":\"HTTP/1.1\"," ++
    "\"created_at\":\"1970-01-01T00:00:00Z\"\x7d"

/-- `serde_json` at these two logs. -/
def demoJson : LogJson where
  toText log := if log ∈ demoLogs then .ok (demoText log) else .error "unsupported"
  fromText text := match demoLogs.find? fun log => demoText log = text with
    | some log => .ok log
    | none => .error "expected value"

theorem demo_json_round_trips : demoJson.RoundTrips := by
  have each : ∀ log ∈ demoLogs, (demoJson.fromText (demoText log)).toOption = some log := by
    decide +kernel
  intro log text written
  unfold demoJson at written
  dsimp only at written
  split_ifs at written with known
  cases written
  exact ok_of_to_option (each log known)

def demoCalls : List (Option String × LogCall) := demoLogs.map fun log => (none, .append log)

/-- The newest log is the first page, the one before it the second. -/
theorem first_page_served : Served demoJson (logRun demoJson demoCalls) ⟨1⟩ 1 0 ∧
    Served demoJson (logRun demoJson demoCalls) ⟨1⟩ 1 1 :=
  ⟨(http_request_logs_served_iff demo_json_round_trips demoCalls ⟨1⟩ (by decide) (by decide)).mpr
    (Or.inl (by decide)),
    (http_request_logs_served_iff demo_json_round_trips demoCalls ⟨1⟩ (by decide) (by decide)).mpr
    (Or.inl (by decide))⟩

/-- The page after the first `2^63` logs holds the newest. -/
theorem far_page_not_served : ¬Served demoJson (logRun demoJson demoCalls) ⟨1⟩ 1 (2 ^ 63) := by
  intro served
  have holds : (logRun demoJson demoCalls).table.Holds ⟨1⟩ 0 (demoLogs.map demoText) := by
    unfold IndexedLog.Holds
    decide +kernel
  have listed := served.listed
  unfold listHttpRequestLogs at listed
  dsimp only at listed
  rw [holds.descending] at listed
  have read : ((page (asI64 1) (asI64 (2 ^ 63)) (demoLogs.map demoText).reverse).mapM
      demoJson.fromText).toOption = some [demoLog "/cart"] := by decide +kernel
  have asked : window 1 (2 ^ 63) (sinceDeletion ⟨1⟩ (logRun demoJson demoCalls).succeeded) = [] := by
    decide +kernel
  rw [listed, asked] at read
  cases read

end Containr.RequestLogs
