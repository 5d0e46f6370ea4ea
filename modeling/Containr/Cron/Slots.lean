import Containr.Cron.Scheduler

/-!
# Every slot of a schedule fires at most once

Nothing is assumed of the store, of docker or of the network: every call other than
a reading of the clock may answer anything, so apps, schedules and deployments
change freely and launches fail at any point. The clock never goes back. The
invariant `Slots` says that the entry of a key names an occurrence of its own
schedule which lies after every attempt made for that key so far.
-/

namespace Containr.Cron

open Containr.Effect
open Containr.Effect.Program

variable {Cron : Type}

/-- `find_next_occurrence(start, false)` is the least occurrence after `start`. -/
def Croner.Least (croner : Croner Cron) (occurs : Cron → Time → Prop) : Prop :=
  ∀ cron start next, croner.findNextOccurrence cron start = .ok next →
    start < next ∧ occurs cron next ∧ ∀ time, start < time → occurs cron time → next ≤ time

def ReadBetween (before now after : Time) : Prop := before ≤ now ∧ now ≤ after

def Clocked : Behaviour Effects Time
  | .utcNow, before, answer, after => ReadBetween before answer after
  | _, before, _, after => before ≤ after

/-- The schedule occurs after `earlier` and not after `later`. -/
def Croner.OccursWithin (croner : Croner Cron) (occurs : Cron → Time → Prop) (schedule : String)
    (earlier later : Time) : Prop :=
  ∃ cron slot, croner.fromStr schedule = .ok cron ∧ occurs cron slot ∧ earlier < slot ∧ slot ≤ later

def CronScheduleState.Ahead (croner : Croner Cron) (occurs : Cron → Time → Prop)
    (log : List Attempt) (key : Key) (state : CronScheduleState) : Prop :=
  (∃ cron, croner.fromStr state.schedule = .ok cron ∧ occurs cron state.nextRunAt) ∧
    ∀ attempt ∈ log, attempt.key = key → attempt.time < state.nextRunAt

structure Slots (croner : Croner Cron) (occurs : Cron → Time → Prop) (log : List Attempt)
    (schedules : Schedules) (clock : Time) : Prop where
  past : ∀ attempt ∈ log, attempt.time ≤ clock
  ahead : ∀ key state, schedules.get key = some state → state.Ahead croner occurs log key
  apart : log.Pairwise fun earlier later => earlier.time ≤ later.time ∧
    (earlier.key = later.key →
      croner.OccursWithin occurs later.schedule earlier.time later.time)
  untracked : ∀ attempt ∈ log, attempt.key ∉ attempt.tracked

theorem clocked_le {op : Op} {before after : Time} {answer : op.Answer}
    (can : Clocked op before answer after) : before ≤ after := by
  cases op with
  | utcNow => exact can.1.trans can.2
  | _ => exact can

theorem clock_ensures {Value : Type} (program : Sys Value) (clock : Time) :
    program.Ensures Clocked (fun _ after => clock ≤ after) clock := by
  have kept := @always_of_step Effects Value Time Clocked (clock ≤ ·) program
    (fun op before answer after reached can => reached.trans (clocked_le can)) clock le_rfl
  exact kept.restrict (fun _ _ _ _ can => can) fun _ _ _ => trivial

theorem utc_now_ensures {post : Time → Time → Prop} {clock : Time}
    (reached : ∀ now after, clock ≤ now → now ≤ after → post now after) :
    utcNow.Ensures Clocked post clock := by
  apply always_op trivial
  intro now after can
  exact reached now after can.1 can.2

section Invariant

variable {scheduler : CronJobScheduler Cron} {occurs : Cron → Time → Prop} {log : List Attempt}
  {schedules : Schedules} {clock : Time} {deploymentId : Uuid} {state : CronScheduleState}

theorem next_schedule_state_eq {schedule : String} {start : Time}
    (least : scheduler.croner.Least occurs)
    (computed : nextScheduleState scheduler schedule deploymentId start = .ok state) :
    state.schedule = schedule ∧ start < state.nextRunAt ∧
      ∃ cron, scheduler.croner.fromStr schedule = .ok cron ∧ occurs cron state.nextRunAt := by
  unfold nextScheduleState at computed
  cases parsed : scheduler.croner.fromStr schedule with
  | error message => simp [parsed] at computed
  | ok cron =>
      cases found : scheduler.croner.findNextOccurrence cron start with
      | error message => simp [parsed, found] at computed
      | ok next =>
          simp only [parsed, found, Except.ok.injEq] at computed
          have spec := least cron start next found
          rw [← computed]
          exact ⟨rfl, spec.1, cron, rfl, spec.2.1⟩

theorem Slots.later (slots : Slots scheduler.croner occurs log schedules clock) {now : Time}
    (passed : clock ≤ now) : Slots scheduler.croner occurs log schedules now where
  past attempt member := (slots.past attempt member).trans passed
  ahead := slots.ahead
  apart := slots.apart
  untracked := slots.untracked

/-- Entries may be dropped at any time. -/
theorem Slots.fewer (slots : Slots scheduler.croner occurs log schedules clock)
    {fewer : Schedules}
    (kept : ∀ key state, fewer.get key = some state → schedules.get key = some state) :
    Slots scheduler.croner occurs log fewer clock where
  past := slots.past
  ahead key state found := slots.ahead key state (kept key state found)
  apart := slots.apart
  untracked := slots.untracked

theorem Slots.remove (slots : Slots scheduler.croner occurs log schedules clock) (key : Key) :
    Slots scheduler.croner occurs log (schedules.remove key) clock := by
  apply slots.fewer
  intro other state found
  rw [Map.get_remove] at found
  split_ifs at found
  exact found

theorem Slots.retain (slots : Slots scheduler.croner occurs log schedules clock)
    (keep : Key → CronScheduleState → Bool) :
    Slots scheduler.croner occurs log (schedules.retain keep) clock := by
  apply slots.fewer
  intro key state found
  rw [Map.get_retain] at found
  exact (Option.filter_eq_some_iff.mp found).1

/-- A new entry is computed from a time that no attempt is after. -/
theorem Slots.insert (slots : Slots scheduler.croner occurs log schedules clock)
    (least : scheduler.croner.Least occurs) (key : Key) {schedule : String} {now : Time}
    (passed : clock ≤ now)
    (computed : nextScheduleState scheduler schedule deploymentId now = .ok state) :
    Slots scheduler.croner occurs log (schedules.insert key state) clock where
  past := slots.past
  ahead other found isIt := by
    rw [Map.get_insert] at isIt
    split_ifs at isIt with same
    · have sameState : state = found := Option.some.inj isIt
      obtain ⟨schedule_eq, after, occurrence⟩ := next_schedule_state_eq least computed
      rw [← sameState]
      refine ⟨by rw [schedule_eq]; exact occurrence, ?_⟩
      intro attempt member _
      calc attempt.time ≤ clock := slots.past attempt member
        _ ≤ now := passed
        _ < state.nextRunAt := after
    · exact slots.ahead other found isIt
  apart := slots.apart
  untracked := slots.untracked

/-- The attempt of a due entry: the slot it was waiting for separates it from every
earlier attempt for the key. -/
theorem Slots.attempt (slots : Slots scheduler.croner occurs log schedules clock) {key : Key}
    {state : CronScheduleState} {now : Time} {tracked : List Key}
    (found : schedules.get key = some state) (passed : clock ≤ now) (due : state.nextRunAt ≤ now)
    (free : key ∉ tracked) :
    Slots scheduler.croner occurs (log ++ [⟨key, state.schedule, now, tracked⟩])
      (schedules.remove key) now := by
  obtain ⟨⟨cron, parsed, occurrence⟩, ahead⟩ := slots.ahead key state found
  constructor
  · intro attempt member
    rcases List.mem_append.mp member with earlier | isNew
    · exact (slots.past attempt earlier).trans passed
    · rw [List.mem_singleton.mp isNew]
  · intro other entry isIt
    rw [Map.get_remove] at isIt
    split_ifs at isIt with same
    have before := slots.ahead other entry isIt
    refine ⟨before.1, ?_⟩
    intro attempt member sameKey
    rcases List.mem_append.mp member with earlier | isNew
    · exact before.2 attempt earlier sameKey
    · rw [List.mem_singleton.mp isNew] at sameKey
      exact absurd sameKey.symm same
  · apply List.pairwise_append.mpr
    refine ⟨slots.apart, List.pairwise_singleton _ _, ?_⟩
    intro earlier member latest isNew
    rw [List.mem_singleton.mp isNew]
    refine ⟨(slots.past earlier member).trans passed, ?_⟩
    intro sameKey
    exact ⟨cron, state.nextRunAt, parsed, occurrence, ahead earlier member sameKey, due⟩
  · intro attempt member
    rcases List.mem_append.mp member with earlier | isNew
    · exact slots.untracked attempt earlier
    · rw [List.mem_singleton.mp isNew]
      exact free

end Invariant

section OnePass

variable {scheduler : CronJobScheduler Cron} {occurs : Cron → Time → Prop} {log : List Attempt}
  {clock : Time}

/-- The invariant of a pass that follows the attempts of `log`. -/
def Pass.Slotted (croner : Croner Cron) (occurs : Cron → Time → Prop) (log : List Attempt)
    (pass : Pass) (clock : Time) : Prop :=
  Slots croner occurs (log ++ pass.attempts) pass.schedules clock

theorem ensure_state_ensures (least : scheduler.croner.Least occurs) {schedules : Schedules}
    (slots : Slots scheduler.croner occurs log schedules clock) (key : Key) (schedule : String)
    (deploymentId : Uuid) :
    (ensureState scheduler schedules key schedule deploymentId).Ensures Clocked
      (fun result after => Slots scheduler.croner occurs log result after ∧
        ∀ state, result.get key = some state → state.schedule = schedule) clock := by
  unfold ensureState
  split_ifs with needed
  · apply always_bind.mpr
    apply utc_now_ensures
    intro now after passed reached
    apply always_pure.mpr
    cases computed : nextScheduleState scheduler schedule deploymentId now with
    | error message =>
        refine ⟨(slots.remove key).later (passed.trans reached), ?_⟩
        simp
    | ok state =>
        refine ⟨(slots.insert least key passed computed).later (passed.trans reached), ?_⟩
        intro found isIt
        simp only [Map.get_insert, if_true, Option.some.injEq] at isIt
        rw [← isIt]
        exact (next_schedule_state_eq least computed).1
  · apply always_pure.mpr
    refine ⟨slots, ?_⟩
    intro state found
    simp only [needsState, found, Bool.or_eq_true, decide_eq_true_eq, not_or, not_not] at needed
    exact needed.1

variable {deployment : Deployment} {pass : Pass} {service : ContainerService}
  {shared : List (String × String)} {app : App}

theorem attempt_launch_ensures (slotted : pass.Slotted scheduler.croner occurs log clock) :
    (attemptLaunch scheduler app deployment shared service pass).Ensures Clocked
      (fun result after => result.Slotted scheduler.croner occurs log after) clock := by
  unfold attemptLaunch
  apply (clock_ensures _ clock).bind
  intro launched now passed
  cases launched with
  | ok name =>
      apply always_pure.mpr
      exact Slots.later slotted passed
  | error message =>
      apply (clock_ensures _ now).bind
      intro _ after reached
      apply always_pure.mpr
      exact Slots.later slotted (passed.trans reached)

theorem run_due_job_ensures (least : scheduler.croner.Least occurs) {state : CronScheduleState}
    (slotted : pass.Slotted scheduler.croner occurs log clock)
    (found : pass.schedules.get (app.id, service.id) = some state) (due : state.nextRunAt ≤ clock)
    (free : (app.id, service.id) ∉ pass.runningJobs.keys) :
    (runDueJob scheduler app deployment shared service state.schedule pass).Ensures Clocked
      (fun result after => result.Slotted scheduler.croner occurs log after) clock := by
  unfold runDueJob
  apply always_bind.mpr
  apply utc_now_ensures
  intro now after passed reached
  cases computed : nextScheduleState scheduler state.schedule deployment.id now with
  | error message =>
      apply always_pure.mpr
      exact (Slots.remove slotted _).later (passed.trans reached)
  | ok next =>
      apply attempt_launch_ensures
      have made := Slots.attempt slotted found passed (due.trans passed) free
      have advanced := made.insert least (app.id, service.id) le_rfl computed
      have entries : ∀ key entry,
          (pass.schedules.insert (app.id, service.id) next).get key = some entry →
          ((pass.schedules.remove (app.id, service.id)).insert (app.id, service.id) next).get key =
            some entry := by
        intro key entry isIt
        rw [Map.get_insert] at isIt ⊢
        split_ifs at isIt ⊢ with same
        · exact isIt
        · rw [Map.get_remove, if_neg same]
          exact isIt
      have slots := (advanced.fewer entries).later reached
      unfold Pass.Slotted
      rw [← List.append_assoc]
      exact slots

theorem run_if_due_ensures (least : scheduler.croner.Least occurs) {schedule : String}
    (slotted : pass.Slotted scheduler.croner occurs log clock)
    (inForce : ∀ state, pass.schedules.get (app.id, service.id) = some state →
      state.schedule = schedule) :
    (runIfDue scheduler app deployment shared service schedule pass).Ensures Clocked
      (fun result after => result.Slotted scheduler.croner occurs log after) clock := by
  unfold runIfDue
  cases found : pass.schedules.get (app.id, service.id) with
  | none =>
      apply always_pure.mpr
      exact slotted
  | some state =>
      rw [← inForce state found]
      dsimp only
      split_ifs with tracked
      · apply always_pure.mpr
        exact slotted
      · apply always_bind.mpr
        apply utc_now_ensures
        intro now after passed reached
        split_ifs with early
        · apply always_pure.mpr
          exact Slots.later slotted (passed.trans reached)
        · have free : (app.id, service.id) ∉ pass.runningJobs.keys := by
            rw [← Map.contains_eq_mem_keys]
            exact tracked
          exact run_due_job_ensures least (Slots.later slotted (passed.trans reached)) found
            ((not_lt.mp early).trans reached) free

theorem poll_service_ensures (least : scheduler.croner.Least occurs)
    (slotted : pass.Slotted scheduler.croner occurs log clock) (service : ContainerService) :
    (pollService scheduler app deployment shared pass service).Ensures Clocked
      (fun result after => result.Slotted scheduler.croner occurs log after) clock := by
  unfold pollService
  cases service.schedule with
  | none =>
      apply always_pure.mpr
      exact slotted
  | some schedule =>
      apply (ensure_state_ensures least slotted (app.id, service.id) schedule deployment.id).bind
      rintro schedules after ⟨slots, inForce⟩
      exact run_if_due_ensures least slots inForce

theorem poll_app_ensures (least : scheduler.croner.Least occurs)
    (slotted : pass.Slotted scheduler.croner occurs log clock) (app : App) :
    (pollApp scheduler pass app).Ensures Clocked
      (fun result after => result.2.Slotted scheduler.croner occurs log after) clock := by
  unfold pollApp
  apply (clock_ensures _ clock).bind
  intro resolved now passed
  have still := Slots.later slotted passed
  rcases resolved with message | none | deployment
  · apply always_pure.mpr
    exact still
  · apply always_pure.mpr
    exact still
  · apply always_bind.mpr
    apply always_fold (fun _ pass clock => pass.Slotted scheduler.croner occurs log clock) _ [] _ _
      still
    · intro polled after reached
      apply always_pure.mpr
      exact reached
    · intro _ service _ polled state _ reached
      exact poll_service_ensures least reached service

theorem forget_inactive_ensures (slotted : pass.Slotted scheduler.croner occurs log clock) :
    (forgetInactive pass).Ensures Clocked
      (fun result after => result.Slotted scheduler.croner occurs log after) clock := by
  unfold forgetInactive
  apply (clock_ensures _ clock).bind
  intro keys now passed
  apply (clock_ensures _ now).bind
  intro jobs after reached
  apply always_pure.mpr
  exact (Slots.retain slotted fun key _ => key ∈ pass.activeKeys).later (passed.trans reached)

theorem poll_apps_ensures (least : scheduler.croner.Least occurs)
    (slotted : pass.Slotted scheduler.croner occurs log clock) :
    (pollApps scheduler pass).Ensures Clocked
      (fun result after => result.2.Slotted scheduler.croner occurs log after) clock := by
  unfold pollApps
  apply (clock_ensures _ clock).bind
  intro listed now passed
  have still := Slots.later slotted passed
  cases listed with
  | error message =>
      apply always_pure.mpr
      exact still
  | ok apps =>
      apply always_bind.mpr
      apply always_iterate (fun _ pass clock => pass.Slotted scheduler.croner occurs log clock) _ []
        _ _ still
      · intro polled after reached
        apply (forget_inactive_ensures reached).bind
        intro final last held
        apply always_pure.mpr
        exact held
      · intro _ app _ polled state _ reached
        apply (poll_app_ensures least reached app).mono
        rintro ⟨result, next⟩ after held
        cases result with
        | ok _ => exact held
        | error message =>
            apply always_pure.mpr
            exact held

/-- One pass extends the log and keeps the invariant, however it ends. -/
theorem poll_once_ensures (least : scheduler.croner.Least occurs) {tables : Tables}
    (slots : Slots scheduler.croner occurs log tables.schedules clock) :
    (pollOnce scheduler tables).Ensures Clocked (fun result after =>
      Slots scheduler.croner occurs (log ++ result.2.attempts) result.2.schedules after) clock := by
  unfold pollOnce
  apply (clock_ensures _ clock).bind
  intro jobs now passed
  have start : (⟨tables.schedules, jobs, [], []⟩ : Pass).Slotted scheduler.croner occurs log now := by
    unfold Pass.Slotted
    rw [List.append_nil]
    exact slots.later passed
  exact poll_apps_ensures least start

end OnePass

inductive Polls (scheduler : CronJobScheduler Cron) : List Attempt → Tables → Time → Prop where
  | start (clock : Time) : Polls scheduler [] Tables.empty clock
  | wait {log : List Attempt} {tables : Tables} {clock later : Time}
      (earlier : Polls scheduler log tables clock) (passed : clock ≤ later) :
      Polls scheduler log tables later
  | poll {log : List Attempt} {tables : Tables} {clock after : Time} {result : Except String Unit}
      {pass : Pass} (earlier : Polls scheduler log tables clock)
      (run : Runs Clocked (pollOnce scheduler tables) clock (result, pass) after) :
      Polls scheduler (log ++ pass.attempts) pass.tables after

theorem polls_slots {scheduler : CronJobScheduler Cron} {occurs : Cron → Time → Prop}
    (least : scheduler.croner.Least occurs) {log : List Attempt} {tables : Tables} {clock : Time}
    (polls : Polls scheduler log tables clock) :
    Slots scheduler.croner occurs log tables.schedules clock := by
  induction polls with
  | start clock =>
      constructor
      · simp
      · intro key state found
        cases found
      · exact List.Pairwise.nil
      · simp
  | wait earlier passed ih => exact ih.later passed
  | poll earlier run ih => exact (poll_once_ensures least ih).runs run

/-- Two attempts for one key are separated by an occurrence of the schedule in force
at the later one, and no attempt is made for a key that is tracked as running. -/
theorem cron_slots_fire_once (scheduler : CronJobScheduler Cron) (occurs : Cron → Time → Prop)
    (least : scheduler.croner.Least occurs) (log : List Attempt) (tables : Tables) (clock : Time)
    (polls : Polls scheduler log tables clock) :
    (∀ earlier ∈ log, ∀ later ∈ log, earlier.key = later.key → earlier.time < later.time →
      scheduler.croner.OccursWithin occurs later.schedule earlier.time later.time) ∧
    ∀ attempt ∈ log, attempt.key ∉ attempt.tracked := by
  have slots := polls_slots least polls
  refine ⟨?_, slots.untracked⟩
  let separated : Attempt → Attempt → Prop := fun first second =>
    first.key = second.key → first.time < second.time →
      scheduler.croner.OccursWithin occurs second.schedule first.time second.time
  -- the log is in the order of time, so a pair the other way round is not in question
  have forwards : log.Pairwise separated := by
    apply slots.apart.imp
    intro first second pair sameKey _
    exact pair.2 sameKey
  have backwards : log.Pairwise (flip separated) := by
    apply slots.apart.imp
    intro first second pair _ turned
    exact absurd turned (not_lt.mpr pair.1)
  have alone : ∀ attempt ∈ log, separated attempt attempt := by
    intro attempt _ _ turned
    exact absurd turned (lt_irrefl _)
  intro earlier inLog later inLogToo
  exact forwards.forall_of_forall_of_flip alone backwards inLog inLogToo

/-! A first pass computes the slot, a launch fails in the second minute and the job
is launched in the third. -/

theorem every_minute_least : everyMinute.Least fun _ time => time % 60 = 0 := by
  intro cron start next found
  have next_eq : (start / 60 + 1) * 60 = next := Except.ok.inj found
  rw [← next_eq]
  refine ⟨?_, ?_, ?_⟩
  · exact Nat.lt_mul_of_div_lt (Nat.lt_succ_self _) (by decide)
  · exact Nat.mul_mod_left _ _
  · intro time after occurs
    have whole : time / 60 * 60 = time := Nat.div_mul_cancel (Nat.dvd_of_mod_eq_zero occurs)
    have later : start / 60 < time / 60 := by
      apply Nat.div_lt_of_lt_mul
      rw [Nat.mul_comm, whole]
      exact after
    calc (start / 60 + 1) * 60 ≤ time / 60 * 60 := Nat.mul_le_mul_right 60 later
      _ = time := whole

theorem runs_clocked {Value : Type} (program : Sys Value) (policy : system.Policy) (time : Time)
    (reads : ∀ world, policy .utcNow world = time) (world : World) :
    Runs Clocked program time (program.run system policy world).1 time := by
  induction program generalizing world with
  | pure value => exact .pure value time
  | call op next ih =>
      have possible : Clocked op time (system.exec op (policy op world) world).1 time := by
        cases op with
        | utcNow =>
            have answer : (system.exec .utcNow (policy .utcNow world) world).1 = time :=
              reads world
            rw [answer]
            exact ⟨le_rfl, le_rfl⟩
        | _ => exact le_rfl
      exact .call possible (ih _ _)

def demoPass (policy : system.Policy) (tables : Tables) : Except String Unit × Pass :=
  ((pollOnce demoScheduler tables).run system policy demoCronWorld).1

def demoFirst : Except String Unit × Pass := demoPass (calmAt 0) Tables.empty

def demoFailed : Except String Unit × Pass := demoPass (refusingAt 65) demoFirst.2.tables

def demoLaunched : Except String Unit × Pass := demoPass (calmAt 130) demoFailed.2.tables

theorem demo_pass_runs {policy : system.Policy} {time : Time} {tables : Tables}
    (reads : ∀ world, policy .utcNow world = time) :
    Runs Clocked (pollOnce demoScheduler tables) time
      ((demoPass policy tables).1, (demoPass policy tables).2) time :=
  runs_clocked _ policy time reads demoCronWorld

theorem demo_polls : Polls demoScheduler
    (([] ++ demoFirst.2.attempts) ++ demoFailed.2.attempts ++ demoLaunched.2.attempts)
    demoLaunched.2.tables 130 := by
  have opened : Polls demoScheduler [] Tables.empty 0 := .start 0
  have first : Polls demoScheduler ([] ++ demoFirst.2.attempts) demoFirst.2.tables 0 :=
    opened.poll (demo_pass_runs fun _ => rfl)
  have failed : Polls demoScheduler (([] ++ demoFirst.2.attempts) ++ demoFailed.2.attempts)
      demoFailed.2.tables 65 :=
    (first.wait (by decide)).poll (demo_pass_runs fun _ => rfl)
  exact (failed.wait (by decide)).poll (demo_pass_runs fun _ => rfl)

theorem cron_slots_fire_once_minutely : ∃ log tables, Polls demoScheduler log tables 130 ∧
    log.map (fun attempt => (attempt.key, attempt.time)) =
      [((⟨1⟩, ⟨2⟩), 65), ((⟨1⟩, ⟨2⟩), 130)] ∧
    (∀ earlier ∈ log, ∀ later ∈ log, earlier.key = later.key → earlier.time < later.time →
      everyMinute.OccursWithin (fun _ time => time % 60 = 0) later.schedule earlier.time
        later.time) ∧
    ∀ attempt ∈ log, attempt.key ∉ attempt.tracked :=
  ⟨_, _, demo_polls, by decide +kernel,
    cron_slots_fire_once demoScheduler _ every_minute_least _ _ _ demo_polls⟩

end Containr.Cron
