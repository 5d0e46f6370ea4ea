import Containr.Identifiers
import Containr.Lines

/-!
# `handle_container_logs` of `containr-api/src/handlers/websocket.rs`

A task for each container reads its log stream and sends the formatted chunks down one unbounded
channel; a loop forwards them to the socket. The log streams of docker are the input. A step is one
chunk read by a task or one turn of the loop, in any order.
-/

namespace Containr.Api.ContainerLogs

open Containr.Text

def labelled (containerId line : String) : String := "[" ++ containerId ++ "] " ++ line

def formatLogChunk (containerId text : String) (multiContainer : Bool) : String :=
  let trimmed := trimEnd text
  if trimmed.isEmpty then ""
  else if !multiContainer then trimmed
  else join "\n" ((lines trimmed).map (labelled containerId))

inductive LogEntry where
  | output (text : String)
  | error (message : String)
deriving DecidableEq, Repr

/-- What comes behind the entries: docker closes the stream, or it stays open. -/
inductive Ending where
  | closes | open_
deriving DecidableEq, Repr

structure LogStream where
  entries : List LogEntry
  ending : Ending
deriving DecidableEq, Repr

def errorText (label message : String) : String :=
  "[error reading logs for " ++ label ++ ": " ++ message ++ "]"

structure Task where
  label : String
  stream : LogStream
  running : Bool
deriving DecidableEq, Repr

/-- One round of the loop of a task, and the text it sends; `none` while nothing comes. -/
def Task.round (multiContainer : Bool) (task : Task) : Option (Task × Option String) :=
  match task.stream with
  | ⟨.output output :: rest, ending⟩ =>
      let text := formatLogChunk task.label output multiContainer
      if text.isEmpty then some ({ task with stream := ⟨rest, ending⟩, running := false }, none)
      else some ({ task with stream := ⟨rest, ending⟩ }, some text)
  | ⟨.error message :: rest, ending⟩ =>
      some ({ task with stream := ⟨rest, ending⟩, running := false },
        some (errorText task.label message))
  | ⟨[], .closes⟩ => some ({ task with running := false }, none)
  | ⟨[], .open_⟩ => none

/-- A text with the place of its container in the list; only statements look at the place. -/
abbrev Tagged := Nat × String

structure Session where
  multiContainer : Bool
  tasks : List Task
  channel : List Tagged
  /-- What the socket took, in order. -/
  forwarded : List Tagged
  /-- The loop has not ended. -/
  looping : Bool
  /-- The client closed the socket, or it broke. -/
  clientLeft : Bool

def severalContainers (containers : List (String × LogStream)) : Bool := containers.length > 1

def openSession (containers : List (String × LogStream)) : Session where
  multiContainer := severalContainers containers
  tasks := containers.map fun container => ⟨container.1, container.2, true⟩
  channel := []
  forwarded := []
  looping := true
  clientLeft := false

/-- What happens before the streams are read. -/
inductive Opened where
  | left
  | noInstances (messages : List String)
  | noDocker (messages : List String)
  | streaming (messages : List String) (session : Session)

def refusal : Except String Unit → Option String
  | .error message => some message
  | .ok () => none

/-- `greeted` says whether the socket took the greeting; docker is connected to once for each
container. A task that was spawned before a refusal finds its channel closed. -/
def openContainerLogs (serviceId : Uuid) (greeted : Bool) (connections : List (Except String Unit))
    (containers : List (String × LogStream)) : Opened :=
  let greeting := "[connected to container logs for " ++ serviceId.toString ++ "]"
  if !greeted then .left
  else if containers.isEmpty then .noInstances [greeting, "[service has no running instances]"]
  else
    match connections.findSome? refusal with
    | some message => .noDocker [greeting, "[error: failed to connect to docker: " ++ message ++ "]"]
    | none => .streaming [greeting] (openSession containers)

variable {containers : List (String × LogStream)} {session : Session}

theorem opened_session {serviceId : Uuid} {greeted : Bool} {connections : List (Except String Unit)}
    {messages : List String} (opened : openContainerLogs serviceId greeted connections containers =
      .streaming messages session) : session = openSession containers := by
  unfold openContainerLogs at opened
  split_ifs at opened
  cases refused : connections.findSome? refusal with
  | some message =>
      rw [refused] at opened
      cases opened
  | none =>
      rw [refused] at opened
      exact (Opened.streaming.inj opened).2.symm

def Session.stop (session : Session) (clientLeft : Bool) : Session :=
  { session with
    looping := false
    clientLeft := clientLeft
    tasks := session.tasks.map fun task => { task with running := false } }

inductive Step : Session → Session → Prop
  | read {session : Session} {place : Nat} {task next : Task} {text : Option String}
      (looping : session.looping = true) (there : session.tasks[place]? = some task)
      (running : task.running = true)
      (round : task.round session.multiContainer = some (next, text)) :
      Step session { session with
        tasks := session.tasks.set place next
        channel := session.channel ++ text.toList.map (place, ·) }
  | forward {session : Session} {first : Tagged} {rest : List Tagged}
      (looping : session.looping = true) (waiting : session.channel = first :: rest) :
      Step session { session with channel := rest, forwarded := session.forwarded ++ [first] }
  | broken {session : Session} {first : Tagged} {rest : List Tagged}
      (looping : session.looping = true) (waiting : session.channel = first :: rest) :
      Step session ({ session with channel := rest }.stop true)
  | message {session : Session} (looping : session.looping = true) : Step session session
  | leave {session : Session} (looping : session.looping = true) :
      Step session (session.stop true)
  | closed {session : Session} (looping : session.looping = true)
      (empty : session.channel = []) (done : ∀ task ∈ session.tasks, task.running = false) :
      Step session (session.stop false)

def LogEntry.isBlank : LogEntry → Bool
  | .output text => text.toList.all isWhitespace
  | .error _ => false

def shown (multiContainer : Bool) (label text : String) : String :=
  if multiContainer then join "\n" ((lines (trimEnd text)).map (labelled label)) else trimEnd text

def expected (multiContainer : Bool) (label : String) : List LogEntry → List String
  | [] => []
  | .output text :: rest =>
      if (LogEntry.output text).isBlank then expected multiContainer label rest
      else shown multiContainer label text :: expected multiContainer label rest
  | .error message :: _ => [errorText label message]

def textsOf (place : Nat) (texts : List Tagged) : List String :=
  (texts.filter fun text => text.1 = place).map Prod.snd

inductive Reachable (start : Session) : Session → Prop
  | start : Reachable start start
  | step {session next : Session} (before : Reachable start session) (step : Step session next) :
      Reachable start next

theorem Reachable.head {start next : Session} (reached : Reachable next session)
    (step : Step start next) : Reachable start session := by
  induction reached with
  | start => exact .step .start step
  | step _ last ih => exact .step ih last

def Session.Settled (session : Session) : Prop :=
  session.clientLeft = false ∧ (session.looping = false ∨ session.channel = [] ∧
    ∀ task ∈ session.tasks, task.running = true → task.round session.multiContainer = none)

structure Complete (containers : List (String × LogStream)) (session : Session) : Prop where
  inOrder : ∀ place label stream, containers[place]? = some (label, stream) →
    textsOf place session.forwarded <+:
      expected (severalContainers containers) label stream.entries
  whole : session.Settled → ∀ place label stream, containers[place]? = some (label, stream) →
    textsOf place session.forwarded =
      expected (severalContainers containers) label stream.entries
  blankGoesOn : ∀ task ∈ session.tasks, task.running = true →
    ∀ entry rest ending, task.stream = ⟨entry :: rest, ending⟩ → entry.isBlank = true →
      ∀ next text, task.round session.multiContainer = some (next, text) → next.running = true

def NoBlank : List LogEntry → Prop
  | [] => True
  | .output text :: rest => (LogEntry.output text).isBlank = false ∧ NoBlank rest
  | .error _ :: _ => True

theorem join_empty_iff {parts : List String} (visible : ∀ part ∈ parts, part ≠ "") :
    join "\n" parts = "" ↔ parts = [] := by
  cases parts with
  | nil => simp [join]
  | cons first rest =>
      have nonempty : first ≠ "" := visible first List.mem_cons_self
      cases rest with
      | nil => simp [join, nonempty]
      | cons second rest =>
          simp [join, nonempty]

theorem labelled_visible (label line : String) : labelled label line ≠ "" := by
  simp [labelled]

theorem is_blank_iff {text : String} :
    (LogEntry.output text).isBlank = true ↔ trimEnd text = "" := by
  rw [trim_end_empty_iff]
  simp [LogEntry.isBlank]

theorem format_log_chunk_empty (label text : String) (multiContainer : Bool) :
    (formatLogChunk label text multiContainer).isEmpty = (LogEntry.output text).isBlank := by
  rw [Bool.eq_iff_iff, is_blank_iff, String.isEmpty_iff]
  unfold formatLogChunk
  dsimp only
  split_ifs with nothing single
  · simpa using nothing
  · rfl
  · rw [join_empty_iff]
    · rw [List.map_eq_nil_iff, lines_nil_iff]
    · intro part member
      obtain ⟨line, -, same⟩ := List.mem_map.mp member
      rw [← same]
      exact labelled_visible label line

variable {label : String} {multiContainer : Bool}

theorem format_log_chunk_shown {text : String} (visible : (LogEntry.output text).isBlank = false) :
    formatLogChunk label text multiContainer = shown multiContainer label text := by
  have nonempty : trimEnd text ≠ "" := by
    rw [Ne, ← is_blank_iff, visible]
    simp
  unfold formatLogChunk shown
  cases multiContainer <;> simp [nonempty]

/-- The texts that come of the entries: the task ends at a blank chunk. -/
def sends (multiContainer : Bool) (label : String) : List LogEntry → List String
  | [] => []
  | .output text :: rest =>
      if (LogEntry.output text).isBlank then []
      else shown multiContainer label text :: sends multiContainer label rest
  | .error message :: _ => [errorText label message]

def Task.pending (multiContainer : Bool) (task : Task) : List String :=
  if task.running then sends multiContainer task.label task.stream.entries else []

theorem sends_expected {entries : List LogEntry} (visible : NoBlank entries) :
    sends multiContainer label entries = expected multiContainer label entries := by
  induction entries with
  | nil => rfl
  | cons entry rest ih =>
      cases entry with
      | error message => rfl
      | output text =>
          unfold sends expected
          rw [visible.1, ih visible.2]
          simp

section Round

variable {multiContainer : Bool} {task next : Task} {text : Option String}

theorem round_pending (running : task.running = true)
    (round : task.round multiContainer = some (next, text)) :
    next.label = task.label ∧
      task.pending multiContainer = text.toList ++ next.pending multiContainer := by
  obtain ⟨label, ⟨entries, ending⟩, isRunning⟩ := task
  dsimp only at running
  unfold Task.round at round
  unfold Task.pending
  rw [running] at round ⊢
  cases entries with
  | nil =>
      cases ending with
      | open_ => cases round
      | closes =>
          obtain ⟨same, none⟩ := Prod.mk.inj (Option.some.inj round)
          rw [← same, ← none]
          simp [sends]
  | cons entry rest =>
      cases entry with
      | error message =>
          obtain ⟨same, sent⟩ := Prod.mk.inj (Option.some.inj round)
          rw [← same, ← sent]
          simp [sends]
      | output output =>
          dsimp only at round
          rw [format_log_chunk_empty] at round
          split_ifs at round with blank
          · obtain ⟨same, none⟩ := Prod.mk.inj (Option.some.inj round)
            rw [← same, ← none]
            simp [sends, blank]
          · have visible : (LogEntry.output output).isBlank = false := by simpa using blank
            rw [format_log_chunk_shown visible] at round
            obtain ⟨same, sent⟩ := Prod.mk.inj (Option.some.inj round)
            rw [← same, ← sent]
            simp [sends, visible]

theorem round_no_blank (visible : NoBlank task.stream.entries)
    (round : task.round multiContainer = some (next, text)) (running : next.running = true) :
    NoBlank next.stream.entries := by
  obtain ⟨label, ⟨entries, ending⟩, isRunning⟩ := task
  unfold Task.round at round
  cases entries with
  | nil =>
      cases ending with
      | open_ => cases round
      | closes =>
          rw [← (Prod.mk.inj (Option.some.inj round)).1] at running
          cases running
  | cons entry rest =>
      cases entry with
      | error message =>
          rw [← (Prod.mk.inj (Option.some.inj round)).1] at running
          cases running
      | output output =>
          dsimp only at round
          split_ifs at round
          · rw [← (Prod.mk.inj (Option.some.inj round)).1] at running
            cases running
          · rw [← (Prod.mk.inj (Option.some.inj round)).1]
            exact visible.2

theorem round_none (waits : task.round multiContainer = none) : task.stream.entries = [] := by
  obtain ⟨label, ⟨entries, ending⟩, isRunning⟩ := task
  unfold Task.round at waits
  cases entries with
  | nil => rfl
  | cons entry rest =>
      cases entry with
      | error message => cases waits
      | output output =>
          dsimp only at waits
          split_ifs at waits

end Round

@[simp] theorem texts_of_append (place : Nat) (front back : List Tagged) :
    textsOf place (front ++ back) = textsOf place front ++ textsOf place back := by
  simp [textsOf]

@[simp] theorem texts_of_own (place : Nat) (text : Option String) :
    textsOf place (text.toList.map (place, ·)) = text.toList := by
  cases text <;> simp [textsOf]

theorem texts_of_other {place other : Nat} (different : other ≠ place) (text : Option String) :
    textsOf place (text.toList.map (other, ·)) = [] := by
  cases text <;> simp [textsOf, different]

/-- A container in a session: what was forwarded, what waits in the channel and what its task will
send is what comes of its stream. When the client has left, the rest is lost. -/
structure Followed (session : Session) (place : Nat) (label : String) (entries : List LogEntry)
    (task : Task) : Prop where
  there : session.tasks[place]? = some task
  sameLabel : task.label = label
  forwarded : textsOf place session.forwarded <+: sends session.multiContainer label entries
  whole : session.clientLeft = false →
    textsOf place session.forwarded ++ textsOf place session.channel ++
      task.pending session.multiContainer = sends session.multiContainer label entries

structure Kept (containers : List (String × LogStream)) (session : Session) : Prop where
  mode : session.multiContainer = severalContainers containers
  followed : ∀ place label stream, containers[place]? = some (label, stream) →
    ∃ task, Followed session place label stream.entries task
  present : session.looping = true → session.clientLeft = false
  finished : session.looping = false → session.clientLeft = false →
    session.channel = [] ∧ ∀ task ∈ session.tasks, task.running = false

theorem open_session_kept (containers : List (String × LogStream)) :
    Kept containers (openSession containers) where
  mode := rfl
  followed place label stream found := by
    refine ⟨⟨label, stream, true⟩, ?_, rfl, List.nil_prefix, ?_⟩
    · simp [openSession, found]
    · intro _
      simp [openSession, textsOf, Task.pending]
  present _ := rfl
  finished stopped := by cases stopped

section Step

variable {session : Session} {place : Nat} {label : String} {entries : List LogEntry} {task : Task}

theorem Followed.read (followed : Followed session place label entries task)
    (looping : session.clientLeft = false) {other : Nat} {own next : Task} {text : Option String}
    (there : session.tasks[other]? = some own) (running : own.running = true)
    (round : own.round session.multiContainer = some (next, text)) :
    ∃ task, Followed { session with
        tasks := session.tasks.set other next
        channel := session.channel ++ text.toList.map (other, ·) } place label entries task := by
  obtain ⟨sameLabel, pending⟩ := round_pending running round
  have whole := followed.whole looping
  by_cases here : other = place
  · rw [here] at there ⊢
    have sameTask : own = task := Option.some.inj (there.symm.trans followed.there)
    have inside := (List.getElem?_eq_some_iff.mp there).1
    refine ⟨next, ?_, ?_, followed.forwarded, ?_⟩
    · simp [inside]
    · rw [sameLabel, sameTask]
      exact followed.sameLabel
    · intro _
      rw [← sameTask, pending] at whole
      simpa using whole
  · refine ⟨task, ?_, followed.sameLabel, followed.forwarded, ?_⟩
    · dsimp only
      rw [List.getElem?_set_ne here]
      exact followed.there
    · intro _
      simpa [texts_of_other here] using whole

theorem Followed.forward (followed : Followed session place label entries task)
    (looping : session.clientLeft = false) {first : Tagged} {rest : List Tagged}
    (waiting : session.channel = first :: rest) :
    Followed { session with channel := rest, forwarded := session.forwarded ++ [first] } place label
      entries task := by
  have whole := followed.whole looping
  have split : textsOf place session.channel = textsOf place [first] ++ textsOf place rest := by
    rw [waiting, ← texts_of_append, List.singleton_append]
  rw [split, ← List.append_assoc] at whole
  refine ⟨followed.there, followed.sameLabel, ?_, ?_⟩
  · dsimp only
    rw [texts_of_append, ← whole, List.append_assoc]
    exact List.prefix_append _ _
  · intro _
    simpa using whole

/-- The client is gone: what was forwarded stays. -/
theorem Followed.stop (followed : Followed session place label entries task) (clientLeft : Bool)
    (channel : List Tagged) (finished : clientLeft = false → session.clientLeft = false ∧
      channel = session.channel ∧ task.running = false) :
    Followed ({ session with channel := channel }.stop clientLeft) place label entries
      { task with running := false } := by
  refine ⟨?_, followed.sameLabel, followed.forwarded, ?_⟩
  · simp [Session.stop, followed.there]
  · intro still
    obtain ⟨present, same, stopped⟩ := finished still
    have whole := followed.whole present
    simpa [Session.stop, same, Task.pending, stopped] using whole

end Step

theorem Kept.step {containers : List (String × LogStream)} {session next : Session}
    (kept : Kept containers session) (step : Step session next) : Kept containers next := by
  cases step with
  | message looping => exact kept
  | read looping there running round =>
      constructor
      · exact kept.mode
      · intro place label stream found
        obtain ⟨task, followed⟩ := kept.followed place label stream found
        exact followed.read (kept.present looping) there running round
      · exact kept.present
      · intro stopped
        exact absurd (looping.symm.trans stopped) (by simp)
  | forward looping waiting =>
      constructor
      · exact kept.mode
      · intro place label stream found
        obtain ⟨task, followed⟩ := kept.followed place label stream found
        exact ⟨task, followed.forward (kept.present looping) waiting⟩
      · exact kept.present
      · intro stopped
        exact absurd (looping.symm.trans stopped) (by simp)
  | @broken first rest looping waiting =>
      constructor
      · exact kept.mode
      · intro place label stream found
        obtain ⟨task, followed⟩ := kept.followed place label stream found
        exact ⟨_, followed.stop true rest (fun still => by cases still)⟩
      · intro again
        cases again
      · intro _ still
        cases still
  | leave looping =>
      constructor
      · exact kept.mode
      · intro place label stream found
        obtain ⟨task, followed⟩ := kept.followed place label stream found
        exact ⟨_, followed.stop true session.channel (fun still => by cases still)⟩
      · intro again
        cases again
      · intro _ still
        cases still
  | closed looping empty done =>
      constructor
      · exact kept.mode
      · intro place label stream found
        obtain ⟨task, followed⟩ := kept.followed place label stream found
        have stopped := done task (List.mem_of_getElem? followed.there)
        exact ⟨_, followed.stop false session.channel (fun _ => ⟨kept.present looping, rfl, stopped⟩)⟩
      · intro again
        cases again
      · intro _ _
        refine ⟨empty, ?_⟩
        intro task member
        obtain ⟨before, -, same⟩ := List.mem_map.mp member
        rw [← same]

theorem Reachable.kept (reached : Reachable (openSession containers) session) :
    Kept containers session := by
  induction reached with
  | start => exact open_session_kept containers
  | step _ step ih => exact ih.step step

theorem Reachable.no_blank (visible : ∀ container ∈ containers, NoBlank container.2.entries)
    (reached : Reachable (openSession containers) session) :
    ∀ task ∈ session.tasks, task.running = true → NoBlank task.stream.entries := by
  induction reached with
  | start =>
      intro task member _
      obtain ⟨container, inside, same⟩ := List.mem_map.mp member
      rw [← same]
      exact visible container inside
  | step _ step ih =>
      have stopped (session : Session) (clientLeft : Bool) : ∀ task ∈ (session.stop clientLeft).tasks,
          task.running = true → NoBlank task.stream.entries := by
        intro task member running
        obtain ⟨before, -, same⟩ := List.mem_map.mp member
        rw [← same] at running
        cases running
      cases step with
      | message looping => exact ih
      | forward looping waiting => exact ih
      | broken looping waiting => exact stopped _ true
      | leave looping => exact stopped _ true
      | closed looping empty done => exact stopped _ false
      | read looping there wasRunning round =>
          intro task member running
          rcases List.mem_or_eq_of_mem_set member with before | same
          · exact ih task before running
          · rw [same] at running ⊢
            exact round_no_blank (ih _ (List.mem_of_getElem? there) wasRunning) round running

theorem reads_on {place : Nat} {ending : Ending} (looping : session.looping = true)
    (front rest : List LogEntry)
    (visible : ∀ entry ∈ front, ∃ text, entry = .output text ∧ entry.isBlank = false)
    (there : session.tasks[place]? = some ⟨label, ⟨front ++ rest, ending⟩, true⟩) :
    ∃ next, Reachable session next ∧ next.looping = true ∧
      next.tasks[place]? = some ⟨label, ⟨rest, ending⟩, true⟩ := by
  induction front generalizing session with
  | nil => exact ⟨session, .start, looping, there⟩
  | cons entry front ih =>
      obtain ⟨text, isOutput, isVisible⟩ := visible entry List.mem_cons_self
      have inside := (List.getElem?_eq_some_iff.mp there).1
      have round : Task.round session.multiContainer ⟨label, ⟨entry :: (front ++ rest), ending⟩, true⟩ =
          some (⟨label, ⟨front ++ rest, ending⟩, true⟩,
            some (formatLogChunk label text session.multiContainer)) := by
        rw [isOutput] at isVisible ⊢
        unfold Task.round
        dsimp only
        rw [format_log_chunk_empty, isVisible]
        rfl
      have step := Step.read looping there rfl round
      have later : ∀ entry ∈ front, ∃ text, entry = .output text ∧ entry.isBlank = false :=
        fun entry member => visible entry (List.mem_cons_of_mem _ member)
      obtain ⟨next, reached, still, found⟩ := @ih { session with
        tasks := session.tasks.set place ⟨label, ⟨front ++ rest, ending⟩, true⟩
        channel := session.channel ++ [(place, formatLogChunk label text session.multiContainer)] }
        looping later (by simp [inside])
      exact ⟨next, reached.head step, still, found⟩

theorem no_blank_or_first (entries : List LogEntry) : NoBlank entries ∨
    ∃ front blank rest, entries = front ++ blank :: rest ∧ blank.isBlank = true ∧
      ∀ entry ∈ front, ∃ text, entry = .output text ∧ entry.isBlank = false := by
  induction entries with
  | nil => exact Or.inl trivial
  | cons entry rest ih =>
      cases entry with
      | error message => exact Or.inl trivial
      | output text =>
          cases blank : (LogEntry.output text).isBlank with
          | true => exact Or.inr ⟨[], _, rest, rfl, blank, by simp⟩
          | false =>
              rcases ih with visible | ⟨front, first, back, whole, isBlank, before⟩
              · exact Or.inl ⟨blank, visible⟩
              · refine Or.inr ⟨.output text :: front, first, back, by rw [whole]; rfl, isBlank, ?_⟩
                intro entry member
                rcases List.mem_cons.mp member with same | later
                · exact ⟨text, same, by rw [same]; exact blank⟩
                · exact before entry later

theorem blank_ends_task {blank : LogEntry} {rest : List LogEntry} {ending : Ending}
    (isBlank : blank.isBlank = true) :
    Task.round multiContainer ⟨label, ⟨blank :: rest, ending⟩, true⟩ =
      some (⟨label, ⟨rest, ending⟩, false⟩, none) := by
  cases blank with
  | error message => cases isBlank
  | output text =>
      unfold Task.round
      dsimp only
      rw [format_log_chunk_empty, isBlank]
      rfl

/-- The log of a service is complete in every run exactly when docker yields no blank chunk. -/
theorem container_logs_complete_iff (containers : List (String × LogStream)) :
    (∀ session, Reachable (openSession containers) session → Complete containers session) ↔
      ∀ container ∈ containers, NoBlank container.2.entries := by
  constructor
  · intro complete container member
    obtain ⟨label, entries, ending⟩ := container
    obtain ⟨place, found⟩ := List.mem_iff_getElem?.mp member
    rcases no_blank_or_first entries with visible | ⟨front, blank, rest, whole, isBlank, before⟩
    · exact visible
    · have there : (openSession containers).tasks[place]? =
          some ⟨label, ⟨front ++ blank :: rest, ending⟩, true⟩ := by
        simp [openSession, found, whole]
      obtain ⟨session, reached, -, isNext⟩ := reads_on rfl front (blank :: rest) before there
      have goesOn := (complete session reached).blankGoesOn _ (List.mem_of_getElem? isNext) rfl blank
        rest ending rfl isBlank _ _ (blank_ends_task isBlank)
      cases goesOn
  · intro visible session reached
    have kept := reached.kept
    have ahead := reached.no_blank visible
    have isExpected {place : Nat} {label : String} {stream : LogStream}
        (found : containers[place]? = some (label, stream)) :
        sends session.multiContainer label stream.entries =
          expected (severalContainers containers) label stream.entries := by
      rw [sends_expected (visible _ (List.mem_of_getElem? found)), kept.mode]
    constructor
    · intro place label stream found
      obtain ⟨task, followed⟩ := kept.followed place label stream found
      rw [← isExpected found]
      exact followed.forwarded
    · intro settled place label stream found
      obtain ⟨task, followed⟩ := kept.followed place label stream found
      have member := List.mem_of_getElem? followed.there
      have whole := followed.whole settled.1
      have nothing : textsOf place session.channel = [] ∧
          task.pending session.multiContainer = [] := by
        cases looping : session.looping with
        | false =>
            obtain ⟨empty, done⟩ := kept.finished looping settled.1
            rw [empty, Task.pending, done task member]
            exact ⟨rfl, rfl⟩
        | true =>
            obtain ⟨empty, waiting⟩ := settled.2.resolve_left (by simp [looping])
            rw [empty]
            refine ⟨rfl, ?_⟩
            unfold Task.pending
            split_ifs with running
            · rw [round_none (waiting task member running)]
              rfl
            · rfl
      rw [nothing.1, nothing.2, List.append_nil, List.append_nil] at whole
      rw [← isExpected found]
      exact whole
    · intro task member running entry rest ending isStream isBlank
      have none := ahead task member running
      rw [isStream] at none
      cases entry with
      | error message => cases isBlank
      | output text => exact absurd (none.1.symm.trans isBlank) (by simp)

def demoContainers : List (String × LogStream) :=
  [("web", ⟨[.output "\n", .output "ready\n"], .open_⟩)]

/-- The service writes an empty line, then another; the socket is closed without either. -/
theorem blank_chunk_ends_log : ∃ session, Reachable (openSession demoContainers) session ∧
    session.looping = false ∧ session.clientLeft = false ∧ session.forwarded = [] ∧
      ¬Complete demoContainers session := by
  have there : (openSession demoContainers).tasks[0]? =
      some ⟨"web", ⟨[.output "\n", .output "ready\n"], .open_⟩, true⟩ := rfl
  have read := Step.read rfl there rfl (blank_ends_task (by decide))
  have finished := (Reachable.start.step read).step
    (.closed rfl rfl (by simp [openSession, demoContainers]))
  refine ⟨_, finished, rfl, rfl, rfl, ?_⟩
  intro complete
  have whole := complete.whole ⟨rfl, Or.inl rfl⟩ 0 "web" _ rfl
  exact absurd whole (by decide)

end Containr.Api.ContainerLogs
