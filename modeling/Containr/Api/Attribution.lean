import Containr.Api.Ownership

/-!
# When names tell the owner

The names of workers, databases and queues carry a whole id, so no parser takes one for
another's. The name of a cron container carries eight digits of the app's id: a user who
owns another app with these digits is taken for its owner.
-/

namespace Containr.Api

open Containr.Effect Containr.Worker

variable {parser : UuidParser} {installation : Installation} {user : Uuid} {containerId : String}
  {id : Uuid}

theorem worker_name_eq {name : String} (named : WorkerNamed id name) :
    ∃ rest, name = "containr-" ++ (id.toString ++ rest) := by
  rcases named with ⟨app, service, replica, deploymentId, isId, isName⟩
  refine ⟨"-" ++ service.name ++ "-" ++ toString replica ++ "-" ++ shortDeploymentId deploymentId, ?_⟩
  rw [isName, ← isId]
  simp only [containerName, String.append_assoc]

theorem cron_container_name_eq (app : App) (service : ContainerService) (now : Time) :
    Cron.cronContainerName app service now = cronContainerPrefix app.id ++
      (Cron.truncateName (Cron.sanitizeName service.name) 12 ++
        ("-" ++ Text.compactTimestamp now)) := by
  unfold Cron.cronContainerName cronContainerPrefix shortAppId
  -- the parts are kept closed: a timestamp is not to be computed here
  generalize Cron.shortId app.id.toString = short
  generalize Cron.truncateName (Cron.sanitizeName service.name) 12 = label
  generalize Text.compactTimestamp now = stamp
  simp only [String.append_assoc]

theorem cron_name_eq {name : String} (named : CronNamed id name) :
    ∃ rest, name = cronContainerPrefix id ++ rest := by
  rcases named with ⟨app, service, now, facts⟩
  have shape := cron_container_name_eq app service now
  rw [← facts.2, facts.1] at shape
  exact ⟨_, shape⟩

theorem cron_prefix_eq (id : Uuid) :
    cronContainerPrefix id = "containr-" ++ ("cron-" ++ (shortAppId id ++ "-")) := by
  have front : "containr-cron-" = "containr-" ++ "cron-" := by decide +kernel
  rw [cronContainerPrefix, front]
  simp only [String.append_assoc]

theorem worker_front {front rest : String} (short : front.toList.length ≤ 8)
    (odd : ¬∀ ch ∈ front.toList, isHexChar ch = true) :
    ¬Text.startsWith ("containr-" ++ (id.toString ++ rest)) ("containr-" ++ front) = true := by
  rw [Text.starts_with_append]
  intro starts
  rw [Text.startsWith, List.isPrefixOf_iff_prefix, String.toList_append] at starts
  exact odd (front_of_uuid short starts)

/-- The fronts of databases, queues and cron containers after `containr-`. -/
theorem database_front_eq : "containr-db-" = "containr-" ++ "db-" := by decide +kernel

theorem queue_front_eq : "containr-queue-" = "containr-" ++ "queue-" := by decide +kernel

theorem worker_not_database (id : Uuid) (rest : String) :
    Text.stripFront ("containr-" ++ (id.toString ++ rest)) "containr-db-" = none := by
  rw [database_front_eq]
  exact Text.strip_front_none (worker_front (by decide) (Text.not_every_char (by decide)))

theorem worker_not_queue (id : Uuid) (rest : String) :
    Text.stripFront ("containr-" ++ (id.toString ++ rest)) "containr-queue-" = none := by
  rw [queue_front_eq]
  exact Text.strip_front_none (worker_front (by decide) (Text.not_every_char (by decide)))

theorem starts_with_trans {text front shorter : String} (starts : Text.startsWith text front = true)
    (inside : Text.startsWith front shorter = true) : Text.startsWith text shorter = true := by
  rw [Text.startsWith, List.isPrefixOf_iff_prefix] at starts inside ⊢
  exact inside.trans starts

theorem worker_not_cron (id other : Uuid) (rest : String) :
    ¬Text.startsWith ("containr-" ++ (id.toString ++ rest)) (cronContainerPrefix other) = true := by
  intro starts
  have cron : Text.startsWith (cronContainerPrefix other) ("containr-" ++ "cron-") = true := by
    rw [cron_prefix_eq, Text.starts_with_append]
    exact Text.starts_with_iff.mpr ⟨_, rfl⟩
  exact worker_front (by decide) (Text.not_every_char (by decide)) (starts_with_trans starts cron)

theorem cron_not_database (id : Uuid) (rest : String) :
    Text.stripFront (cronContainerPrefix id ++ rest) "containr-db-" = none := by
  apply Text.strip_front_none
  rw [cron_prefix_eq, database_front_eq, String.append_assoc, Text.starts_with_append]
  simp [Text.startsWith, String.toList_append]

theorem cron_not_queue (id : Uuid) (rest : String) :
    Text.stripFront (cronContainerPrefix id ++ rest) "containr-queue-" = none := by
  apply Text.strip_front_none
  rw [cron_prefix_eq, queue_front_eq, String.append_assoc, Text.starts_with_append]
  simp [Text.startsWith, String.toList_append]

theorem short_app_id_chars (id : Uuid) : (shortAppId id).toList = id.headChars := by
  rw [shortAppId, Cron.shortId, String.toList_ofList, uuid_take_while]

/-- Cron fronts of two apps meet only where the eight digits are the same. -/
theorem cron_front_iff (first second : Uuid) (rest : String) :
    Text.startsWith (cronContainerPrefix first ++ rest) (cronContainerPrefix second) = true ↔
      shortAppId second = shortAppId first := by
  constructor
  · intro starts
    rw [cron_prefix_eq, cron_prefix_eq, String.append_assoc, Text.starts_with_append,
      String.append_assoc, Text.starts_with_append, Text.startsWith,
      List.isPrefixOf_iff_prefix] at starts
    simp only [String.toList_append, short_app_id_chars, List.append_assoc] at starts
    have lengths : second.headChars.length = first.headChars.length := by
      rw [head_chars_length, head_chars_length]
    have heads : second.headChars <+: first.headChars :=
      List.prefix_of_prefix_length_le ((List.prefix_append _ _).trans starts)
        (List.prefix_append _ _) (le_of_eq lengths)
    apply String.toList_injective
    rw [short_app_id_chars, short_app_id_chars]
    exact heads.eq_of_length lengths
  · intro same
    apply Text.starts_with_iff.mpr
    refine ⟨rest, ?_⟩
    rw [cronContainerPrefix, cronContainerPrefix, same]

/-- Hexadecimal digits never start with `containr-`. -/
theorem hex_front {text front : String} (hex : ∀ ch ∈ text.toList, isHexChar ch = true)
    (odd : ¬∀ ch ∈ front.toList, isHexChar ch = true) : ¬Text.startsWith text front = true := by
  intro starts
  rw [Text.startsWith, List.isPrefixOf_iff_prefix] at starts
  exact odd fun ch member => hex ch (starts.subset member)

theorem parse_worker (parser : UuidParser) (bits : id.value < 2 ^ 128) (rest : String) :
    parseAppIdFromContainer parser ("containr-" ++ (id.toString ++ rest)) = some (some id) := by
  have long : ¬Text.byteLength (id.toString ++ rest) < 36 := by
    have least := Text.byte_length_ge (id.toString ++ rest)
    rw [String.toList_append, List.length_append, uuid_chars_length] at least
    omega
  have cut : Text.sliceTo 36 (id.toString ++ rest) = some id.toString := by
    have found := Text.first_bytes_ascii (fun ch member => @uuid_chars_ascii id ch member)
      rest.toList
    rw [uuid_chars_length] at found
    rw [Text.sliceTo, String.toList_append, found, Option.map_some, String.ofList_toList]
  unfold parseAppIdFromContainer
  rw [Text.strip_front_append]
  dsimp only
  rw [if_neg long, cut, Option.map_some, parser.display id bits]

/-- No form of a uuid starts with `p`. -/
theorem parse_proxy (parser : UuidParser) (rest : String) :
    parser.parseStr ("proxy-" ++ rest) = none := by
  cases parsed : parser.parseStr ("proxy-" ++ rest) with
  | none => rfl
  | some id =>
      have form := parser.forms _ id parsed
      have lowered : (Text.toAsciiLowercase ("proxy-" ++ rest)).toList.head? = some 'p' := by
        simp [Text.toAsciiLowercase, String.toList_append]
      have hexHead : ∀ ch, (Uuid.hexDigits 32 id.value).head? = some ch → ch ≠ 'p' := by
        intro ch isHead same
        have isHex := hex_digits_chars (List.mem_of_mem_head? isHead)
        rw [same] at isHex
        revert isHex
        decide
      have textHead : ∀ ch, id.toString.toList.head? = some ch → ch ≠ 'p' := by
        intro ch isHead same
        have front := uuid_chars_hex (List.mem_of_mem_head? isHead)
        rw [same] at front
        revert front
        decide
      simp only [List.mem_cons, List.not_mem_nil, or_false] at form
      rcases form with hyphenated | simple | urn | braced
      · rw [hyphenated] at lowered
        exact absurd rfl (textHead 'p' lowered)
      · rw [simple, Uuid.simple, String.toList_ofList] at lowered
        exact absurd rfl (hexHead 'p' lowered)
      · rw [urn, String.toList_append] at lowered
        simp at lowered
      · rw [braced, String.append_assoc, String.toList_append] at lowered
        simp at lowered

/-- No form of a uuid starts with `cr`. -/
theorem parse_cron_text (parser : UuidParser) {text : String} {rest : List Char}
    (chars : text.toList = 'c' :: 'r' :: rest) : parser.parseStr text = none := by
  cases parsed : parser.parseStr text with
  | none => rfl
  | some id =>
      have form := parser.forms _ id parsed
      have first : (Text.toAsciiLowercase text).toList.head? = some 'c' := by
        simp [Text.toAsciiLowercase, chars]
      have second : (Text.toAsciiLowercase text).toList[1]? = some 'r' := by
        simp [Text.toAsciiLowercase, chars]
      have notHex : ¬(isHexChar 'r' = true ∨ 'r' = '-') := by decide
      simp only [List.mem_cons, List.not_mem_nil, or_false] at form
      rcases form with hyphenated | simple | urn | braced
      · rw [hyphenated] at second
        exact absurd (uuid_chars_hex (List.mem_of_getElem? second)) notHex
      · rw [simple, Uuid.simple, String.toList_ofList] at second
        exact absurd (Or.inl (hex_digits_chars (List.mem_of_getElem? second))) notHex
      · rw [urn, String.toList_append] at first
        simp at first
      · rw [braced, String.append_assoc, String.toList_append] at first
        simp at first

theorem parse_cron (parser : UuidParser) (id other : Uuid) (rest : String) :
    parseAppIdFromContainer parser (cronContainerPrefix id ++ rest) ≠ some (some other) := by
  intro parsed
  rw [cron_prefix_eq, String.append_assoc] at parsed
  unfold parseAppIdFromContainer at parsed
  rw [Text.strip_front_append] at parsed
  dsimp only at parsed
  split_ifs at parsed with short
  · cases parsed
  · rcases Option.map_eq_some_iff.mp parsed with ⟨cut, isCut, isId⟩
    rcases Option.map_eq_some_iff.mp isCut with ⟨chars, isChars, isText⟩
    have spelled : ("cron-" ++ (shortAppId id ++ "-") ++ rest).toList =
        'c' :: 'r' :: (['o', 'n', '-'] ++ ((shortAppId id ++ "-").toList ++ rest.toList)) := by
      simp [String.toList_append]
    have sizes : 'c'.utf8Size = 1 ∧ 'r'.utf8Size = 1 := by decide
    rw [spelled] at isChars
    simp only [Text.firstBytes, sizes.1, sizes.2, Nat.reduceAdd, Nat.reduceLeDiff, if_true,
      Nat.reduceSub, Option.map_map] at isChars
    rcases Option.map_eq_some_iff.mp isChars with ⟨inner, -, isInner⟩
    have noUuid : parser.parseStr cut = none := by
      apply @parse_cron_text parser cut inner
      rw [← isText, String.toList_ofList, ← isInner]
      rfl
    rw [noUuid] at isId
    cases isId

theorem uuid_text_injective (parser : UuidParser) {first second : Uuid}
    (firstBits : first.value < 2 ^ 128) (secondBits : second.value < 2 ^ 128)
    (same : first.toString = second.toString) : first = second := by
  have parsed := parser.display first firstBits
  rw [same, parser.display second secondBits] at parsed
  exact (Option.some.inj parsed).symm

/-- Byte 36 after `containr-` falls inside a character. -/
def CutInside (containerId : String) : Prop :=
  Text.stripFront containerId "containr-db-" = none ∧
  Text.stripFront containerId "containr-queue-" = none ∧
  ∃ suffix, Text.stripFront containerId "containr-" = some suffix ∧
    36 ≤ Text.byteLength suffix ∧ Text.sliceTo 36 suffix = none

/-- The text carries an id or a cron front of a resource of the user, or stands in the
user's records. -/
inductive Attributed (parser : UuidParser) (installation : Installation) (user : Uuid)
    (containerId : String) : Prop where
  | database (idStr : String) (database : ManagedService)
      (front : Text.stripFront containerId "containr-db-" = some idStr)
      (parsed : parser.parseStr idStr = some database.id)
      (stored : database ∈ installation.databases) (owner : database.ownerId = user)
  | queue (idStr : String) (queue : ManagedService)
      (noDatabase : Text.stripFront containerId "containr-db-" = none)
      (front : Text.stripFront containerId "containr-queue-" = some idStr)
      (parsed : parser.parseStr idStr = some queue.id)
      (stored : queue ∈ installation.queues) (owner : queue.ownerId = user)
  | app (app : App) (noDatabase : Text.stripFront containerId "containr-db-" = none)
      (noQueue : Text.stripFront containerId "containr-queue-" = none)
      (parsed : parseAppIdFromContainer parser containerId = some (some app.id))
      (stored : app ∈ installation.apps) (owner : app.ownerId = user)
  | cron (app : App) (noDatabase : Text.stripFront containerId "containr-db-" = none)
      (noQueue : Text.stripFront containerId "containr-queue-" = none)
      (front : Text.startsWith containerId (cronContainerPrefix app.id) = true)
      (stored : app ∈ installation.apps) (owner : app.ownerId = user)
  | recorded (noDatabase : Text.stripFront containerId "containr-db-" = none)
      (noQueue : Text.stripFront containerId "containr-queue-" = none)
      (found : recordedFor installation user containerId = true)

theorem parse_panics_iff (parser : UuidParser) (containerId : String) :
    parseAppIdFromContainer parser containerId = none ↔
      ∃ suffix, Text.stripFront containerId "containr-" = some suffix ∧
        36 ≤ Text.byteLength suffix ∧ Text.sliceTo 36 suffix = none := by
  unfold parseAppIdFromContainer
  cases Text.stripFront containerId "containr-" with
  | none => simp
  | some suffix =>
      dsimp only
      split_ifs with short
      · simp only [Option.some.injEq, exists_eq_left', false_iff, not_and]
        intro long
        omega
      · simp only [Option.some.injEq, exists_eq_left', Option.map_eq_none_iff]
        have long : 36 ≤ Text.byteLength suffix := by omega
        simp [long]

theorem any_lookup_iff {Row : Type} (key : Row → Uuid) (rows : List Row)
    (distinct : (rows.map key).Nodup) (parsed : Option Uuid) (good : Row → Bool) :
    (parsed.bind fun id => lookup key id rows).any good = true ↔
      ∃ row ∈ rows, parsed = some (key row) ∧ good row = true := by
  cases parsed with
  | none => simp
  | some id =>
      constructor
      · intro found
        rw [Option.bind_some] at found
        cases looked : lookup key id rows with
        | none => simp [looked] at found
        | some row =>
            rw [looked, Option.any_some] at found
            have facts := lookup_eq_some_mem looked
            exact ⟨row, facts.1, congrArg some facts.2.symm, found⟩
      · intro found
        rcases found with ⟨row, member, isId, isGood⟩
        have looked := lookup_of_mem distinct member
        rw [← Option.some.inj isId] at looked
        rw [Option.bind_some, looked]
        exact isGood

theorem ensure_panics_iff :
    ensureContainerOwned parser installation user containerId = .panics ↔
      CutInside containerId := by
  unfold ensureContainerOwned CutInside
  cases Text.stripFront containerId "containr-db-" with
  | some idStr =>
      dsimp only
      split_ifs <;> simp
  | none =>
      cases Text.stripFront containerId "containr-queue-" with
      | some idStr =>
          dsimp only
          split_ifs <;> simp
      | none =>
          rw [← parse_panics_iff parser]
          cases parseAppIdFromContainer parser containerId with
          | none => simp
          | some appId =>
              dsimp only
              split_ifs <;> simp

theorem ensure_owned_iff :
    ensureContainerOwned parser installation user containerId = .owned ↔
      ¬CutInside containerId ∧ Attributed parser installation user containerId := by
  constructor
  · intro owned
    have noCut : ¬CutInside containerId := by
      rw [← @ensure_panics_iff parser installation user, owned]
      simp
    refine ⟨noCut, ?_⟩
    unfold ensureContainerOwned at owned
    cases isDatabase : Text.stripFront containerId "containr-db-" with
    | some idStr =>
        rw [isDatabase] at owned
        dsimp only at owned
        split_ifs at owned with found
        rcases (any_lookup_iff _ _ installation.databaseIds _ _).mp found with
          ⟨database, stored, parsed, owner⟩
        exact .database idStr database isDatabase parsed stored (by simpa using owner)
    | none =>
        rw [isDatabase] at owned
        cases isQueue : Text.stripFront containerId "containr-queue-" with
        | some idStr =>
            rw [isQueue] at owned
            dsimp only at owned
            split_ifs at owned with found
            rcases (any_lookup_iff _ _ installation.queueIds _ _).mp found with
              ⟨queue, stored, parsed, owner⟩
            exact .queue idStr queue isDatabase isQueue parsed stored (by simpa using owner)
        | none =>
            rw [isQueue] at owned
            cases isApp : parseAppIdFromContainer parser containerId with
            | none => simp [isApp] at owned
            | some appId =>
                rw [isApp] at owned
                dsimp only at owned
                split_ifs at owned with byId byCron byRecord
                · rcases (any_lookup_iff _ _ installation.appIds _ _).mp byId with
                    ⟨app, stored, parsed, owner⟩
                  rw [parsed] at isApp
                  exact .app app isDatabase isQueue isApp stored (by simpa using owner)
                · rcases List.any_eq_true.mp byCron with ⟨app, listed, front⟩
                  have facts := List.mem_filter.mp listed
                  exact .cron app isDatabase isQueue front facts.1 (by simpa using facts.2)
                · exact .recorded isDatabase isQueue byRecord
  · intro facts
    rcases facts with ⟨noCut, attributed⟩
    have noPanic : parseAppIdFromContainer parser containerId ≠ none ∨
        ¬(Text.stripFront containerId "containr-db-" = none ∧
          Text.stripFront containerId "containr-queue-" = none) := by
      by_contra neither
      simp only [not_or, not_not] at neither
      exact noCut ⟨neither.2.1, neither.2.2, (parse_panics_iff parser containerId).mp neither.1⟩
    unfold ensureContainerOwned
    cases attributed with
    | database idStr database front parsed stored owner =>
        have found := (any_lookup_iff ManagedService.id _ installation.databaseIds
          (parser.parseStr idStr) fun database => decide (database.ownerId = user)).mpr
          ⟨database, stored, parsed, by simpa using owner⟩
        rw [front]
        exact if_pos found
    | queue idStr queue noDatabase front parsed stored owner =>
        have found := (any_lookup_iff ManagedService.id _ installation.queueIds
          (parser.parseStr idStr) fun queue => decide (queue.ownerId = user)).mpr
          ⟨queue, stored, parsed, by simpa using owner⟩
        rw [noDatabase, front]
        exact if_pos found
    | app app noDatabase noQueue parsed stored owner =>
        have found := (any_lookup_iff App.id _ installation.appIds
          (some app.id) fun app => decide (app.ownerId = user)).mpr
          ⟨app, stored, rfl, by simpa using owner⟩
        rw [noDatabase, noQueue, parsed]
        exact if_pos found
    | cron app noDatabase noQueue front stored owner =>
        have found : (installation.listAppsByOwner user).any (fun app =>
            Text.startsWith containerId (cronContainerPrefix app.id)) = true :=
          List.any_eq_true.mpr ⟨app, List.mem_filter.mpr ⟨stored, by simpa using owner⟩, front⟩
        rw [noDatabase, noQueue]
        cases parsed : parseAppIdFromContainer parser containerId with
        | none => simp [parsed, noDatabase, noQueue] at noPanic
        | some appId =>
            dsimp only
            rw [if_pos found]
            split_ifs
            · rfl
            · rfl
    | recorded noDatabase noQueue found =>
        rw [noDatabase, noQueue]
        cases parsed : parseAppIdFromContainer parser containerId with
        | none => simp [parsed, noDatabase, noQueue] at noPanic
        | some appId =>
            dsimp only
            rw [if_pos found]
            split_ifs
            · rfl
            · rfl
            · rfl

/-- A cron container of somebody else whose app shares its eight digits with an app of
the user. -/
def ForeignTwin (installation : Installation) (user : Uuid) (container : Container) : Prop :=
  ∃ id, container.resource = .app id ∧ CronNamed id container.name ∧
    ¬installation.Owns user (.app id) ∧
    ∃ app ∈ installation.apps, app.ownerId = user ∧ shortAppId app.id = shortAppId id

variable {container : Container}

theorem recorded_owns (exist : container ∈ installation.containers)
    (answers : container.AnswersTo containerId)
    (found : recordedFor installation user containerId = true) :
    installation.Owns user container.resource := by
  unfold recordedFor at found
  simp only [Bool.or_eq_true, List.any_eq_true, Installation.listManagedDatabasesByOwner,
    Installation.listManagedQueuesByOwner, Installation.listAppsByOwner, List.mem_filter,
    decide_eq_true_eq] at found
  rcases found with (⟨database, facts, record⟩ | ⟨queue, facts, record⟩) | ⟨app, facts, record⟩
  · rw [installation.databaseRecords database facts.1 containerId record container exist answers]
    exact ⟨database, facts.1, rfl, facts.2⟩
  · rw [installation.queueRecords queue facts.1 containerId record container exist answers]
    exact ⟨queue, facts.1, rfl, facts.2⟩
  · cases latest : installation.latestDeployment app.id with
    | none => simp [latest] at record
    | some deployment =>
        simp only [latest, Option.any_some, List.any_eq_true, decide_eq_true_eq] at record
        rcases record with ⟨replica, inReplicas, isRecord⟩
        rw [installation.deploymentRecords app facts.1 deployment latest replica inReplicas
          containerId isRecord container exist answers]
        exact ⟨app, facts.1, rfl, facts.2⟩

theorem app_bits (exist : container ∈ installation.containers)
    (isApp : container.resource = .app id) : id.value < 2 ^ 128 := by
  have stored := installation.stored container exist
  rw [isApp] at stored
  rcases stored with ⟨app, member, isId⟩
  rw [← isId]
  exact installation.appBits app member

/-- What stands after `containr-` in the name of an existing container. -/
inductive Spelled (container : Container) : Prop where
  | worker (id : Uuid) (rest : String) (isApp : container.resource = .app id)
      (name : container.name = "containr-" ++ (id.toString ++ rest))
  | cron (id : Uuid) (rest : String) (isApp : container.resource = .app id)
      (named : CronNamed id container.name)
      (name : container.name = cronContainerPrefix id ++ rest)
  | database (id : Uuid) (isDatabase : container.resource = .database id)
      (name : container.name = "containr-db-" ++ id.toString)
  | proxy (id : Uuid) (isDatabase : container.resource = .database id)
      (name : container.name = "containr-db-" ++ ("proxy-" ++ id.toString))
  | queue (id : Uuid) (isQueue : container.resource = .queue id)
      (name : container.name = "containr-queue-" ++ id.toString)

theorem proxy_name_eq (id : Uuid) :
    proxyContainerName id = "containr-db-" ++ ("proxy-" ++ id.toString) := by
  have front : "containr-db-proxy-" = "containr-db-" ++ "proxy-" := by decide +kernel
  unfold proxyContainerName
  generalize id.toString = text
  rw [front, String.append_assoc]

theorem container_spelled (exist : container ∈ installation.containers) : Spelled container := by
  have produced := installation.produced container exist
  cases isResource : container.resource with
  | app id =>
      rw [isResource] at produced
      rcases produced with named | named
      · rcases worker_name_eq named with ⟨rest, name⟩
        exact .worker id rest isResource name
      · rcases cron_name_eq named with ⟨rest, name⟩
        exact .cron id rest isResource named name
  | database id =>
      rw [isResource] at produced
      rcases produced with main | proxy
      · exact .database id isResource main
      · exact .proxy id isResource (proxy.trans (proxy_name_eq id))
  | queue id =>
      rw [isResource] at produced
      exact .queue id isResource produced

theorem queue_not_database (id : Uuid) :
    Text.stripFront ("containr-queue-" ++ id.toString) "containr-db-" = none := by
  apply Text.strip_front_none
  rw [queue_front_eq, database_front_eq, String.append_assoc, Text.starts_with_append]
  simp [Text.startsWith, String.toList_append]

section Existing

variable {container : Container} (exist : container ∈ installation.containers)

include exist

/-- Only a database's main container has its id after `containr-db-`. -/
theorem database_spelled {idStr : String} {id : Uuid}
    (front : Text.stripFront container.name "containr-db-" = some idStr)
    (parsed : parser.parseStr idStr = some id) : container.resource = .database id := by
  cases container_spelled exist with
  | worker other rest isApp shape =>
      rw [shape, worker_not_database] at front
      cases front
  | cron other rest isApp named shape =>
      rw [shape, cron_not_database] at front
      cases front
  | database other isDatabase shape =>
      rw [shape, Text.strip_front_append] at front
      have isStored := installation.stored container exist
      rw [isDatabase] at isStored
      rcases isStored with ⟨database, member, isId⟩
      have display := parser.display database.id (installation.databaseBits database member)
      rw [isId, Option.some.inj front, parsed] at display
      rw [isDatabase, Option.some.inj display]
  | proxy other isDatabase shape =>
      rw [shape, Text.strip_front_append] at front
      rw [← Option.some.inj front, parse_proxy] at parsed
      cases parsed
  | queue other isQueue shape =>
      rw [shape, queue_not_database] at front
      cases front

theorem queue_spelled {idStr : String} {id : Uuid}
    (noDatabase : Text.stripFront container.name "containr-db-" = none)
    (front : Text.stripFront container.name "containr-queue-" = some idStr)
    (parsed : parser.parseStr idStr = some id) : container.resource = .queue id := by
  cases container_spelled exist with
  | worker other rest isApp shape =>
      rw [shape, worker_not_queue] at front
      cases front
  | cron other rest isApp named shape =>
      rw [shape, cron_not_queue] at front
      cases front
  | database other isDatabase shape =>
      rw [shape, Text.strip_front_append] at noDatabase
      cases noDatabase
  | proxy other isDatabase shape =>
      rw [shape, Text.strip_front_append] at noDatabase
      cases noDatabase
  | queue other isQueue shape =>
      rw [shape, Text.strip_front_append] at front
      have isStored := installation.stored container exist
      rw [isQueue] at isStored
      rcases isStored with ⟨queue, member, isId⟩
      have display := parser.display queue.id (installation.queueBits queue member)
      rw [isId, Option.some.inj front, parsed] at display
      rw [isQueue, Option.some.inj display]

theorem app_spelled (noDatabase : Text.stripFront container.name "containr-db-" = none)
    (noQueue : Text.stripFront container.name "containr-queue-" = none) :
    ∃ id rest, container.resource = .app id ∧
      (container.name = "containr-" ++ (id.toString ++ rest) ∨
        CronNamed id container.name ∧ container.name = cronContainerPrefix id ++ rest) := by
  cases container_spelled exist with
  | worker id rest isApp shape => exact ⟨id, rest, isApp, Or.inl shape⟩
  | cron id rest isApp named shape => exact ⟨id, rest, isApp, Or.inr ⟨named, shape⟩⟩
  | database other isDatabase shape =>
      rw [shape, Text.strip_front_append] at noDatabase
      cases noDatabase
  | proxy other isDatabase shape =>
      rw [shape, Text.strip_front_append] at noDatabase
      cases noDatabase
  | queue other isQueue shape =>
      rw [shape, Text.strip_front_append] at noQueue
      cases noQueue

/-- An existing container that is attributed to a user is the user's, or a twin. -/
theorem attributed_owns (attributed : Attributed parser installation user container.name) :
    installation.Owns user container.resource ∨ ForeignTwin installation user container := by
  cases attributed with
  | database idStr database front parsed stored owner =>
      rw [database_spelled exist front parsed]
      exact Or.inl ⟨database, stored, rfl, owner⟩
  | queue idStr queue noDatabase front parsed stored owner =>
      rw [queue_spelled exist noDatabase front parsed]
      exact Or.inl ⟨queue, stored, rfl, owner⟩
  | app app noDatabase noQueue parsed stored owner =>
      rcases app_spelled exist noDatabase noQueue with ⟨id, rest, isApp, worker | cron⟩
      · rw [worker, parse_worker parser (app_bits exist isApp)] at parsed
        rw [isApp, Option.some.inj (Option.some.inj parsed)]
        exact Or.inl ⟨app, stored, rfl, owner⟩
      · rw [cron.2] at parsed
        exact absurd parsed (parse_cron parser id app.id rest)
  | cron app noDatabase noQueue front stored owner =>
      rcases app_spelled exist noDatabase noQueue with ⟨id, rest, isApp, worker | cron⟩
      · rw [worker] at front
        exact absurd front (worker_not_cron id app.id rest)
      · rw [cron.2] at front
        have same := (cron_front_iff id app.id rest).mp front
        by_cases own : installation.Owns user (.app id)
        · rw [isApp]
          exact Or.inl own
        · exact Or.inr ⟨id, isApp, cron.1, own, app, stored, owner, same⟩
  | recorded noDatabase noQueue found =>
      exact Or.inl (recorded_owns exist (Or.inl rfl) found)

end Existing

theorem attributed_id_owns (exist : container ∈ installation.containers)
    (isId : container.dockerId = containerId)
    (attributed : Attributed parser installation user containerId) :
    installation.Owns user container.resource := by
  have hex : ∀ ch ∈ containerId.toList, isHexChar ch = true := by
    rw [← isId]
    exact installation.hexIds container exist
  have noFront : Text.stripFront containerId "containr-" = none :=
    Text.strip_front_none (hex_front hex (Text.not_every_char (by decide)))
  cases attributed with
  | database idStr database front parsed stored owner =>
      rw [Text.strip_front_none (hex_front hex (Text.not_every_char (by decide)))] at front
      cases front
  | queue idStr queue noDatabase front parsed stored owner =>
      rw [Text.strip_front_none (hex_front hex (Text.not_every_char (by decide)))] at front
      cases front
  | app app noDatabase noQueue parsed stored owner =>
      unfold parseAppIdFromContainer at parsed
      rw [noFront] at parsed
      cases parsed
  | cron app noDatabase noQueue front stored owner =>
      have starts : Text.startsWith containerId "containr-" = true := by
        apply starts_with_trans front
        rw [cron_prefix_eq]
        exact Text.starts_with_iff.mpr ⟨_, rfl⟩
      exact absurd starts (hex_front hex (Text.not_every_char (by decide)))
  | recorded noDatabase noQueue found =>
      exact recorded_owns exist (Or.inr isId) found

theorem twin_attributed (twin : ForeignTwin installation user container) :
    Attributed parser installation user container.name := by
  rcases twin with ⟨id, isApp, named, foreign, app, stored, owner, same⟩
  rcases cron_name_eq named with ⟨rest, shape⟩
  rw [shape]
  exact .cron app (cron_not_database id rest) (cron_not_queue id rest)
    ((cron_front_iff id app.id rest).mpr same) stored owner

def StopsOnlyOwn (installation : Installation) (app : App) : Prop :=
  ∀ container ∈ installation.containers, ∀ reference ∈ deleteAppRuntime installation app,
    container.AnswersTo reference → ∀ id, container.resource = .app id → id = app.id

def DigitsApart (installation : Installation) (app : App) : Prop :=
  ∀ container ∈ installation.containers, ∀ id, container.resource = .app id →
    CronNamed id container.name → shortAppId id = shortAppId app.id → id = app.id

variable {app : App}

theorem mem_delete_app_runtime {reference : String} :
    reference ∈ deleteAppRuntime installation app ↔
      (∃ database ∈ installation.databases, (database.ownerId = app.ownerId ∧
        database.groupId = some app.id) ∧ (reference = proxyContainerName database.id ∨
          database.containerId = some reference)) ∨
      (∃ queue ∈ installation.queues, (queue.ownerId = app.ownerId ∧
        queue.groupId = some app.id) ∧ queue.containerId = some reference) ∨
      ∃ container ∈ installation.containers, container.name = reference ∧
        (Text.startsWith reference ("containr-" ++ app.id.toString) = true ∨
          Text.startsWith reference (cronContainerPrefix app.id) = true) := by
  simp only [deleteAppRuntime, Installation.listManagedDatabasesByOwner,
    Installation.listManagedQueuesByOwner, List.mem_append, List.mem_flatMap, List.mem_filter,
    List.mem_map, List.mem_cons, Option.mem_toList, decide_eq_true_eq, Bool.or_eq_true]
  constructor
  · intro found
    rcases found with (⟨database, facts, reference⟩ | ⟨queue, facts, reference⟩) | ⟨named, front⟩
    · exact Or.inl ⟨database, facts.1.1, ⟨facts.1.2, facts.2⟩, reference⟩
    · exact Or.inr (Or.inl ⟨queue, facts.1.1, ⟨facts.1.2, facts.2⟩, reference⟩)
    · rcases named with ⟨container, member, name⟩
      exact Or.inr (Or.inr ⟨container, member, name, front⟩)
  · intro found
    rcases found with ⟨database, member, facts, reference⟩ | ⟨queue, member, facts, reference⟩ |
      ⟨container, member, name, front⟩
    · exact Or.inl (Or.inl ⟨database, ⟨⟨member, facts.1⟩, facts.2⟩, reference⟩)
    · exact Or.inl (Or.inr ⟨queue, ⟨⟨member, facts.1⟩, facts.2⟩, reference⟩)
    · exact Or.inr ⟨⟨container, member, name⟩, front⟩

theorem app_not_proxy (exist : container ∈ installation.containers) {other : Uuid}
    (isApp : container.resource = .app id) : ¬container.AnswersTo (proxyContainerName other) := by
  intro answers
  rw [proxy_name_eq] at answers
  rcases answers with isName | isDockerId
  · cases container_spelled exist with
    | worker found rest _ shape =>
        have front := worker_not_database found rest
        rw [← shape, isName, Text.strip_front_append] at front
        cases front
    | cron found rest _ _ shape =>
        have front := cron_not_database found rest
        rw [← shape, isName, Text.strip_front_append] at front
        cases front
    | database found isDatabase _ =>
        rw [isApp] at isDatabase
        cases isDatabase
    | proxy found isDatabase _ =>
        rw [isApp] at isDatabase
        cases isDatabase
    | queue found isQueue _ =>
        rw [isApp] at isQueue
        cases isQueue
  · have hex := installation.hexIds container exist
    rw [isDockerId] at hex
    exact hex_front hex (Text.not_every_char (by decide)) (Text.starts_with_iff.mpr ⟨_, rfl⟩)

/-- The name of a container of an app starts like another app's names only by the digits. -/
theorem app_front_cases (parser : UuidParser) (exist : container ∈ installation.containers)
    (member : app ∈ installation.apps) (isApp : container.resource = .app id)
    (front : Text.startsWith container.name ("containr-" ++ app.id.toString) = true ∨
      Text.startsWith container.name (cronContainerPrefix app.id) = true) :
    id = app.id ∨ CronNamed id container.name ∧ shortAppId id = shortAppId app.id := by
  cases container_spelled exist with
  | worker found rest isFound shape =>
      have same : found = id := Resource.app.inj (isFound.symm.trans isApp)
      rw [shape] at front
      rcases front with byId | byCron
      · left
        rw [Text.starts_with_append, Text.startsWith, List.isPrefixOf_iff_prefix,
          String.toList_append] at byId
        have lengths : app.id.toString.toList.length = found.toString.toList.length := by
          rw [uuid_chars_length, uuid_chars_length]
        have heads := List.prefix_of_prefix_length_le byId (List.prefix_append _ _)
          (le_of_eq lengths)
        have texts := String.toList_injective (heads.eq_of_length lengths)
        rw [← same]
        exact (uuid_text_injective parser (installation.appBits app member)
          (app_bits exist isFound) texts).symm
      · exact absurd byCron (worker_not_cron found app.id rest)
  | cron found rest isFound named shape =>
      have same : found = id := Resource.app.inj (isFound.symm.trans isApp)
      rw [shape] at front
      rcases front with byId | byCron
      · -- the first digits of an id never read `cron-`
        rw [cron_prefix_eq, String.append_assoc, Text.starts_with_append] at byId
        rcases Text.starts_with_iff.mp byId with ⟨more, whole⟩
        have starts : Text.startsWith ("containr-" ++ (app.id.toString ++ more))
            ("containr-" ++ "cron-") = true := by
          rw [Text.starts_with_append, ← whole, String.append_assoc]
          exact Text.starts_with_iff.mpr ⟨_, rfl⟩
        exact absurd starts (worker_front (by decide) (Text.not_every_char (by decide)))
      · right
        rw [← same]
        exact ⟨named, ((cron_front_iff found app.id rest).mp byCron).symm⟩
  | database found isDatabase _ =>
      rw [isApp] at isDatabase
      cases isDatabase
  | proxy found isDatabase _ =>
      rw [isApp] at isDatabase
      cases isDatabase
  | queue found isQueue _ =>
      rw [isApp] at isQueue
      cases isQueue

theorem stops_only_own_iff (parser : UuidParser) (member : app ∈ installation.apps) :
    StopsOnlyOwn installation app ↔ DigitsApart installation app := by
  constructor
  · intro stops container exist id isApp named digits
    have front : Text.startsWith container.name (cronContainerPrefix app.id) = true := by
      rcases cron_name_eq named with ⟨rest, shape⟩
      rw [shape]
      exact (cron_front_iff id app.id rest).mpr digits.symm
    have stopped : container.name ∈ deleteAppRuntime installation app :=
      mem_delete_app_runtime.mpr (Or.inr (Or.inr ⟨container, exist, rfl, Or.inr front⟩))
    exact stops container exist container.name stopped (Or.inl rfl) id isApp
  · intro apart container exist reference stopped answers id isApp
    rcases mem_delete_app_runtime.mp stopped with ⟨database, stored, -, proxy | record⟩ |
      ⟨queue, stored, -, record⟩ | ⟨named, inList, isName, front⟩
    · rw [proxy] at answers
      exact absurd answers (app_not_proxy exist isApp)
    · have isDatabase := installation.databaseRecords database stored reference record container
        exist answers
      rw [isApp] at isDatabase
      cases isDatabase
    · have isQueue := installation.queueRecords queue stored reference record container exist answers
      rw [isApp] at isQueue
      cases isQueue
    · have same := installation.unique reference container exist named inList answers (Or.inl isName)
      rw [← isName, ← same] at front
      rcases app_front_cases parser exist member isApp front with isOwn | cron
      · exact isOwn
      · exact apart container exist id isApp cron.1 cron.2

/-- The string is read without a panic, and is taken for a user's container only where it
is the name or id of one. -/
def ReadSoundly (parser : UuidParser) (installation : Installation) (user : Uuid)
    (containerId : String) : Prop :=
  ensureContainerOwned parser installation user containerId ≠ .panics ∧
    (ensureContainerOwned parser installation user containerId = .owned →
      ∃ container ∈ installation.containers, container.AnswersTo containerId ∧
        installation.Owns user container.resource)

/-- No character lies across the cut, no cron container has a twin, and what carries the
user's ids exists. -/
structure NameTells (parser : UuidParser) (installation : Installation) (user : Uuid)
    (containerId : String) : Prop where
  whole : ¬CutInside containerId
  noTwin : ∀ container ∈ installation.containers, container.name = containerId →
    ¬ForeignTwin installation user container
  exist : Attributed parser installation user containerId →
    ∃ container ∈ installation.containers, container.AnswersTo containerId

theorem read_soundly_iff : ReadSoundly parser installation user containerId ↔
    NameTells parser installation user containerId := by
  unfold ReadSoundly
  rw [ne_eq, ensure_panics_iff, ensure_owned_iff]
  constructor
  · intro sound
    refine ⟨sound.1, ?_, ?_⟩
    · intro container exist isName twin
      have attributed : Attributed parser installation user containerId := by
        rw [← isName]
        exact twin_attributed twin
      rcases sound.2 ⟨sound.1, attributed⟩ with ⟨found, inList, answers, own⟩
      have same := installation.unique containerId container exist found inList (Or.inl isName)
        answers
      rw [← same] at own
      rcases twin with ⟨id, isApp, -, foreign, -⟩
      rw [isApp] at own
      exact foreign own
    · intro attributed
      rcases sound.2 ⟨sound.1, attributed⟩ with ⟨found, inList, answers, -⟩
      exact ⟨found, inList, answers⟩
  · intro tells
    refine ⟨tells.whole, ?_⟩
    intro owned
    rcases tells.exist owned.2 with ⟨container, exist, answers⟩
    refine ⟨container, exist, answers, ?_⟩
    rcases answers with isName | isDockerId
    · have attributed := owned.2
      rw [← isName] at attributed
      rcases attributed_owns exist attributed with own | twin
      · exact own
      · exact absurd twin (tells.noTwin container exist isName)
    · exact attributed_id_owns exist isDockerId owned.2

/-- Attribution is sound and total, and deletion stays within the app, exactly when names
tell. -/
theorem container_attribution_iff (parser : UuidParser) (installation : Installation)
    (user : Uuid) (containerId : String) (app : App) (member : app ∈ installation.apps) :
    (ReadSoundly parser installation user containerId ∧ StopsOnlyOwn installation app) ↔
      NameTells parser installation user containerId ∧ DigitsApart installation app := by
  rw [read_soundly_iff, stops_only_own_iff parser member]

/-! Two apps whose ids begin with the same eight digits, each with its own owner. -/

/-- The hyphenated form in lower case. -/
def parsePlain (text : String) : Option Uuid :=
  if (Uuid.read text).toString = text then some (Uuid.read text) else none

theorem parse_plain_display (bits : id.value < 2 ^ 128) : parsePlain id.toString = some id := by
  unfold parsePlain
  rw [uuid_read bits]
  generalize id.toString = text
  exact if_pos rfl

theorem parse_plain_text {text : String} (parsed : parsePlain text = some id) :
    id.toString = text := by
  unfold parsePlain at parsed
  split_ifs at parsed with same
  rw [← Option.some.inj parsed]
  exact same

def plainParser : UuidParser where
  parseStr := parsePlain
  display _ bits := parse_plain_display bits
  forms := by
    intro text id parsed
    rw [← parse_plain_text parsed, uuid_lowercase]
    exact List.mem_cons_self

def firstTwin : App :=
  { demoApp with id := ⟨0x7f3a91c2000040008000000000000001⟩, ownerId := ⟨3⟩ }

def secondTwin : App :=
  { demoApp with id := ⟨0x7f3a91c2000040008000000000000002⟩, ownerId := ⟨4⟩ }

def twinApps (container : Container) (produced : Produced container.resource container.name)
    (hexId : ∀ ch ∈ container.dockerId.toList, isHexChar ch = true)
    (stored : container.resource = .app firstTwin.id ∨ container.resource = .app secondTwin.id) :
    Installation where
  apps := [firstTwin, secondTwin]
  databases := []
  queues := []
  latestDeployment _ := none
  containers := [container]
  appIds := by decide
  databaseIds := List.nodup_nil
  queueIds := List.nodup_nil
  appBits := by decide
  databaseBits := by simp
  queueBits := by simp
  produced := by simpa using produced
  hexIds := by simpa using hexId
  unique := by
    intro reference first inList second inListToo _ _
    rw [List.mem_singleton.mp inList, List.mem_singleton.mp inListToo]
  stored := by
    intro other inList
    rw [List.mem_singleton.mp inList]
    rcases stored with isFirst | isSecond
    · rw [isFirst]
      exact ⟨firstTwin, by simp, rfl⟩
    · rw [isSecond]
      exact ⟨secondTwin, by simp, rfl⟩
  databaseRecords := by simp
  queueRecords := by simp
  deploymentRecords := by simp

def workerContainer : Container :=
  ⟨containerName firstTwin demoService 0 ⟨10⟩, "ab", .app firstTwin.id⟩

def cronContainer : Container :=
  ⟨Cron.cronContainerName secondTwin demoService 0, "cd", .app secondTwin.id⟩

def withWorker : Installation :=
  twinApps workerContainer (Or.inl ⟨firstTwin, demoService, 0, ⟨10⟩, rfl, rfl⟩)
    (Text.every_char (by decide)) (Or.inl rfl)

def withCron : Installation :=
  twinApps cronContainer (Or.inr ⟨secondTwin, demoService, 0, rfl, rfl⟩)
    (Text.every_char (by decide)) (Or.inr rfl)

/-- A worker's container is told apart by its whole id. -/
theorem container_attribution_worker :
    ReadSoundly plainParser withWorker ⟨3⟩ workerContainer.name ∧
      StopsOnlyOwn withWorker firstTwin := by
  apply (container_attribution_iff plainParser withWorker ⟨3⟩ workerContainer.name firstTwin
    List.mem_cons_self).mpr
  refine ⟨⟨?_, ?_, ?_⟩, ?_⟩
  · rw [← @ensure_panics_iff plainParser withWorker ⟨3⟩]
    decide +kernel
  · intro container exist isName twin
    rcases twin with ⟨id, isApp, named, foreign, rest⟩
    rw [List.mem_singleton.mp exist] at isApp
    apply foreign
    rw [← isApp]
    exact ⟨firstTwin, List.mem_cons_self, rfl, rfl⟩
  · intro attributed
    exact ⟨workerContainer, List.mem_cons_self, Or.inl rfl⟩
  · intro container exist id isApp named digits
    rw [List.mem_singleton.mp exist] at isApp
    exact (Resource.app.inj isApp).symm

/-- The owner of the first app is let into a cron container of the second, and deleting
the first app stops it. -/
theorem twin_cron_container_taken :
    ¬ReadSoundly plainParser withCron ⟨3⟩ cronContainer.name ∧
      ¬StopsOnlyOwn withCron firstTwin := by
  constructor
  · intro sound
    have owned : ensureContainerOwned plainParser withCron ⟨3⟩ cronContainer.name = .owned := by
      decide +kernel
    rcases sound.2 owned with ⟨container, exist, answers, own⟩
    rw [List.mem_singleton.mp exist] at own
    rcases own with ⟨app, stored, isId, owner⟩
    revert isId owner
    rcases List.mem_cons.mp stored with isFirst | inRest
    · rw [isFirst]
      decide
    · rw [List.mem_singleton.mp inRest]
      decide
  · intro stops
    have stopped : cronContainer.name ∈ deleteAppRuntime withCron firstTwin := by decide +kernel
    have same := stops cronContainer List.mem_cons_self cronContainer.name stopped (Or.inl rfl)
      secondTwin.id rfl
    revert same
    decide

-- a character across byte 36 makes the slice panic
example :
    ensureContainerOwned plainParser withWorker ⟨3⟩
      "containr-00000000000000000000000000000000000é" = .panics := by
  decide +kernel

end Containr.Api
