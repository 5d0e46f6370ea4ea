import Containr.Api.Replicas
import Containr.Api.WellFormed
import Containr.Segments

/-!
# Names on the app's network

A replica's container is known on the app's network under the service's name and under
`{name}-{replica}`, a cron job's under `{name}-cron`. `build_services` keeps the names of
services apart, not what is made of them.
-/

namespace Containr.Api.Aliases

open Containr.Effect Containr.Effect.Program Containr.Worker Containr.Segments
open Containr.Api.Services

/-- The aliases `build_endpoint_settings` passes on. -/
def endpointAliases (aliases : List String) : List String :=
  (aliases.map Text.trim).filter fun hostname => !hostname.isEmpty

def replicaAliases (service : ContainerService) (replica : Nat) : List String :=
  endpointAliases (serviceNetworkAliases service.name replica)

def cronAliases (service : ContainerService) : List String :=
  endpointAliases [service.name ++ "-cron"]

/-- The worker starts `replicas` containers, the manager at least one. -/
def Answers (service : ContainerService) (hostname : String) : Prop :=
  if service.isCronJob then hostname ∈ cronAliases service
  else ∃ replica < desiredReplicas service, hostname ∈ replicaAliases service replica

instance (service : ContainerService) (hostname : String) : Decidable (Answers service hostname) :=
  inferInstanceAs (Decidable (ite _ _ _))

structure Unambiguous (services : List ContainerService) : Prop where
  /-- No two services answer to one hostname. -/
  apart : ∀ service ∈ services, ∀ other ∈ services, service ≠ other → ∀ hostname,
    Answers service hostname → ¬Answers other hostname
  /-- The hostname of a replica is held by that replica alone. -/
  single : ∀ service ∈ services, service.isCronJob = false →
    ∀ replica < desiredReplicas service, ∀ other ∈ services, other.isCronJob = false →
      ∀ index < desiredReplicas other,
        service.name ++ "-" ++ toString replica ∈ replicaAliases other index →
          other = service ∧ index = replica

theorem trim_chars_eq_self {chars : List Char}
    (first : ∀ ch, chars.head? = some ch → Text.isWhitespace ch = false)
    (last : ∀ ch, chars.getLast? = some ch → Text.isWhitespace ch = false) :
    Text.trimChars chars = chars := by
  have kept : ∀ text : List Char, (∀ ch, text.head? = some ch → Text.isWhitespace ch = false) →
      text.dropWhile Text.isWhitespace = text := by
    intro text dark
    cases text with
    | nil => rfl
    | cons ch rest => simp [dark ch rfl]
  unfold Text.trimChars
  rw [kept chars first, kept chars.reverse (by simpa using last), List.reverse_reverse]

variable {ch : Char}

theorem trimmed_head {text : String} (trimmed : Trimmed text) (first : text.toList.head? = some ch)
    : Text.isWhitespace ch = false := by
  have same := congrArg String.toList trimmed.1
  unfold Text.trim Text.trimChars at same
  rw [String.toList_ofList] at same
  by_contra blank
  have dropped := List.dropWhile_suffix (l := text.toList) Text.isWhitespace
  have shorter : (text.toList.dropWhile Text.isWhitespace).length < text.toList.length := by
    cases chars : text.toList with
    | nil =>
        rw [chars] at first
        cases first
    | cons head rest =>
        rw [chars] at first
        have isHead : head = ch := Option.some.inj first
        have isBlank : Text.isWhitespace head = true := by
          rw [isHead]
          simpa using blank
        have suffix := List.dropWhile_suffix (l := rest) Text.isWhitespace
        have length := suffix.length_le
        simp only [List.dropWhile_cons, isBlank, if_true, List.length_cons]
        omega
  have counted := congrArg List.length same
  have back := (List.dropWhile_suffix (l := (text.toList.dropWhile Text.isWhitespace).reverse)
    Text.isWhitespace).length_le
  rw [List.length_reverse] at counted
  rw [List.length_reverse] at back
  omega

theorem trimmed_append {name more : String} (trimmed : Trimmed name)
    (last : more.toList.getLast? = some ch) (dark : Text.isWhitespace ch = false) :
    Trimmed (name ++ more) := by
  have some : name.toList ≠ [] := by
    intro none
    have isEmpty := trimmed.2
    rw [String.toList_eq_nil_iff.mp none] at isEmpty
    cases isEmpty
  have chars : Text.trimChars (name ++ more).toList = (name ++ more).toList := by
    apply trim_chars_eq_self
    · intro head first
      rw [String.toList_append, List.head?_append_of_ne_nil _ some] at first
      exact trimmed_head trimmed first
    · intro tail ends
      rw [String.toList_append, List.getLast?_append, last] at ends
      cases ends
      exact dark
  constructor
  · unfold Text.trim
    rw [chars, String.ofList_toList]
  · rw [← Bool.not_eq_true, String.isEmpty_iff]
    intro none
    have lists := congrArg String.toList none
    rw [String.toList_append] at lists
    exact some (List.append_eq_nil_iff.mp lists).1

theorem endpoint_aliases_eq {aliases : List String} (trimmed : ∀ hostname ∈ aliases, Trimmed hostname) :
    endpointAliases aliases = aliases := by
  induction aliases with
  | nil => rfl
  | cons hostname rest ih =>
      have first := trimmed hostname List.mem_cons_self
      have others := ih fun other member => trimmed other (List.mem_cons_of_mem _ member)
      unfold endpointAliases at others ⊢
      rw [List.map_cons, first.1, List.filter_cons, first.2, others]
      rfl

theorem digit_dark (digit : ch.isDigit = true) : Text.isWhitespace ch = false := by
  simp only [Char.isDigit, Bool.and_eq_true, decide_eq_true_eq] at digit
  have low : 48 ≤ ch.toNat := UInt32.le_iff_toNat_le.mp digit.1
  have high : ch.toNat ≤ 57 := UInt32.le_iff_toNat_le.mp digit.2
  unfold Text.isWhitespace
  simp only [Bool.or_eq_false_iff, Bool.and_eq_false_iff, decide_eq_false_iff_not, beq_eq_false_iff_ne]
  omega

theorem replica_alias_trimmed {name : String} (trimmed : Trimmed name) (replica : Nat) :
    Trimmed (name ++ "-" ++ toString replica) := by
  have dark : ∃ ch, ("-" ++ toString replica).toList.getLast? = some ch ∧ ch.isDigit = true := by
    obtain ⟨ch, last⟩ := List.getLast?_isSome.mpr (repr_ne_nil replica) |> Option.isSome_iff_exists.mp
    refine ⟨ch, ?_, repr_digits replica ch (List.mem_of_getLast? last)⟩
    rw [String.toList_append, List.getLast?_append, last]
    rfl
  obtain ⟨ch, last, digit⟩ := dark
  rw [String.append_assoc]
  exact trimmed_append trimmed last (digit_dark digit)

variable {service : ContainerService}

theorem replica_aliases_eq (named : Trimmed service.name) (replica : Nat) :
    replicaAliases service replica = [service.name, service.name ++ "-" ++ toString replica] := by
  apply endpoint_aliases_eq
  intro hostname member
  rcases List.mem_cons.mp member with isName | later
  · rw [isName]
    exact named
  · rw [List.mem_singleton.mp later]
    exact replica_alias_trimmed named replica

theorem cron_aliases_eq (named : Trimmed service.name) :
    cronAliases service = [service.name ++ "-cron"] := by
  apply endpoint_aliases_eq
  intro hostname member
  rw [List.mem_singleton.mp member]
  have last : "-cron".toList.getLast? = some 'n' := rfl
  exact trimmed_append named last (by decide)

/-- The name of `other` is what a container of `service` is known under besides its name. -/
def TakesName (service other : ContainerService) : Prop :=
  if service.isCronJob then other.name = service.name ++ "-cron"
  else ∃ replica < desiredReplicas service, other.name = service.name ++ "-" ++ toString replica

instance (service other : ContainerService) : Decidable (TakesName service other) :=
  inferInstanceAs (Decidable (ite _ _ _))

theorem answers_iff (named : Trimmed service.name) (hostname : String) : Answers service hostname ↔
      (service.isCronJob = false ∧ hostname = service.name) ∨
        if service.isCronJob then hostname = service.name ++ "-cron"
        else ∃ replica < desiredReplicas service,
          hostname = service.name ++ "-" ++ toString replica := by
  unfold Answers
  cases kind : service.isCronJob with
  | true => simp [cron_aliases_eq named]
  | false =>
      simp only [replica_aliases_eq named, List.mem_cons, List.not_mem_nil, or_false, true_and,
        Bool.false_eq_true, if_false]
      constructor
      · intro found
        obtain ⟨replica, small, isName | isAlias⟩ := found
        · exact Or.inl isName
        · exact Or.inr ⟨replica, small, isAlias⟩
      · intro found
        rcases found with isName | ⟨replica, small, isAlias⟩
        · exact ⟨0, Nat.lt_of_lt_of_le Nat.zero_lt_one (Nat.le_max_right _ _), Or.inl isName⟩
        · exact ⟨replica, small, Or.inr isAlias⟩

/-- The part of a name behind its last hyphen. -/
theorem dashed_inj {first second piece rest : String} (plain : '-' ∉ piece.toList)
    (plainRest : '-' ∉ rest.toList) (same : first ++ "-" ++ piece = second ++ "-" ++ rest) :
    first = second ∧ piece = rest := by
  have lists := congrArg String.toList same
  have fields : first.toList ++ '-' :: piece.toList = second.toList ++ '-' :: rest.toList := by
    simpa [String.toList_append] using lists
  obtain ⟨fronts, lasts⟩ := (append_mark_inj plain plainRest).mp fields
  exact ⟨String.toList_injective fronts, String.toList_injective lasts⟩

theorem cron_dashed (name : String) : name ++ "-cron" = name ++ "-" ++ "cron" := by
  rw [String.append_assoc]
  rfl

theorem cron_plain : '-' ∉ "cron".toList := by decide

/-- Behind the hyphen stands `cron` or a number, so made names agree only within a service. -/
theorem made_names_apart {other : ContainerService} {hostname : String}
    (made : if service.isCronJob then hostname = service.name ++ "-cron"
      else ∃ replica < desiredReplicas service, hostname = service.name ++ "-" ++ toString replica)
    (too : if other.isCronJob then hostname = other.name ++ "-cron"
      else ∃ replica < desiredReplicas other, hostname = other.name ++ "-" ++ toString replica) :
    service.name = other.name := by
  have dashed : ∀ candidate : ContainerService,
      (if candidate.isCronJob then hostname = candidate.name ++ "-cron"
        else ∃ replica < desiredReplicas candidate,
          hostname = candidate.name ++ "-" ++ toString replica) →
      ∃ piece : String, '-' ∉ piece.toList ∧ hostname = candidate.name ++ "-" ++ piece := by
    intro candidate named
    cases kind : candidate.isCronJob with
    | true =>
        rw [kind, if_pos rfl] at named
        exact ⟨"cron", cron_plain, named.trans (cron_dashed candidate.name)⟩
    | false =>
        rw [kind] at named
        obtain ⟨replica, -, isAlias⟩ := named
        exact ⟨toString replica, repr_plain replica, isAlias⟩
  obtain ⟨piece, plain, isPiece⟩ := dashed service made
  obtain ⟨rest, plainRest, isRest⟩ := dashed other too
  exact (dashed_inj plain plainRest (isPiece.symm.trans isRest)).1

/-- Names on the network are unambiguous when no long-running service is named like one. -/
theorem aliases_unambiguous_iff {crates : Crates} {appId : Uuid} {calls : List BuildCall}
    {services : List ContainerService} (reached : Reachable crates appId calls services) :
    Unambiguous services ↔ ∀ service ∈ services, ∀ other ∈ services, other.isCronJob = false →
      ¬TakesName service other := by
  obtain ⟨stored, distinct⟩ := reached.stored
  have named : ∀ service ∈ services, Trimmed service.name :=
    fun service member => (stored service member).named
  have byName : ∀ service ∈ services, ∀ other ∈ services, service.name = other.name →
      service = other :=
    fun service member other inServices same =>
      List.inj_on_of_nodup_map distinct member inServices same
  constructor
  · intro clear service member other inServices longRunning takes
    have answers : Answers service other.name :=
      (answers_iff (named service member) _).mpr (Or.inr takes)
    have own : Answers other other.name :=
      (answers_iff (named other inServices) _).mpr (Or.inl ⟨longRunning, rfl⟩)
    by_cases same : service = other
    · -- a name made of the service's name is longer than it
      rw [same] at takes
      unfold TakesName at takes
      rw [longRunning] at takes
      obtain ⟨replica, -, isAlias⟩ := takes
      have counted := congrArg (fun text => text.toList.length) isAlias
      simp [String.toList_append] at counted
    · exact clear.apart service member other inServices same other.name answers own
  · intro free
    constructor
    · intro service member other inServices different hostname answers too
      rcases (answers_iff (named service member) _).mp answers with ⟨kind, isName⟩ | made
      · rcases (answers_iff (named other inServices) _).mp too with ⟨-, isOther⟩ | madeToo
        · exact different (byName service member other inServices (isName.symm.trans isOther))
        · rw [isName] at madeToo
          exact free other inServices service member kind madeToo
      · rcases (answers_iff (named other inServices) _).mp too with ⟨kind, isOther⟩ | madeToo
        · rw [isOther] at made
          exact free service member other inServices kind made
        · exact different (byName service member other inServices (made_names_apart made madeToo))
    · intro service member kind replica small other inServices longRunning index _ held
      rw [replica_aliases_eq (named other inServices), List.mem_cons, List.mem_singleton] at held
      rcases held with isName | isAlias
      · have takes : TakesName service other := by
          unfold TakesName
          rw [kind]
          exact ⟨replica, small, isName.symm⟩
        exact absurd takes (free service member other inServices longRunning)
      · obtain ⟨names, numbers⟩ := dashed_inj (repr_plain replica) (repr_plain index) isAlias
        exact ⟨byName other inServices service member names.symm, repr_inj.mp numbers.symm⟩

/-- Two services that are accepted together. -/
def demoNamed (first second : String) : Option (List ContainerService) :=
  ((buildServices demoCrates ⟨1⟩ [] [demoServiceRequest first, demoServiceRequest second]
    false).run.run system calm World.empty).1.toOption

theorem demo_named_reachable {first second : String} {services : List ContainerService}
    (built : demoNamed first second = some services) :
    Reachable demoCrates ⟨1⟩ [⟨[], [demoServiceRequest first, demoServiceRequest second], services⟩]
      services := by
  have run := runs_run system calm calm_admitted
    (buildServices demoCrates ⟨1⟩ [] [demoServiceRequest first, demoServiceRequest second]
      false).run World.empty
  have accepted := run.yields
  rw [ok_of_to_option built] at accepted
  exact .build .none .nil accepted

theorem aliases_unambiguous_named : ∃ calls services, Reachable demoCrates ⟨1⟩ calls services ∧
    services.map (·.name) = ["web", "api"] ∧ Unambiguous services := by
  have ran : (demoNamed "web" "api").map (fun services =>
      decide (services.map (·.name) = ["web", "api"] ∧ ∀ service ∈ services, ∀ other ∈ services,
        ¬TakesName service other)) = some true := by decide +kernel
  obtain ⟨services, built, shown⟩ := Option.map_eq_some_iff.mp ran
  obtain ⟨names, free⟩ := of_decide_eq_true shown
  refine ⟨_, services, demo_named_reachable built, names, ?_⟩
  apply (aliases_unambiguous_iff (demo_named_reachable built)).mpr
  exact fun service member other inServices _ => free service member other inServices

/-- The service `web-0` has the alias of the first replica of `web`. -/
theorem replica_alias_taken : ∃ calls services, Reachable demoCrates ⟨1⟩ calls services ∧
    services.map (·.name) = ["web", "web-0"] ∧ ¬Unambiguous services := by
  have ran : (demoNamed "web" "web-0").bind (fun services => services[0]?.bind fun web =>
      services[1]?.map fun dashed =>
        decide (services.map (·.name) = ["web", "web-0"] ∧ web ≠ dashed ∧ Answers web "web-0" ∧
          Answers dashed "web-0")) = some true := by decide +kernel
  obtain ⟨services, built, rest⟩ := Option.bind_eq_some_iff.mp ran
  obtain ⟨web, isWeb, rest⟩ := Option.bind_eq_some_iff.mp rest
  obtain ⟨dashed, isDashed, shown⟩ := Option.map_eq_some_iff.mp rest
  obtain ⟨names, different, answers, too⟩ := of_decide_eq_true shown
  refine ⟨_, services, demo_named_reachable built, names, ?_⟩
  intro clear
  exact clear.apart web (List.mem_of_getElem? isWeb) dashed (List.mem_of_getElem? isDashed)
    different "web-0" answers too

end Containr.Api.Aliases
