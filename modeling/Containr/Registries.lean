import Containr.Effect.Yields
import Containr.ServiceSupport
import Containr.Trimming

/-!
# Credentials for a pull

`pull_image_with_credentials` of `containr-runtime/src/image.rs` behind
`resolve_registry_credentials`. The credentials go to the registry of the image, except when
the image is on Docker Hub and says so: `docker.io/library/redis` is pulled with the address
`docker.io`, which is not the default index.
-/

namespace Containr

open Containr.Effect Containr.Text

/-- A `:` in the host is not a tag. -/
def normalizeImageReference (name : String) : String :=
  let name := trim name
  if name.toList.contains '@' then name
  else
    let lastSegment := String.ofList (name.toList.rtakeWhile (· ≠ '/'))
    if lastSegment.toList.contains ':' then name else name ++ ":latest"

def defaultIndex : String := "https://index.docker.io/v1/"

def resolveRegistryServer (name : String) (configuredServer : Option String) : String :=
  match (configuredServer.map trim).filter fun server => !server.isEmpty with
  | some server => server
  | none =>
      match splitOnce '/' name with
      | none => defaultIndex
      | some (firstSegment, _) =>
          if firstSegment.toList.contains '.' || firstSegment.toList.contains ':' ||
              firstSegment = "localhost" then firstSegment
          else defaultIndex

structure DockerCredentials where
  username : String
  password : String
  serveraddress : String
deriving DecidableEq, Repr

/-- What docker is asked for: `from_image`, and the header with the credentials. -/
structure PullRequest where
  fromImage : String
  credentials : Option DockerCredentials
deriving DecidableEq, Repr

def pullRequest (name : String) (credentials : Option RegistryCredentials) : PullRequest where
  fromImage := normalizeImageReference name
  credentials := credentials.map fun credentials =>
    ⟨credentials.username, credentials.password, resolveRegistryServer name credentials.server⟩

inductive Registry where
  | dockerHub
  | host (name : String)
deriving DecidableEq, Repr

def hubHosts : List String :=
  ["", "docker.io", "index.docker.io", "registry-1.docker.io", "registry.hub.docker.com"]

def Registry.ofHost (host : String) : Registry := if host ∈ hubHosts then .dockerHub else .host host

/-- The address names the host: blanks around it, a scheme before it and a path behind it do not
count, and neither does the case of its letters. -/
structure Addresses (address host : String) : Prop where
  written : ∃ scheme name path : String, trim address = scheme ++ (name ++ path) ∧
    (scheme = "https://" ∨ scheme = "http://" ∨ scheme = "" ∧
      startsWith (trim address) "https://" = false ∧ startsWith (trim address) "http://" = false) ∧
    '/' ∉ name.toList ∧ (path = "" ∨ ∃ rest, path = "/" ++ rest) ∧ toAsciiLowercase name = host

def ContainerRegistry.StandsFor (saved : ContainerRegistry) (registry : Registry) : Prop :=
  ∃ host, Addresses saved.server host ∧ registry = .ofHost host

/-- What docker takes the address of the credentials for: Docker Hub is its default index only. -/
def Denotes (address : String) : Registry → Prop
  | .dockerHub => address = defaultIndex
  | .host name => Addresses address name

def NamesHost (first : String) : Prop :=
  '.' ∈ first.toList ∨ ':' ∈ first.toList ∨ first = "localhost"

inductive ServedBy (image : String) : Registry → Prop where
  | official (single : '/' ∉ (trim image).toList) : ServedBy image .dockerHub
  | repository (first rest : String) (whole : trim image = first ++ ("/" ++ rest))
      (plain : '/' ∉ first.toList) (unnamed : ¬NamesHost first) : ServedBy image .dockerHub
  | hosted (first rest : String) (whole : trim image = first ++ ("/" ++ rest))
      (plain : '/' ∉ first.toList) (named : NamesHost first) :
      ServedBy image (.ofHost (toAsciiLowercase (trim first)))

def WithHost (image : String) : Prop :=
  ∃ first rest : String, trim image = first ++ ("/" ++ rest) ∧ '/' ∉ first.toList ∧ NamesHost first

/-- The text that `normalize_registry_host` compares with the hosts of Docker Hub. -/
def serverHost (server : String) : String :=
  let trimmed := trim server
  let withoutScheme :=
    ((stripFront trimmed "https://").orElse fun _ => stripFront trimmed "http://").getD trimmed
  toAsciiLowercase (String.ofList (withoutScheme.toList.takeWhile (· ≠ '/')))

def canonicalHost (host : String) : String := if host ∈ hubHosts then dockerHubHost else host

theorem normalize_registry_host_eq (server : String) :
    normalizeRegistryHost server = canonicalHost (serverHost server) := rfl

theorem until_slash {name path : String} (plain : '/' ∉ name.toList)
    (behind : path = "" ∨ ∃ rest, path = "/" ++ rest) :
    String.ofList ((name ++ path).toList.takeWhile (· ≠ '/')) = name := by
  have differs : ∀ ch ∈ name.toList, decide (ch ≠ '/') = true := by
    intro ch member
    simp only [ne_eq, decide_eq_true_eq]
    intro same
    rw [same] at member
    exact plain member
  have ends : path.toList.takeWhile (· ≠ '/') = [] := by
    rcases behind with nothing | ⟨rest, slash⟩
    · simp [nothing]
    · simp [slash]
  rw [String.toList_append, List.takeWhile_append_of_pos differs, ends, List.append_nil,
    String.ofList_toList]

theorem slash_split (text : String) : ∃ name path : String, text = name ++ path ∧
    '/' ∉ name.toList ∧ (path = "" ∨ ∃ rest, path = "/" ++ rest) := by
  cases cut : splitOnce '/' text with
  | none =>
      exact ⟨text, "", String.append_empty.symm, (split_once_none_iff '/' text).mp cut, Or.inl rfl⟩
  | some parts =>
      have facts := (split_once_iff '/' text parts.1 parts.2).mp cut
      have whole : text = parts.1 ++ ("/" ++ parts.2) := by
        apply String.toList_inj.mp
        rw [facts.1]
        simp
      exact ⟨parts.1, "/" ++ parts.2, whole, facts.2, Or.inr ⟨parts.2, rfl⟩⟩

theorem http_not_https (rest : String) : ¬startsWith ("http://" ++ rest) "https://" = true := by
  have plain : "http://" = "http" ++ "://" := rfl
  have secure : "https://" = "http" ++ "s://" := rfl
  rw [plain, secure, String.append_assoc, starts_with_append]
  intro starts
  obtain ⟨more, whole⟩ := starts_with_iff.mp starts
  have heads := congrArg (fun text : String => text.toList.head?) whole
  simp at heads

theorem addresses_iff (address host : String) :
    Addresses address host ↔ serverHost address = host := by
  constructor
  · intro addresses
    obtain ⟨scheme, name, path, whole, named, plain, behind, lowered⟩ := addresses.written
    have stripped : ((stripFront (trim address) "https://").orElse fun _ =>
        stripFront (trim address) "http://").getD (trim address) = name ++ path := by
      rcases named with secure | insecure | ⟨bare, notSecure, notInsecure⟩
      · rw [whole, secure, strip_front_append]
        rfl
      · rw [whole, insecure, strip_front_none (http_not_https _), strip_front_append]
        rfl
      · rw [strip_front_none (by simp [notSecure]), strip_front_none (by simp [notInsecure]),
          whole, bare]
        simp
    unfold serverHost
    dsimp only
    rw [stripped, until_slash plain behind, lowered]
  · intro same
    have split (scheme rest : String) (whole : trim address = scheme ++ rest)
        (named : scheme = "https://" ∨ scheme = "http://" ∨ scheme = "" ∧
          startsWith (trim address) "https://" = false ∧
          startsWith (trim address) "http://" = false)
        (stripped : ((stripFront (trim address) "https://").orElse fun _ =>
          stripFront (trim address) "http://").getD (trim address) = rest) :
        Addresses address host := by
      obtain ⟨name, path, parts, plain, behind⟩ := slash_split rest
      unfold serverHost at same
      dsimp only at same
      rw [stripped, parts, until_slash plain behind] at same
      exact ⟨scheme, name, path, by rw [whole, parts], named, plain, behind, same⟩
    by_cases secure : startsWith (trim address) "https://" = true
    · obtain ⟨rest, whole⟩ := starts_with_iff.mp secure
      apply split "https://" rest whole (Or.inl rfl)
      rw [whole, strip_front_append]
      rfl
    · by_cases insecure : startsWith (trim address) "http://" = true
      · obtain ⟨rest, whole⟩ := starts_with_iff.mp insecure
        apply split "http://" rest whole (Or.inr (Or.inl rfl))
        rw [strip_front_none secure, whole, strip_front_append]
        rfl
      · apply split "" (trim address) (by simp)
        · exact Or.inr (Or.inr ⟨rfl, by simpa using secure, by simpa using insecure⟩)
        · rw [strip_front_none secure, strip_front_none insecure]
          rfl

theorem of_host_eq_iff (one other : String) :
    Registry.ofHost one = .ofHost other ↔ canonicalHost one = canonicalHost other := by
  have listed : dockerHubHost ∈ hubHosts := by decide
  unfold Registry.ofHost canonicalHost
  split_ifs with inOne inOther inOther
  · simp
  · simp only [false_iff]
    intro same
    exact inOther (same ▸ listed)
  · simp only [false_iff]
    intro same
    exact inOne (same ▸ listed)
  · simp

variable (image : String) (saved : ContainerRegistry) (registry : Registry)

theorem stands_for_iff :
    saved.StandsFor registry ↔ registry = .ofHost (serverHost saved.server) := by
  unfold ContainerRegistry.StandsFor
  simp [addresses_iff]

theorem names_host_iff (first : String) : (first.toList.contains '.' || first.toList.contains ':' ||
    decide (first = "localhost")) = true ↔ NamesHost first := by
  unfold NamesHost
  simp [or_assoc]

theorem server_host_segment {first : String} (plain : '/' ∉ first.toList) :
    serverHost first = toAsciiLowercase (trim first) := by
  have inner : '/' ∉ (trim first).toList := by
    intro inside
    unfold trim at inside
    rw [String.toList_ofList] at inside
    exact plain (trim_chars_subset _ inside)
  have addresses : Addresses first (toAsciiLowercase (trim first)) := {
    written := ⟨"", trim first, "", by simp, Or.inr (Or.inr ⟨rfl,
      @starts_with_false _ _ '/' (by decide) inner,
      @starts_with_false _ _ '/' (by decide) inner⟩), inner, Or.inl rfl, rfl⟩ }
  exact (addresses_iff first _).mp addresses

def imageHost (image : String) : String :=
  match splitOnce '/' (trim image) with
  | none => ""
  | some (first, _) =>
      if first.toList.contains '.' || first.toList.contains ':' || first = "localhost" then
        toAsciiLowercase (trim first)
      else ""

theorem slash_split_iff (text first rest : String) :
    splitOnce '/' text = some (first, rest) ↔
      text = first ++ ("/" ++ rest) ∧ '/' ∉ first.toList := by
  have same : text = first ++ ("/" ++ rest) ↔ text.toList = first.toList ++ '/' :: rest.toList := by
    rw [← String.toList_inj]
    simp
  rw [split_once_iff, same]

theorem served_by_iff : ServedBy image registry ↔ registry = .ofHost (imageHost image) := by
  unfold imageHost
  constructor
  · intro served
    cases served with
    | official single =>
        rw [(split_once_none_iff '/' _).mpr single]
        rfl
    | repository first rest whole plain unnamed =>
        have other := mt (names_host_iff first).mp unnamed
        rw [(slash_split_iff _ first rest).mpr ⟨whole, plain⟩]
        dsimp only
        rw [if_neg other]
        rfl
    | hosted first rest whole plain named =>
        rw [(slash_split_iff _ first rest).mpr ⟨whole, plain⟩]
        dsimp only
        rw [if_pos ((names_host_iff first).mpr named)]
  · intro same
    cases cut : splitOnce '/' (trim image) with
    | none =>
        rw [cut] at same
        rw [same]
        exact .official ((split_once_none_iff '/' _).mp cut)
    | some parts =>
        have facts := (slash_split_iff _ parts.1 parts.2).mp cut
        rw [cut] at same
        dsimp only at same
        split_ifs at same with named
        · rw [same]
          exact .hosted parts.1 parts.2 facts.1 facts.2 ((names_host_iff _).mp named)
        · rw [same]
          exact .repository parts.1 parts.2 facts.1 facts.2 (mt (names_host_iff _).mpr named)

theorem image_registry_host_eq : imageRegistryHost image = canonicalHost (imageHost image) := by
  have none : canonicalHost "" = dockerHubHost := by decide
  unfold imageRegistryHost imageHost
  cases cut : splitOnce '/' (trim image) with
  | none => exact none.symm
  | some parts =>
      have facts := (slash_split_iff _ parts.1 parts.2).mp cut
      dsimp only
      by_cases named : (parts.1.toList.contains '.' || parts.1.toList.contains ':' ||
        decide (parts.1 = "localhost")) = true
      · rw [if_pos named, if_pos named, normalize_registry_host_eq, server_host_segment facts.2]
      · rw [if_neg named, if_neg named, none]

def ContainerRegistry.Serves (saved : ContainerRegistry) (image : String) : Prop :=
  ∃ registry, ServedBy image registry ∧ saved.StandsFor registry

theorem matches_image_iff (image : String) :
    saved.matchesImage image = true ↔ saved.Serves image := by
  have same := of_host_eq_iff (serverHost saved.server) (imageHost image)
  rw [← normalize_registry_host_eq, ← image_registry_host_eq] at same
  unfold ContainerRegistry.matchesImage ContainerRegistry.Serves
  simp [served_by_iff, stands_for_iff, ← same, eq_comm]

theorem is_docker_hub_host_iff :
    isDockerHubHost saved.server = true ↔ saved.StandsFor .dockerHub := by
  have same := of_host_eq_iff (serverHost saved.server) "docker.io"
  have hub : Registry.ofHost "docker.io" = .dockerHub := by decide
  have default : canonicalHost "docker.io" = dockerHubHost := by decide
  rw [← normalize_registry_host_eq, hub, default] at same
  unfold isDockerHubHost
  rw [stands_for_iff, decide_eq_true_eq, ← same, eq_comm]

theorem with_host_iff : WithHost image ↔
    ∃ first rest, splitOnce '/' (trim image) = some (first, rest) ∧ NamesHost first := by
  unfold WithHost
  simp only [slash_split_iff, and_assoc]

theorem not_blank_mark {spaces : List Char} (blank : Blank spaces) {mark : Char}
    (visible : isWhitespace mark = false) : mark ∉ spaces := by
  intro inside
  rw [blank mark inside] at visible
  cases visible

/-- The reference of an image on Docker Hub leads to the default index if it names no host. -/
theorem hub_server_iff {image : String} (hub : ServedBy image .dockerHub) :
    resolveRegistryServer image none = defaultIndex ↔ ¬WithHost image := by
  obtain ⟨leading, trailing, blankLeading, blankTrailing, whole⟩ := trim_chars_split image.toList
  have trimmed : (trim image).toList = trimChars image.toList := String.toList_ofList
  rw [← trimmed] at whole
  rw [with_host_iff]
  unfold resolveRegistryServer
  simp only [Option.map_none, Option.filter_none]
  cases cut : splitOnce '/' (trim image) with
  | none =>
      have single := (split_once_none_iff '/' _).mp cut
      have nowhere : '/' ∉ image.toList := by
        rw [whole, List.mem_append, List.mem_append]
        rintro (front | inner | back)
        · exact not_blank_mark blankLeading (by decide) front
        · exact single inner
        · exact not_blank_mark blankTrailing (by decide) back
      rw [(split_once_none_iff '/' image).mpr nowhere]
      simp
  | some parts =>
      have facts := (split_once_iff '/' _ parts.1 parts.2).mp cut
      have front : '/' ∉ (String.ofList (leading ++ parts.1.toList)).toList := by
        rw [String.toList_ofList, List.mem_append]
        rintro (blank | inner)
        · exact not_blank_mark blankLeading (by decide) blank
        · exact facts.2 inner
      have untrimmed : splitOnce '/' image = some (String.ofList (leading ++ parts.1.toList),
          String.ofList (parts.2.toList ++ trailing)) := by
        apply (split_once_iff _ _ _ _).mpr
        constructor
        · rw [whole, facts.1]
          simp
        · exact front
      have dots : '.' ∉ leading := not_blank_mark blankLeading (by decide)
      have colons : ':' ∉ leading := not_blank_mark blankLeading (by decide)
      have notLocal : parts.1 ≠ "localhost" := by
        intro same
        have served := (served_by_iff image .dockerHub).mp hub
        unfold imageHost at served
        rw [cut] at served
        dsimp only at served
        rw [same] at served
        exact absurd served (by decide)
      have wholeNotLocal : String.ofList (leading ++ parts.1.toList) ≠ "localhost" := by
        intro same
        have chars := congrArg String.toList same
        rw [String.toList_ofList] at chars
        cases leading with
        | nil => exact notLocal (String.toList_inj.mp chars)
        | cons ch others =>
            have letter : ch = 'l' := congrArg (fun chars : List Char => chars.headD ' ') chars
            have space := blankLeading ch List.mem_cons_self
            rw [letter] at space
            exact absurd space (by decide)
      have named : NamesHost (String.ofList (leading ++ parts.1.toList)) ↔ NamesHost parts.1 := by
        unfold NamesHost
        simp only [wholeNotLocal, notLocal, or_false, String.toList_ofList, List.mem_append, dots,
          colons, false_or]
      have index : '/' ∈ defaultIndex.toList := by decide
      rw [untrimmed]
      dsimp only
      constructor
      · intro address found
        obtain ⟨first, rest, same, host⟩ := found
        rw [← (Prod.mk.inj (Option.some.inj same)).1] at host
        rw [if_pos ((names_host_iff _).mpr (named.mpr host))] at address
        rw [← address] at index
        exact front index
      · intro nowhere
        apply if_neg
        intro host
        exact nowhere ⟨parts.1, parts.2, rfl, named.mp ((names_host_iff _).mp host)⟩

/-- Elsewhere the saved address is used, and denotes the registry it stands for. -/
theorem saved_server_denotes {saved : ContainerRegistry} {name : String}
    (stands : saved.StandsFor (.host name)) (image : String) :
    Denotes (resolveRegistryServer image (some saved.server)) (.host name) := by
  obtain ⟨host, addresses, same⟩ := stands
  have other : host ∉ hubHosts := by
    intro listed
    unfold Registry.ofHost at same
    rw [if_pos listed] at same
    cases same
  have isHost : name = host := by
    unfold Registry.ofHost at same
    rw [if_neg other] at same
    exact Registry.host.inj same
  have written := (addresses_iff saved.server host).mp addresses
  have nonempty : (trim saved.server).isEmpty = false := by
    cases empty : (trim saved.server).isEmpty with
    | false => rfl
    | true =>
        have nothing : trim saved.server = "" := String.isEmpty_iff.mp empty
        unfold serverHost at written
        rw [nothing] at written
        rw [← written] at other
        exact absurd (by decide) other
  have address : resolveRegistryServer image (some saved.server) = trim saved.server := by
    have kept : ((some saved.server).map trim).filter (fun server => !server.isEmpty) =
        some (trim saved.server) := by
      rw [Option.map_some, Option.filter_some, nonempty]
      rfl
    unfold resolveRegistryServer
    rw [kept]
  rw [address, isHost]
  apply (addresses_iff _ _).mpr
  unfold serverHost at written ⊢
  rw [trim_idem]
  exact written

theorem trim_tagged (name : String) : trim (trim name ++ ":latest") = trim name ++ ":latest" := by
  have inner : trimChars (trim name).toList = (trim name).toList := by
    have again := congrArg String.toList (trim_idem name)
    unfold trim at again ⊢
    rwa [String.toList_ofList] at again
  have tag : trimChars ":latest".toList = ":latest".toList := by decide
  have whole := trim_chars_append inner tag
  have joined : (trim name ++ ":latest").toList = (trim name).toList ++ ":latest".toList :=
    String.toList_append
  have outer : trim (trim name ++ ":latest") =
      String.ofList (trimChars (trim name ++ ":latest").toList) := rfl
  rw [outer, joined, whole, ← joined, String.ofList_toList]

/-- The tag docker is asked for does not change the host. -/
theorem image_host_tagged : imageHost (trim image ++ ":latest") = imageHost image := by
  unfold imageHost
  rw [trim_tagged]
  cases cut : splitOnce '/' (trim image) with
  | none =>
      have single := (split_once_none_iff '/' _).mp cut
      have still : splitOnce '/' (trim image ++ ":latest") = none := by
        apply (split_once_none_iff '/' _).mpr
        rw [String.toList_append, List.mem_append]
        intro inside
        rcases inside with name | tag
        · exact single name
        · exact absurd tag (by decide)
      rw [still]
  | some parts =>
      have facts := (slash_split_iff _ parts.1 parts.2).mp cut
      have still : splitOnce '/' (trim image ++ ":latest") =
          some (parts.1, parts.2 ++ ":latest") := by
        apply (slash_split_iff _ _ _).mpr
        rw [facts.1, String.append_assoc, String.append_assoc]
        exact ⟨rfl, facts.2⟩
      rw [still]

theorem image_host_normalized : imageHost (normalizeImageReference image) = imageHost image := by
  have same : imageHost (trim image) = imageHost image := by
    unfold imageHost
    rw [trim_idem]
  unfold normalizeImageReference
  dsimp only
  split_ifs
  · exact same
  · exact same
  · exact image_host_tagged image

theorem served_by_normalized :
    ServedBy (normalizeImageReference image) registry ↔ ServedBy image registry := by
  rw [served_by_iff, served_by_iff, image_host_normalized]

/-- What is expected of the credentials for an image: they are sent to the registry that serves
what is pulled, and they are found if a saved registry serves it. -/
def CredentialsReach (image : String) (registries : List ContainerRegistry) :
    Except String (Option RegistryCredentials) → Prop
  | .ok (some credentials) => ∃ registry sent,
      ServedBy (pullRequest image (some credentials)).fromImage registry ∧
      (pullRequest image (some credentials)).credentials = some sent ∧
      Denotes sent.serveraddress registry
  | .ok none | .error _ => ∀ saved ∈ registries, ¬saved.Serves image

/-- The first saved registry of the image has a password that can be read, and an image on Docker
Hub names no host. -/
def Addressable (runtime : Runtime) (image : String) (registries : List ContainerRegistry) : Prop :=
  ∀ saved, registries.find? (·.matchesImage image) = some saved →
    (∃ password, decryptStoredSecret runtime saved.passwordEnc = .ok password) ∧
    (ServedBy image .dockerHub → ¬WithHost image)

def savedCredentials (runtime : Runtime) (image : String) (registries : List ContainerRegistry) :
    Except String (Option RegistryCredentials) :=
  match registries.find? (·.matchesImage image) with
  | none => .ok none
  | some saved =>
      match decryptStoredSecret runtime saved.passwordEnc with
      | .ok password => .ok (some ⟨if isDockerHubHost saved.server then none else some saved.server,
          saved.username, password⟩)
      | .error message => .error message

theorem resolve_registry_credentials_saved (runtime : Runtime) (ownerId : Uuid)
    {service : ContainerService} (plain : service.registryAuth = none) (image : String)
    {oracle : (op : Op) → op.Answer} {registries : List ContainerRegistry}
    (listed : oracle (.query (.registriesByOwner ownerId)) = .ok registries) :
    (resolveRegistryCredentials runtime ownerId service image).run.evaluate oracle =
      savedCredentials runtime image registries := by
  have asked : (Store.listRegistriesByOwner ownerId).run.evaluate oracle = .ok registries := listed
  unfold resolveRegistryCredentials savedCredentials
  rw [plain]
  dsimp only
  rw [ExceptT.run_bind, Program.bind_eq, Program.evaluate_bind, asked]
  dsimp only
  cases registries.find? (·.matchesImage image) with
  | none => rfl
  | some saved =>
      dsimp only
      cases decryptStoredSecret runtime saved.passwordEnc with
      | ok password => rfl
      | error message => rfl

theorem served_by_unique {image : String} {one other : Registry} (first : ServedBy image one)
    (second : ServedBy image other) : one = other := by
  rw [served_by_iff] at first second
  rw [first, second]

theorem credentials_reach_some (registries : List ContainerRegistry)
    (credentials : RegistryCredentials) :
    CredentialsReach image registries (.ok (some credentials)) ↔ ∃ registry,
      ServedBy image registry ∧ Denotes (resolveRegistryServer image credentials.server) registry := by
  unfold CredentialsReach pullRequest
  simp [served_by_normalized]

theorem saved_credentials_reach_iff {saved : ContainerRegistry} {image : String}
    (serves : saved.Serves image) (registries : List ContainerRegistry) (password : String) :
    CredentialsReach image registries (.ok (some ⟨if isDockerHubHost saved.server then none
        else some saved.server, saved.username, password⟩)) ↔
      (ServedBy image .dockerHub → ¬WithHost image) := by
  obtain ⟨registry, served, stands⟩ := serves
  rw [credentials_reach_some]
  dsimp only
  cases registry with
  | dockerHub =>
      rw [if_pos ((is_docker_hub_host_iff saved).mpr stands)]
      have index := hub_server_iff served
      constructor
      · intro reached _
        obtain ⟨registry, servedToo, denotes⟩ := reached
        rw [← served_by_unique served servedToo] at denotes
        exact index.mp denotes
      · intro bare
        exact ⟨.dockerHub, served, index.mpr (bare served)⟩
  | host name =>
      have notHub : ¬saved.StandsFor .dockerHub := by
        intro hub
        rw [stands_for_iff] at hub stands
        rw [← hub] at stands
        cases stands
      rw [if_neg (mt (is_docker_hub_host_iff saved).mp notHub)]
      constructor
      · intro _ hub
        cases served_by_unique served hub
      · intro _
        exact ⟨.host name, served, saved_server_denotes stands image⟩

/-- The credentials of a service without its own reach the registry of the image if and only if
their password can be read and an image on Docker Hub names no host. -/
theorem registry_credentials_reach_iff (runtime : Runtime) (ownerId : Uuid)
    (service : ContainerService) (plain : service.registryAuth = none) (image : String)
    (oracle : (op : Op) → op.Answer) (registries : List ContainerRegistry)
    (listed : oracle (.query (.registriesByOwner ownerId)) = .ok registries) :
    CredentialsReach image registries
        ((resolveRegistryCredentials runtime ownerId service image).run.evaluate oracle) ↔
      Addressable runtime image registries := by
  rw [resolve_registry_credentials_saved runtime ownerId plain image listed]
  unfold savedCredentials Addressable
  cases first : registries.find? (·.matchesImage image) with
  | none =>
      have unserved : ∀ saved ∈ registries, ¬saved.Serves image := by
        intro saved member serves
        have passed := List.find?_eq_none.mp first saved member
        exact passed ((matches_image_iff saved image).mpr serves)
      simpa [CredentialsReach] using unserved
  | some saved =>
      have serves : saved.Serves image :=
        (matches_image_iff saved image).mp (by simpa using List.find?_some first)
      have member := List.mem_of_find?_eq_some first
      simp only [Option.some.injEq, forall_eq']
      cases decrypted : decryptStoredSecret runtime saved.passwordEnc with
      | error message =>
          constructor
          · intro unserved
            exact absurd serves (unserved saved member)
          · intro usable
            obtain ⟨⟨password, found⟩, -⟩ := usable
            cases found
      | ok password =>
          rw [saved_credentials_reach_iff serves]
          simp

def demoRegistry (server : String) : ContainerRegistry := ⟨⟨1⟩, ⟨2⟩, server, "bob", "pw", (0 : Nat)⟩

def demoPullRuntime : Runtime := ⟨"/data", none, false, fun _ payload => .ok payload⟩

def demoListing (server : String) : (op : Op) → op.Answer
  | .query (.registriesByOwner _) => .ok [demoRegistry server]
  | op => (op.exec (calm op World.empty) World.empty).1

def demoPulled (server image : String) : Except String (Option RegistryCredentials) :=
  (resolveRegistryCredentials demoPullRuntime ⟨2⟩ (.new ⟨3⟩ (0 : Nat) ⟨4⟩ "web" image 80)
    image).run.evaluate (demoListing server)

theorem demo_credentials_reach :
    CredentialsReach "ghcr.io/demo/app" [demoRegistry "https://GHCR.io/v2/"]
        (demoPulled "https://GHCR.io/v2/" "ghcr.io/demo/app") ∧
      CredentialsReach "library/redis" [demoRegistry "docker.io"]
        (demoPulled "docker.io" "library/redis") := by
  have reached (server image : String) : CredentialsReach image [demoRegistry server]
      (demoPulled server image) ↔ Addressable demoPullRuntime image [demoRegistry server] :=
    registry_credentials_reach_iff demoPullRuntime ⟨2⟩ (.new ⟨3⟩ (0 : Nat) ⟨4⟩ "web" image 80) rfl
      image (demoListing server) [demoRegistry server] rfl
  constructor
  · rw [reached]
    intro saved first
    have only : saved = demoRegistry "https://GHCR.io/v2/" :=
      List.mem_singleton.mp (List.mem_of_find?_eq_some first)
    constructor
    · rw [only]
      exact ⟨"pw", by decide⟩
    · intro hub
      have host := (served_by_iff _ _).mp hub
      exact absurd host (by decide)
  · rw [reached]
    intro saved first
    have only : saved = demoRegistry "docker.io" :=
      List.mem_singleton.mp (List.mem_of_find?_eq_some first)
    constructor
    · rw [only]
      exact ⟨"pw", by decide⟩
    · intro _ named
      have index : resolveRegistryServer "library/redis" none = defaultIndex := by decide
      have hub : ServedBy "library/redis" .dockerHub := (served_by_iff _ _).mpr (by decide)
      exact (hub_server_iff hub).mp index named

/-- With the host in front, the same image is pulled with another address. -/
theorem hub_host_misses_index :
    ¬CredentialsReach "docker.io/library/redis" [demoRegistry "docker.io"]
      (demoPulled "docker.io" "docker.io/library/redis") := by
  have hub : ServedBy "docker.io/library/redis" .dockerHub := (served_by_iff _ _).mpr (by decide)
  have answered : demoPulled "docker.io" "docker.io/library/redis" =
      .ok (some ⟨none, "bob", "pw"⟩) := by decide
  rw [answered, credentials_reach_some]
  intro reached
  obtain ⟨registry, served, denotes⟩ := reached
  rw [← served_by_unique hub served] at denotes
  have address : resolveRegistryServer "docker.io/library/redis" none ≠ defaultIndex := by decide
  exact address denotes

end Containr
