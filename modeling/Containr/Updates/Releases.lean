import Containr.Path
import Containr.System
import Mathlib.Order.Defs.LinearOrder

/-!
# Releases

The part of `containr-api/src/handlers/updates.rs` that looks at what GitHub answers: which
release is the newest, and which one an install takes.
-/

namespace Containr.Updates

/-- The `semver` crate. Versions are ordered as a whole, build metadata included. -/
class Semver (Version : Type) extends LinearOrder Version where
  parse : String → Except String Version
  display : Version → String
  /-- `!version.pre.is_empty()` -/
  prerelease : Version → Bool

/-- What the binary was built for, and the `Debug` text of a string. -/
structure Build where
  os : String
  arch : String
  packageVersion : String
  debug : String → String

structure GithubAsset where
  name : String
  browserDownloadUrl : String
deriving DecidableEq, Repr

structure GithubRelease where
  tagName : String
  name : Option String
  htmlUrl : String
  body : Option String
  publishedAt : Option String
  draft : Bool
  prerelease : Bool
  assets : List GithubAsset
deriving DecidableEq, Repr

structure UpdateCheckResponse where
  currentVersion : String
  latestVersion : Option String
  updateAvailable : Bool
  releaseName : Option String
  releaseUrl : Option String
  releaseNotes : Option String
  publishedAt : Option String
  canInstall : Bool
  installBlocker : Option String
deriving DecidableEq, Repr

/-- `split_whitespace`. -/
def splitWhitespace (text : String) : List String :=
  ((text.toList.splitOnP Text.isWhitespace).filter fun word => !word.isEmpty).map String.ofList

def internal (source : String) : ApiError := ⟨500, source⟩

def badGateway (action source : String) : ApiError := ⟨502, s!"failed to {action}: {source}"⟩

def platformAssetName (build : Build) : Option String :=
  if build.os = "linux" then
    if build.arch = "x86_64" then some "containr-linux-amd64"
    else if build.arch = "aarch64" then some "containr-linux-arm64"
    else none
  else none

/-- The binary lies in `target/release` or `target/debug`. -/
def isCargoBuild (exe : List Path.Component) : Bool :=
  match exe.reverse.drop 1 with
  | profile :: target :: _ =>
      target = .normal "target".toList &&
        (profile = .normal "release".toList || profile = .normal "debug".toList)
  | _ => false

example : isCargoBuild (Path.components "/src/target/debug/containr") = true := by decide

def parseChecksum (text : String) : Option String :=
  match splitWhitespace text with
  | [] => none
  | word :: _ =>
      let hash := Text.toAsciiLowercase word
      if Text.byteLength hash = 64 && hash.toList.all Text.isAsciiHexdigit then some hash else none

/-- `owner/repo`. -/
def validRepo (repo : String) : Bool :=
  let valid (part : String) : Bool := !part.isEmpty &&
    part.toList.all fun ch => Text.isAsciiAlphanumeric ch || ch = '-' || ch = '_' || ch = '.'
  match Text.splitOnce '/' repo with
  | some (owner, name) => valid owner && valid name
  | none => false

section Versions

variable {Version : Type} [Semver Version]

def currentVersion (Version : Type) [Semver Version] (build : Build) : Except ApiError Version :=
  (Semver.parse build.packageVersion).mapError internal

def parseVersion (tag : String) : Option Version :=
  (Semver.parse (Text.trimStartMatches (Text.trim tag) "v")).toOption

def published (current : Version) (release : GithubRelease) : Option (Version × GithubRelease) :=
  let allowPrerelease := Semver.prerelease current
  if !release.draft && (allowPrerelease || !release.prerelease) then
    match parseVersion release.tagName with
    | some version =>
        if allowPrerelease || !Semver.prerelease version then some (version, release) else none
    | none => none
  else none

/-- `max_by`: among equals the last. -/
def later (best : Option (Version × GithubRelease)) (next : Version × GithubRelease) :
    Option (Version × GithubRelease) :=
  match best with
  | none => some next
  | some best => if next.1 < best.1 then some best else some next

def newestRelease (releases : List GithubRelease) (current : Version) :
    Option (Version × GithubRelease) :=
  (releases.filterMap (published current)).foldl later none

def releaseFor (releases : List GithubRelease) (target : Version) : Option GithubRelease :=
  releases.find? fun release => !release.draft && parseVersion release.tagName = some target

def assetUrl (release : GithubRelease) (name : String) : Option String :=
  (release.assets.find? (·.name = name)).map (·.browserDownloadUrl)

/-- What `check_update` answers. -/
def checkResponse (build : Build) (releases : List GithubRelease) (current : Version)
    (blocker : Option String) : UpdateCheckResponse :=
  match newestRelease releases current with
  | some (version, release) =>
      let updateAvailable := decide (current < version)
      let missingAsset := updateAvailable && match platformAssetName build with
        | some name => !release.assets.any (·.name = name)
        | none => false
      let installBlocker := blocker.or
        (if missingAsset then some "this release has no binary for this platform" else none)
      { currentVersion := Semver.display current
        latestVersion := some (Semver.display version)
        updateAvailable := updateAvailable
        releaseName := release.name
        releaseUrl := some release.htmlUrl
        releaseNotes := release.body
        publishedAt := release.publishedAt
        canInstall := installBlocker.isNone
        installBlocker := installBlocker }
  | none =>
      { currentVersion := Semver.display current
        latestVersion := none
        updateAvailable := false
        releaseName := none
        releaseUrl := none
        releaseNotes := none
        publishedAt := none
        canInstall := blocker.isNone
        installBlocker := blocker }

/-- The best so far is among the items seen and above them all. -/
theorem fold_later {items : List (Version × GithubRelease)} {best : Version × GithubRelease} :
    ∃ newest, items.foldl later (some best) = some newest ∧ newest ∈ best :: items ∧
      ∀ other ∈ best :: items, other.1 ≤ newest.1 := by
  induction items generalizing best with
  | nil =>
      refine ⟨best, rfl, List.mem_cons_self, fun other member => ?_⟩
      rw [List.mem_singleton.mp member]
  | cons next items ih =>
      rw [List.foldl_cons]
      by_cases lower : next.1 < best.1
      · have kept : later (some best) next = some best := if_pos lower
        rw [kept]
        obtain ⟨newest, folded, member, above⟩ := @ih best
        refine ⟨newest, folded, ?_, fun other inAll => ?_⟩
        · rcases List.mem_cons.mp member with same | rest
          · rw [same]
            exact List.mem_cons_self
          · exact List.mem_cons_of_mem _ (List.mem_cons_of_mem _ rest)
        · have bestBelow := above best List.mem_cons_self
          rcases List.mem_cons.mp inAll with same | rest
          · rw [same]
            exact bestBelow
          · rcases List.mem_cons.mp rest with isNext | inItems
            · rw [isNext]
              exact lower.le.trans bestBelow
            · exact above other (List.mem_cons_of_mem _ inItems)
      · have replaced : later (some best) next = some next := if_neg lower
        rw [replaced]
        obtain ⟨newest, folded, member, above⟩ := @ih next
        refine ⟨newest, folded, List.mem_cons_of_mem _ member, fun other inAll => ?_⟩
        rcases List.mem_cons.mp inAll with same | rest
        · rw [same]
          exact (not_lt.mp lower).trans (above next List.mem_cons_self)
        · exact above other rest

theorem newest_release_above {releases : List GithubRelease} {current : Version}
    {newest : Version × GithubRelease} (found : newestRelease releases current = some newest) :
    newest ∈ releases.filterMap (published current) ∧
      ∀ other ∈ releases.filterMap (published current), other.1 ≤ newest.1 := by
  unfold newestRelease at found
  generalize releases.filterMap (published current) = items at found ⊢
  cases items with
  | nil => cases found
  | cons first items =>
      obtain ⟨best, folded, member, above⟩ := @fold_later Version _ items first
      have same : best = newest := Option.some.inj (folded.symm.trans found)
      rw [← same]
      exact ⟨member, above⟩

theorem published_eq_some {current version : Version} {release source : GithubRelease}
    (isPublished : published current source = some (version, release)) :
    source = release ∧ release.draft = false ∧ parseVersion release.tagName = some version ∧
      (Semver.prerelease current = false →
        release.prerelease = false ∧ Semver.prerelease version = false) := by
  unfold published at isPublished
  dsimp only at isPublished
  split_ifs at isPublished with visible
  split at isPublished
  · rename_i parsed isVersion
    split_ifs at isPublished with stable
    cases isPublished
    simp only [Bool.and_eq_true, Bool.not_eq_true', Bool.or_eq_true] at visible stable
    refine ⟨rfl, visible.1, isVersion, fun isStable => ?_⟩
    rw [isStable] at visible stable
    simpa using And.intro visible.2 stable
  · cases isPublished

def DistinctVersions (Version : Type) [Semver Version] (releases : List GithubRelease) : Prop :=
  ∀ first ∈ releases, ∀ second ∈ releases, first.draft = false → second.draft = false →
    ∀ version : Version, parseVersion first.tagName = some version →
      parseVersion second.tagName = some version → first = second

theorem release_for_of_mem {releases : List GithubRelease} {release : GithubRelease}
    {version : Version} (distinct : DistinctVersions Version releases) (member : release ∈ releases)
    (isPublic : release.draft = false) (isVersion : parseVersion release.tagName = some version) :
    releaseFor releases version = some release := by
  cases found : releaseFor releases version with
  | none =>
      have absent := List.find?_eq_none.mp found release member
      simp [isPublic, isVersion] at absent
  | some other =>
      have matching := List.find?_some found
      simp only [Bool.and_eq_true, Bool.not_eq_true', decide_eq_true_eq] at matching
      have inReleases := List.mem_of_find?_eq_some found
      have same := distinct other inReleases release member matching.1 isPublic version matching.2
        isVersion
      rw [same]

/-- An update that is offered is the newest of the published ones, and an install of the offered
version finds that release and its binary. -/
theorem offered_update_found (build : Build) {releases : List GithubRelease} (current : Version)
    {blocker : Option String} (distinct : DistinctVersions Version releases)
    (readable : ∀ version : Version, parseVersion (Semver.display version) = some version)
    (offered : (checkResponse build releases current blocker).updateAvailable = true)
    (able : (checkResponse build releases current blocker).canInstall = true) :
    ∃ (text : String) (version : Version) (release : GithubRelease),
      (checkResponse build releases current blocker).latestVersion = some text ∧
      parseVersion text = some version ∧ current < version ∧
      releaseFor releases version = some release ∧
      (∀ name, platformAssetName build = some name → (assetUrl release name).isSome) ∧
      (Semver.prerelease current = false →
        release.prerelease = false ∧ Semver.prerelease version = false) ∧
      ∀ other ∈ releases.filterMap (published current), other.1 ≤ version := by
  unfold checkResponse at offered able ⊢
  cases newest : newestRelease releases current with
  | none =>
      rw [newest] at offered
      cases offered
  | some best =>
      obtain ⟨version, release⟩ := best
      simp only [newest] at offered able ⊢
      obtain ⟨candidate, above⟩ := newest_release_above newest
      obtain ⟨source, member, isPublished⟩ := List.mem_filterMap.mp candidate
      obtain ⟨rfl, isPublic, isVersion, stable⟩ := published_eq_some isPublished
      refine ⟨_, version, source, rfl, readable version, of_decide_eq_true offered,
        release_for_of_mem distinct member isPublic isVersion, ?_, stable, above⟩
      intro name platform
      rw [offered, platform] at able
      dsimp only at able
      unfold assetUrl
      rw [Option.isSome_map, List.find?_isSome]
      by_contra absent
      have missing : source.assets.any (·.name = name) = false := by
        apply Bool.eq_false_iff.mpr
        intro present
        obtain ⟨asset, inAssets, isName⟩ := List.any_eq_true.mp present
        exact absent ⟨asset, inAssets, isName⟩
      simp [missing] at able

inductive DemoVersion where
  | older | newer | preview
deriving DecidableEq, Repr

def DemoVersion.rank : DemoVersion → Nat
  | .older => 0
  | .newer => 1
  | .preview => 2

theorem rank_injective : Function.Injective DemoVersion.rank := by
  intro first second same
  cases first <;> cases second <;> first | rfl | cases same

instance : Semver DemoVersion :=
  { LinearOrder.lift' DemoVersion.rank rank_injective with
    parse := fun text =>
      if text = "0.1.0" then .ok .older
      else if text = "0.2.0" then .ok .newer
      else if text = "0.3.0-rc.1" then .ok .preview
      else .error "unexpected end of input"
    display := fun version => match version with
      | .older => "0.1.0"
      | .newer => "0.2.0"
      | .preview => "0.3.0-rc.1"
    prerelease := fun version => version = .preview }

def demoBuild : Build := ⟨"linux", "x86_64", "0.1.0", id⟩

def demoAssets : List GithubAsset :=
  [⟨"containr-linux-amd64", "binary"⟩, ⟨"containr-linux-amd64.sha256", "checksum"⟩]

def demoRelease : GithubRelease :=
  ⟨"v0.2.0", none, "", none, none, false, false, demoAssets⟩

/-- A prerelease and a draft come before the release, an older one after it. -/
def demoReleases : List GithubRelease :=
  [⟨"v0.3.0-rc.1", none, "", none, none, false, true, demoAssets⟩,
    ⟨"v0.2.0", none, "", none, none, true, false, []⟩, demoRelease,
    ⟨"v0.1.0", none, "", none, none, false, false, demoAssets⟩]

theorem demo_offered_found :
    (checkResponse demoBuild demoReleases DemoVersion.older none).latestVersion = some "0.2.0" ∧
      ∃ version : DemoVersion, parseVersion "0.2.0" = some version ∧
        ∃ release, releaseFor demoReleases version = some release ∧
          (assetUrl release "containr-linux-amd64").isSome ∧
          ∀ other ∈ demoReleases.filterMap (published DemoVersion.older), other.1 ≤ version := by
  have tagged : ∀ first ∈ demoReleases, ∀ second ∈ demoReleases, first.draft = false →
      second.draft = false → (parseVersion first.tagName : Option DemoVersion) =
        parseVersion second.tagName → first = second := by
    decide +kernel
  have distinct : DistinctVersions DemoVersion demoReleases :=
    fun first isFirst second isSecond isPublic alsoPublic _ parsed alsoParsed =>
      tagged first isFirst second isSecond isPublic alsoPublic (parsed.trans alsoParsed.symm)
  have readable : ∀ version : DemoVersion, parseVersion (Semver.display version) = some version := by
    intro version
    cases version with
    | older => decide
    | newer => decide
    | preview => decide
  obtain ⟨text, version, release, latest, parsed, -, found, assets, -, above⟩ :=
    @offered_update_found DemoVersion _ demoBuild demoReleases .older none distinct readable
      (by decide +kernel) (by decide +kernel)
  have shown : (checkResponse demoBuild demoReleases DemoVersion.older none).latestVersion =
      some "0.2.0" := by
    decide +kernel
  cases latest.symm.trans shown
  exact ⟨shown, version, parsed, release, found, assets _ (by decide), above⟩

end Versions

end Containr.Updates
