import Containr.Api.Siblings
import Containr.Proxy.HostDecisions

/-!
# Spellings of a domain, from the request to the stored service

The API stores a domain the way `normalize_domain` cuts it out of what the user typed; the
route table trims and lower-cases it once more, and the proxy reads it from the request.
-/

namespace Containr.Api

open Containr.Text Containr.Proxy

section Stored

variable {lower : String → String} {crates : Crates} {lib : Libraries} {text input domain : String}

/-- What `normalize_domain` cuts out, before it is lower-cased. -/
def domainText (input : String) : String :=
  trimEndMatches ((splitAt '/' (trimStartMatches (trimStartMatches (trim input) "https://")
    "http://")).headD "") '.'

theorem head_no_mark (mark : Char) (text : String) : mark ∉ ((splitAt mark text).headD "").toList := by
  unfold splitAt
  have plain := mark_not_mem_pieces mark text.toList
  cases pieces : splitAt.pieces mark text.toList with
  | nil => exact absurd pieces (pieces_ne_nil mark _)
  | cons first rest =>
      rw [pieces] at plain
      rw [List.map_cons, List.headD_cons, String.toList_ofList]
      exact plain first List.mem_cons_self

theorem domain_text_no_slash (input : String) : '/' ∉ (domainText input).toList := by
  intro member
  exact head_no_mark '/' _ (trim_end_matches_subset _ '.' member)

theorem domain_text_no_dot (input : String) :
    trimEndMatches (domainText input) '.' = domainText input := trim_end_matches_idem _ '.'

theorem normalize_domain_eq (crates : Crates) (input : String) : normalizeDomain crates input =
    if (domainText input).isEmpty then none else some (crates.toLowercase (domainText input)) := rfl

/-- Without a slash there is nothing to cut off but whitespace and dots. -/
theorem domain_text_plain (noSlash : '/' ∉ text.toList) :
    domainText text = trimEndMatches (trim text) '.' := by
  have trimmed : '/' ∉ (trim text).toList := by
    unfold trim
    rw [String.toList_ofList]
    intro member
    exact noSlash (trim_chars_subset _ member)
  have secure : startsWith (trim text) "https://" = false :=
    @starts_with_false (trim text) _ '/' (by decide) trimmed
  have plain : startsWith (trim text) "http://" = false :=
    @starts_with_false (trim text) _ '/' (by decide) trimmed
  unfold domainText
  rw [trim_start_matches_other secure, trim_start_matches_other plain, split_at_plain trimmed]
  rfl

theorem lower_trimmed_iff (lowers : LowersText lower) (text : String) :
    trim (lower text) = lower text ↔ trim text = text := by
  constructor
  · intro trimmed
    obtain ⟨leading, trailing, blankLeading, blankTrailing, whole⟩ := trim_chars_split text.toList
    have lowered := lowers.spaced leading (trimChars text.toList) trailing blankLeading blankTrailing
    rw [← whole, String.ofList_toList] at lowered
    have core : trim (lower (trim text)) = lower (trim text) := lowers.trimmed _ (trim_idem text)
    have cut : trimChars (lower text).toList = trimChars (lower (trim text)).toList := by
      rw [lowered, trim_chars_leading blankLeading, trim_chars_trailing blankTrailing]
      rfl
    have same : lower text = lower (trim text) := by
      rw [← trimmed, ← core]
      unfold trim
      rw [cut]
      rfl
    have lengths := congrArg List.length lowered
    have coreText : String.ofList (trimChars text.toList) = trim text := rfl
    rw [coreText, ← same] at lengths
    have around := congrArg List.length whole
    simp only [List.length_append] at lengths around
    apply trim_eq_of_length
    rw [← coreText, String.toList_ofList]
    omega
  · exact lowers.trimmed text

/-- Cutting shortens a text unless it leaves it as it is. -/
theorem cut_eq_iff (noDot : trimEndMatches text '.' = text) :
    trimEndMatches (trim text) '.' = text ↔ trim text = text := by
  constructor
  · intro same
    have shorter := trim_end_matches_length (trim text) '.'
    rw [same] at shorter
    exact trim_eq_of_length shorter
  · intro trimmed
    rw [trimmed, noDot]

/-- A stored domain is one that both normalisers leave alone exactly when what was cut out
has no whitespace around it. -/
theorem stored_domain_fixed_iff (lowers : LowersText lib.toLowercase)
    (sameLower : crates.toLowercase = lib.toLowercase)
    (stored : normalizeDomain crates input = some domain) :
    (normalizeDomain crates domain = some domain ∧ Proxy.normalizeDomain lib domain = domain) ↔
      trim (domainText input) = domainText input := by
  rw [normalize_domain_eq] at stored
  split_ifs at stored with empty
  rw [sameLower] at stored
  have isDomain : lib.toLowercase (domainText input) = domain := Option.some.inj stored
  have noSlash : '/' ∉ domain.toList := by
    rw [← isDomain]
    intro member
    exact domain_text_no_slash input (lowers.slash _ member)
  have noDot : trimEndMatches domain '.' = domain := by
    rw [← isDomain]
    exact lowers.dot _ (domain_text_no_dot input)
  have nonempty : domain ≠ "" := by
    intro nothing
    rw [nothing] at isDomain
    rw [lowers.nonempty _ isDomain] at empty
    exact empty rfl
  have kept : lib.toLowercase (trimEndMatches (trim domain) '.') =
      trimEndMatches (trim domain) '.' := by
    apply lowers.stable (domainText input)
    rw [isDomain]
    intro ch member
    have inTrimmed := trim_end_matches_subset _ '.' member
    unfold trim at inTrimmed
    rw [String.toList_ofList] at inTrimmed
    exact trim_chars_subset _ inTrimmed
  have routed : Proxy.normalizeDomain lib domain = trimEndMatches (trim domain) '.' := kept
  have again : normalizeDomain crates domain =
      if (trimEndMatches (trim domain) '.').isEmpty then none
      else some (trimEndMatches (trim domain) '.') := by
    rw [normalize_domain_eq, domain_text_plain noSlash, sameLower, kept]
  have lowered := lower_trimmed_iff lowers (domainText input)
  rw [isDomain] at lowered
  rw [routed, again, ← lowered, ← cut_eq_iff noDot]
  constructor
  · intro fixed
    exact fixed.2
  · intro same
    rw [same]
    simp [nonempty]

end Stored

variable {crates : Crates} {lib : Libraries}

/-- The spelling of a host decides nothing but for the dot of a name, which decides where
something that differs is looked at; a stored domain is normal unless whitespace was left
around what was cut out. -/
theorem host_spelling_iff (lowers : LowersText lib.toLowercase)
    (sameLower : crates.toLowercase = lib.toLowercase) (dependable : Dependable lib) :
    (∀ (proxy : ContainrProxy lib) (request other : Request) (spelling respelled : Spelling),
      Respelled request other spelling respelled →
      (IpLiteral spelling.name → IpLiteral respelled.name →
        proxy.decision request = proxy.decision other) ∧
      (RegisteredName spelling.name → RegisteredName respelled.name →
        (proxy.decision request = proxy.decision other ↔ spelling.dotted = respelled.dotted ∨
          Unseen proxy (request.host lib) (other.host lib) request))) ∧
    ∀ input domain, normalizeDomain crates input = some domain →
      ((normalizeDomain crates domain = some domain ∧
        Proxy.normalizeDomain lib domain = domain) ↔
          trim (domainText input) = domainText input) := by
  constructor
  · intro proxy request other spelling respelled respells
    constructor
    · intro literal otherLiteral
      have sameName : toAsciiLowercase spelling.name = toAsciiLowercase respelled.name := by
        simpa [eqIgnoreAsciiCase] using respells.sameName
      apply decision_same_host respells
      rw [host_literal lowers.ascii literal respells.spelled,
        host_literal lowers.ascii otherLiteral respells.otherSpelled, sameName]
    · intro registered otherRegistered
      exact decision_respelled_iff lowers.ascii dependable respells registered otherRegistered
  · intro input domain stored
    exact stored_domain_fixed_iff lowers sameLower stored

def signingLibraries : Libraries :=
  { plainLibraries with encodeToken := fun _ claims => some claims.host }

theorem none_loaded (id : Uuid) (app : App)
    (found : (Except.ok none : Except String (Option App)) = .ok (some app)) : app.id = id := by
  cases found

theorem none_listed (deployments : List Deployment)
    (found : (Except.ok [] : Except String (List Deployment)) = .ok deployments) :
    deployments.Pairwise fun earlier later => later.createdAt ≤ earlier.createdAt := by
  cases found
  exact List.Pairwise.nil

def panelProxy : ContainrProxy signingLibraries where
  table := ⟨Effect.Map.empty, 0⟩
  config := demoConfig
  challenges := Effect.Map.empty
  clock := 0
  knownUser _ := false
  hasCertificate _ := false
  loadApp _ := .ok none
  listDeployments _ := .ok []
  listContainers _ := .ok []
  networksOf _ := none
  loadedId := none_loaded
  newestFirst _ := none_listed

def hostRequest (authority : String) : Request :=
  ⟨"GET", none, "/", none, some "/", [("host", some authority)], true⟩

theorem panel_decision (authority : String) : panelProxy.decision (hostRequest authority) =
    panelProxy.served ((hostRequest authority).host signingLibraries) (hostRequest authority) := by
  have unnamed : challengeToken "/" = none := by decide +kernel
  have silent : panelProxy.challengeAnswer (hostRequest authority).path = none := by
    simp [ContainrProxy.challengeAnswer, hostRequest, unnamed]
  rw [decision_eq, silent]

theorem panel_managed {authority : String}
    (isManaged : managedHost signingLibraries demoConfig
      ((hostRequest authority).host signingLibraries) = true) :
    (panelProxy.decision (hostRequest authority)).stage = .managed := by
  have config : panelProxy.config = demoConfig := rfl
  rw [panel_decision, served_eq, if_neg (by simp [hostRequest]), config, if_pos isManaged]
  exact managed_stage _

theorem panel_missing {authority : String}
    (notManaged : ¬managedHost signingLibraries demoConfig
      ((hostRequest authority).host signingLibraries) = true) :
    panelProxy.decision (hostRequest authority) = .answer 404 "no route found" := by
  have config : panelProxy.config = demoConfig := rfl
  rw [panel_decision, served_eq, if_neg (by simp [hostRequest]), config, if_neg notManaged]
  exact routed_missing panelProxy _ _ rfl

/-- The dashboard is not found under its name with a dot, and a blank before a dot is stored. -/
theorem dotted_panel_not_found :
    (Respelled (hostRequest "panel.example.com") (hostRequest "panel.example.com.")
        ⟨"panel.example.com", false, none⟩ ⟨"panel.example.com", true, none⟩ ∧
      panelProxy.decision (hostRequest "panel.example.com.") ≠
        panelProxy.decision (hostRequest "panel.example.com")) ∧
    normalizeDomain asciiCrates "shop.example.com ." = some "shop.example.com " ∧
    normalizeDomain asciiCrates "shop.example.com " ≠ some "shop.example.com " := by
  have respelled : Respelled (hostRequest "panel.example.com") (hostRequest "panel.example.com.")
      ⟨"panel.example.com", false, none⟩ ⟨"panel.example.com", true, none⟩ :=
    ⟨rfl, by decide +kernel, by decide +kernel, by decide +kernel⟩
  have isManaged : managedHost signingLibraries demoConfig
      ((hostRequest "panel.example.com").host signingLibraries) = true := by decide +kernel
  have notManaged : ¬managedHost signingLibraries demoConfig
      ((hostRequest "panel.example.com.").host signingLibraries) = true := by decide +kernel
  refine ⟨⟨respelled, ?_⟩, by decide +kernel, by decide +kernel⟩
  intro same
  have stage := panel_managed isManaged
  rw [← same, panel_missing notManaged] at stage
  cases stage

theorem signing_dependable : Dependable signingLibraries := ⟨fun _ _ => rfl, fun _ _ _ => rfl⟩

/-- With a port and capitals the dashboard is the same one; a scheme and a path are cut off. -/
theorem panel_spelling_plain :
    panelProxy.decision (hostRequest "panel.example.com") =
      panelProxy.decision (hostRequest "Panel.Example.COM:8443") ∧
    normalizeDomain asciiCrates "https://Shop.example.com./cart" = some "shop.example.com" ∧
    normalizeDomain asciiCrates "shop.example.com" = some "shop.example.com" ∧
    Proxy.normalizeDomain signingLibraries "shop.example.com" = "shop.example.com" := by
  have respelled : Respelled (hostRequest "panel.example.com") (hostRequest "Panel.Example.COM:8443")
      ⟨"panel.example.com", false, none⟩ ⟨"Panel.Example.COM", false, some "8443"⟩ :=
    ⟨rfl, by decide +kernel, by decide +kernel, by decide +kernel⟩
  have stored : normalizeDomain asciiCrates "https://Shop.example.com./cart" =
      some "shop.example.com" := by decide +kernel
  have spelling := @host_spelling_iff asciiCrates signingLibraries ascii_lowers_text rfl
    signing_dependable
  have decides := (spelling.1 panelProxy _ _ _ _ respelled).2
  have fixed := (spelling.2 _ _ stored).mpr (by decide +kernel)
  unfold RegisteredName at decides
  exact ⟨(decides (by decide +kernel) (by decide +kernel)).mpr (Or.inl rfl), stored, fixed⟩

end Containr.Api
