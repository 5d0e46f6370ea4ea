import Containr.Fields
import Containr.Proxy.Filter

/-!
# Cookie headers of a forwarded request

`merge_cookie_headers` and `strip_cookie` of `containr-proxy/src/pingora_proxy.rs`, which
`upstream_request_filter` calls one after the other. The first reads the headers that are
visible ASCII and not blank, and writes only when there are two of them; the second reads the
first header and writes over all of them.
-/

namespace Containr.Proxy

open Containr.Text

/-- What a header may hold (`HeaderValue::from_bytes`). -/
def headerByte (ch : Char) : Bool :=
  (32 ≤ ch.toNat && ch.toNat < 256 && ch.toNat ≠ 127) || ch = '\t'

def visibleAscii (ch : Char) : Bool := (32 ≤ ch.toNat && ch.toNat < 127) || ch = '\t'

structure HeaderValue where
  bytes : List Char
  valid : bytes.all headerByte = true
deriving DecidableEq, Repr

def HeaderValue.toStr (value : HeaderValue) : Option (List Char) :=
  if value.bytes.all visibleAscii then some value.bytes else none

def HeaderValue.fromStr (text : List Char) : Option HeaderValue :=
  if valid : text.all headerByte = true then some ⟨text, valid⟩ else none

/-- Header names are in lower case, and a header stands behind those that came before it. -/
structure RequestHeader where
  headers : List (String × HeaderValue)
deriving DecidableEq, Repr

namespace RequestHeader

def getAll (request : RequestHeader) (name : String) : List HeaderValue :=
  (request.headers.filter fun header => header.1 = name).map Prod.snd

def get (request : RequestHeader) (name : String) : Option HeaderValue :=
  (request.getAll name).head?

def removeHeader (request : RequestHeader) (name : String) : RequestHeader :=
  ⟨request.headers.filter fun header => header.1 ≠ name⟩

/-- `none`: the text is no header value. -/
def insertHeader (request : RequestHeader) (name : String) (text : List Char) :
    Option RequestHeader :=
  (HeaderValue.fromStr text).map fun value =>
    ⟨(request.removeHeader name).headers ++ [(name, value)]⟩

end RequestHeader

def mergeCookieHeaders (request : RequestHeader) : Option RequestHeader :=
  let values := (((request.getAll "cookie").filterMap HeaderValue.toStr).map trimChars).filter
    fun value => !value.isEmpty
  if values.length < 2 then some request
  else (request.removeHeader "cookie").insertHeader "cookie" (joined ';' values)

/-- The text before the first `=`. -/
def cookieName (pair : List Char) : List Char := pair.takeWhile (· ≠ '=')

/-- `split(';')`, trimmed, without the empty ones. -/
def cookiePairs (value : List Char) : List (List Char) := fields ';' value

def stripCookie (request : RequestHeader) (name : String) : Option RequestHeader :=
  match (request.get "cookie").bind HeaderValue.toStr with
  | none => some request
  | some value =>
      let kept := (cookiePairs value).filter fun pair => cookieName pair ≠ name.toList
      let request := request.removeHeader "cookie"
      if kept.isEmpty then some request else request.insertHeader "cookie" (joined ';' kept)

/-- The first two calls of `upstream_request_filter`. -/
def filterCookies (request : RequestHeader) : Option RequestHeader :=
  (mergeCookieHeaders request).bind fun merged => stripCookie merged gateCookie

def isGatePair (pair : List Char) : Bool := cookieName pair = gateCookie.toList

namespace RequestHeader

def cookieHeaders (request : RequestHeader) : List HeaderValue := request.getAll "cookie"

/-- The texts of the headers that can be read. -/
def readable (request : RequestHeader) : List (List Char) :=
  request.cookieHeaders.filterMap HeaderValue.toStr

def otherPairs (request : RequestHeader) : List (List Char) :=
  (request.readable.flatMap cookiePairs).filter fun pair => !isGatePair pair

def CarriesGate (request : RequestHeader) : Prop :=
  ∃ value ∈ request.cookieHeaders, ∃ pair ∈ cookiePairs value.bytes, isGatePair pair = true

/-- What `merge_cookie_headers` joins. -/
def filled (request : RequestHeader) : List (List Char) :=
  (request.readable.map trimChars).filter fun value => !value.isEmpty

end RequestHeader

/-- The gate's cookie is withheld; the pairs beside it are the same ones in the same order. -/
structure Hygienic (request filtered : RequestHeader) : Prop where
  withheld : ¬filtered.CarriesGate
  kept : filtered.otherPairs = request.otherPairs

def FirstSuffices (request : RequestHeader) : Prop :=
  match request.get "cookie" with
  | none => True
  | some first =>
      match first.toStr with
      | none => ¬request.CarriesGate
      | some text => trimChars text ≠ [] ∨ request.otherPairs = []

variable {request filtered : RequestHeader} {name : String} {text : List Char}

@[simp] theorem get_all_remove (request : RequestHeader) (name : String) :
    (request.removeHeader name).getAll name = [] := by
  simp [RequestHeader.getAll, RequestHeader.removeHeader]

theorem visible_header_byte {ch : Char} (visible : visibleAscii ch = true) :
    headerByte ch = true := by
  simp only [visibleAscii, headerByte, Bool.or_eq_true, Bool.and_eq_true, decide_eq_true_eq]
    at visible ⊢
  rcases visible with range | isTab
  · exact Or.inl (by omega)
  · exact Or.inr isTab

theorem to_str_bytes {value : HeaderValue} (found : value.toStr = some text) :
    value.bytes = text ∧ ∀ ch ∈ text, visibleAscii ch = true := by
  unfold HeaderValue.toStr at found
  split_ifs at found with visible
  have same := Option.some.inj found
  rw [← same]
  exact ⟨rfl, List.all_eq_true.mp visible⟩

theorem insert_header_visible (request : RequestHeader) (name : String)
    (visible : ∀ ch ∈ text, visibleAscii ch = true) :
    ∃ value inserted, request.insertHeader name text = some inserted ∧
      inserted.getAll name = [value] ∧ value.toStr = some text := by
  have valid : text.all headerByte = true :=
    List.all_eq_true.mpr fun ch member => visible_header_byte (visible ch member)
  refine ⟨⟨text, valid⟩,
    ⟨(request.removeHeader name).headers ++ [(name, ⟨text, valid⟩)]⟩, ?_, ?_, ?_⟩
  · unfold RequestHeader.insertHeader HeaderValue.fromStr
    rw [dif_pos valid]
    rfl
  · have gone := get_all_remove request name
    unfold RequestHeader.getAll at gone ⊢
    rw [List.filter_append, List.map_append, gone]
    simp
  · exact if_pos (List.all_eq_true.mpr visible)

theorem readable_visible (among : text ∈ request.readable) :
    ∀ ch ∈ text, visibleAscii ch = true := by
  obtain ⟨value, -, found⟩ := List.mem_filterMap.mp among
  exact (to_str_bytes found).2

theorem joined_visible {texts : List (List Char)}
    (visible : ∀ text ∈ texts, ∀ ch ∈ text, visibleAscii ch = true) :
    ∀ ch ∈ joined ';' texts, visibleAscii ch = true := by
  intro ch member
  rcases mem_joined member with isMark | isBlank | ⟨text, among, inside⟩
  · rw [isMark]
    decide
  · rw [isBlank]
    decide
  · exact visible text among ch inside

theorem filled_visible (request : RequestHeader) :
    ∀ text ∈ request.filled, ∀ ch ∈ text, visibleAscii ch = true := by
  intro text member ch inside
  obtain ⟨trimmed, -⟩ := List.mem_filter.mp member
  obtain ⟨whole, among, same⟩ := List.mem_map.mp trimmed
  rw [← same] at inside
  exact readable_visible among ch (trim_chars_subset whole inside)

theorem cookie_pairs_trim (text : List Char) : cookiePairs (trimChars text) = cookiePairs text :=
  fields_trim (by decide) text

theorem cookie_pairs_joined (texts : List (List Char)) :
    cookiePairs (joined ';' texts) = texts.flatMap cookiePairs := fields_joined (by decide) texts

theorem cookie_pairs_blank (blank : trimChars text = []) : cookiePairs text = [] := by
  rw [← cookie_pairs_trim, blank]
  rfl

/-- Blank headers hold no pairs, and trimming takes none away. -/
theorem filled_pairs (request : RequestHeader) :
    request.filled.flatMap cookiePairs = request.readable.flatMap cookiePairs := by
  unfold RequestHeader.filled
  induction request.readable with
  | nil => rfl
  | cons text texts ih =>
      rw [List.map_cons, List.flatMap_cons]
      by_cases blank : trimChars text = []
      · rw [List.filter_cons_of_neg (by simp [blank]), ih, cookie_pairs_blank blank, List.nil_append]
      · rw [List.filter_cons_of_pos (by simp [blank]), List.flatMap_cons, ih, cookie_pairs_trim]

theorem other_pairs_filled (request : RequestHeader) : request.otherPairs =
    (request.filled.flatMap cookiePairs).filter fun pair => !isGatePair pair := by
  rw [filled_pairs]
  rfl

theorem single_header {value : HeaderValue} (single : request.getAll "cookie" = [value])
    (found : value.toStr = some text) : request.readable = [text] := by
  unfold RequestHeader.readable RequestHeader.cookieHeaders
  rw [single, List.filterMap_cons_some found, List.filterMap_nil]

theorem strip_nothing (unread : (request.get "cookie").bind HeaderValue.toStr = none) :
    stripCookie request name = some request := by
  unfold stripCookie
  rw [unread]

/-- Only what the first header holds is left, and of it no cookie of the gate. -/
theorem strip_written (read : (request.get "cookie").bind HeaderValue.toStr = some text) :
    ∃ stripped, stripCookie request gateCookie = some stripped ∧ ¬stripped.CarriesGate ∧
      stripped.otherPairs = (cookiePairs text).filter fun pair => !isGatePair pair := by
  have visible : ∀ ch ∈ text, visibleAscii ch = true := by
    obtain ⟨value, -, found⟩ := Option.bind_eq_some_iff.mp read
    exact (to_str_bytes found).2
  have kept : ((cookiePairs text).filter fun pair => cookieName pair ≠ gateCookie.toList) =
      (cookiePairs text).filter fun pair => !isGatePair pair := by
    apply List.filter_congr
    intro pair _
    simp [isGatePair]
  unfold stripCookie
  rw [read]
  dsimp only
  rw [kept]
  generalize kept : (cookiePairs text).filter (fun pair => !isGatePair pair) = pairs
  have fromText : ∀ pair ∈ pairs, pair ∈ cookiePairs text ∧ isGatePair pair = false := by
    intro pair member
    rw [← kept] at member
    have parts := List.mem_filter.mp member
    exact ⟨parts.1, by simpa using parts.2⟩
  by_cases none : pairs.isEmpty = true
  · have gone := get_all_remove request "cookie"
    have nothing := List.isEmpty_iff.mp none
    refine ⟨request.removeHeader "cookie", if_pos none, ?_, ?_⟩
    · rintro ⟨value, member, -⟩
      unfold RequestHeader.cookieHeaders at member
      rw [gone] at member
      cases member
    · unfold RequestHeader.otherPairs RequestHeader.readable RequestHeader.cookieHeaders
      rw [gone, nothing]
      rfl
  · have whole : cookiePairs (joined ';' pairs) = pairs :=
      fields_rejoined (by decide) fun pair member => fields_field (fromText pair member).1
    have written : ∀ ch ∈ joined ';' pairs, visibleAscii ch = true :=
      joined_visible fun pair member ch inside =>
        visible ch (field_subset (fromText pair member).1 inside)
    obtain ⟨value, stripped, inserted, single, found⟩ :=
      insert_header_visible (request.removeHeader "cookie") "cookie" written
    refine ⟨stripped, (if_neg none).trans inserted, ?_, ?_⟩
    · rintro ⟨other, member, pair, inside, gate⟩
      unfold RequestHeader.cookieHeaders at member
      rw [single] at member
      rw [List.mem_singleton.mp member, (to_str_bytes found).1, whole] at inside
      rw [(fromText pair inside).2] at gate
      cases gate
    · unfold RequestHeader.otherPairs
      rw [single_header single found, List.flatMap_singleton, whole, List.filter_eq_self]
      intro pair member
      simp [(fromText pair member).2]

/-- Two headers to join: what the second pass reads is all of them. -/
theorem joined_hygienic (several : 2 ≤ request.filled.length) :
    ∃ filtered, filterCookies request = some filtered ∧ Hygienic request filtered := by
  obtain ⟨value, merged, inserted, single, found⟩ :=
    insert_header_visible (request.removeHeader "cookie") "cookie"
      (joined_visible (filled_visible request))
  have joins : mergeCookieHeaders request = some merged := by
    unfold mergeCookieHeaders
    exact (if_neg (Nat.not_lt.mpr several)).trans inserted
  have read : (merged.get "cookie").bind HeaderValue.toStr = some (joined ';' request.filled) := by
    unfold RequestHeader.get
    rw [single]
    exact found
  obtain ⟨stripped, strips, withheld, others⟩ := strip_written read
  refine ⟨stripped, ?_, withheld, ?_⟩
  · unfold filterCookies
    rw [joins]
    exact strips
  · rw [others, cookie_pairs_joined, other_pairs_filled]

theorem merge_skipped (few : ¬2 ≤ request.filled.length) :
    filterCookies request = stripCookie request gateCookie := by
  have same : mergeCookieHeaders request = some request := by
    unfold mergeCookieHeaders
    exact if_pos (Nat.lt_of_not_le few)
  unfold filterCookies
  rw [same]
  rfl

/-- A first header that is not blank is the only one that could be joined. -/
theorem filled_first (few : ¬2 ≤ request.filled.length) (notBlank : trimChars text ≠ [])
    (read : (request.get "cookie").bind HeaderValue.toStr = some text) :
    request.filled = [trimChars text] := by
  obtain ⟨first, isFirst, found⟩ := Option.bind_eq_some_iff.mp read
  obtain ⟨rest, headers⟩ := List.head?_eq_some_iff.mp isFirst
  have starts : request.filled = trimChars text ::
      (((rest.filterMap HeaderValue.toStr).map trimChars).filter fun value => !value.isEmpty) := by
    unfold RequestHeader.filled RequestHeader.readable RequestHeader.cookieHeaders
    rw [headers, List.filterMap_cons_some found, List.map_cons,
      List.filter_cons_of_pos (by simp [notBlank])]
  rw [starts] at few ⊢
  rw [List.length_cons] at few
  have nothing : (((rest.filterMap HeaderValue.toStr).map trimChars).filter
      fun value => !value.isEmpty).length = 0 := by omega
  rw [List.length_eq_zero_iff.mp nothing]

theorem unmerged_hygienic_iff (few : ¬2 ≤ request.filled.length) :
    (∃ filtered, filterCookies request = some filtered ∧ Hygienic request filtered) ↔
      FirstSuffices request := by
  rw [merge_skipped few]
  unfold FirstSuffices
  cases first : request.get "cookie" with
  | none =>
      have unread : (request.get "cookie").bind HeaderValue.toStr = none := by simp [first]
      have empty : request.cookieHeaders = [] := List.head?_eq_none_iff.mp first
      have withheld : ¬request.CarriesGate := by
        rintro ⟨value, member, -⟩
        rw [empty] at member
        cases member
      exact iff_of_true ⟨request, strip_nothing unread, withheld, rfl⟩ trivial
  | some value =>
      dsimp only
      cases found : value.toStr with
      | none =>
          have unread : (request.get "cookie").bind HeaderValue.toStr = none := by
            simp [first, found]
          dsimp only
          rw [strip_nothing unread]
          constructor
          · rintro ⟨filtered, same, clean⟩
            rw [Option.some.inj same]
            exact clean.withheld
          · intro withheld
            exact ⟨request, rfl, withheld, rfl⟩
      | some text =>
          have read : (request.get "cookie").bind HeaderValue.toStr = some text := by
            simp [first, found]
          obtain ⟨stripped, strips, withheld, others⟩ := strip_written read
          dsimp only
          by_cases blank : trimChars text = []
          · have nothing : stripped.otherPairs = [] := by
              rw [others, cookie_pairs_blank blank]
              rfl
            constructor
            · rintro ⟨filtered, same, clean⟩
              rw [strips] at same
              have lost := clean.kept
              rw [← Option.some.inj same, nothing] at lost
              exact Or.inr lost.symm
            · intro enough
              have none := enough.resolve_left (not_not_intro blank)
              exact ⟨stripped, strips, withheld, nothing.trans none.symm⟩
          · have same : stripped.otherPairs = request.otherPairs := by
              rw [others, other_pairs_filled, filled_first few blank read, List.flatMap_singleton,
                cookie_pairs_trim]
            exact iff_of_true ⟨stripped, strips, withheld, same⟩ (Or.inl blank)

/-- The filter always writes its headers, and they are clean where two headers are joined or
the first one decides nothing for the others. -/
theorem cookies_hygienic_iff (request : RequestHeader) :
    (∃ filtered, filterCookies request = some filtered ∧ Hygienic request filtered) ↔
      2 ≤ request.filled.length ∨ FirstSuffices request := by
  by_cases several : 2 ≤ request.filled.length
  · exact iff_of_true (joined_hygienic several) (Or.inl several)
  · rw [unmerged_hygienic_iff several]
    exact (or_iff_right several).symm

/-- `ü` in Latin-1, and the session cookie of the gate in a header of its own. -/
def umlautThenGate : RequestHeader :=
  ⟨[("cookie", ⟨"name=\u00fc".toList, by decide⟩),
    ("cookie", ⟨"containr_gate=token".toList, by decide⟩)]⟩

theorem gate_cookie_leaks :
    ¬∃ filtered, filterCookies umlautThenGate = some filtered ∧
      Hygienic umlautThenGate filtered := by
  rintro ⟨filtered, same, clean⟩
  have unchanged : filterCookies umlautThenGate = some umlautThenGate := by decide
  rw [unchanged] at same
  rw [← Option.some.inj same] at clean
  exact clean.withheld ⟨⟨"containr_gate=token".toList, by decide⟩, by decide,
    "containr_gate=token".toList, by decide, by decide⟩

end Containr.Proxy
