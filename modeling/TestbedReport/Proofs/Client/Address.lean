import TestbedReport.Program
import TestbedReport.Proofs.Settings.Checks
import TestbedReport.Proofs.Url.Extended

/-!
# Which Base URLs Lead to the Server's Interface

Settings are checked before anything is sent, and a base URL passes when it is a
URL by itself. A request needs more of it. The resource is pasted behind the text
of the base URL and the whole is read anew, so what the base URL is by itself says
little about where a request goes.

`Extendable` is what it takes. The base URL has no query and no fragment, which
would take the resource in. Its end counts by itself, because blanks that are cut
off there stay in the middle of a longer text. And closed with one slash its path
ends in one slash: a second one stems from a backslash, from a line break behind a
slash or from dots that leave one behind, none of which is taken off as a slash.

## Main definitions

* `Client.Resource`: What a client asks for.
* `RightUrl`: The URL a request should have.
* `Extendable`: Base URLs that can be read with a resource behind them.

## Theorems

* `Settings.parse_baseUrl`: Accepted settings have a base URL of the web.
* `rightUrl_iff_extendable`: With accepted settings requests have the URL they
  should have exactly if the base URL is extendable.
* `not_rightUrl_query`: A base URL that is accepted and leads elsewhere.
-/

namespace TestbedReport

open Url (withoutSlashes isMark isResourceChar EndsPlain begun)

/-- The resources that a client asks for. -/
inductive Client.Resource : String → Prop where
  | scenario (jobId : UInt64) : Resource (scenarioResource jobId)
  | queue (jobId : UInt64) : Resource (queueResource jobId)
  | create : Resource createResource
  | metric (query : MetricQuery) : Resource query.resource

/-- The URL a request should have: the place of the base URL, the interface and the
    resource behind its path, the key, and the pairs of the filter. -/
structure RightUrl (base : Url) (key resource : String) (pairs : List (String × String))
    (url : Url) : Prop where
  scheme : url.scheme = base.scheme
  host : url.authority.map (·.host) = base.authority.map (·.host)
  port : url.authority.map (·.port) = base.authority.map (·.port)
  path : url.pathText =
    String.ofList (withoutSlashes base.pathText.toList) ++ "/api/" ++ resource
  pairs : url.pairs = (Url.keyName, key) :: pairs

/-- Base URLs that can be read with a resource behind them: without a query or
    fragment of their own, with an end that counts by itself, and with one slash at
    the end of the path once they are closed with one. -/
structure Extendable (baseUrl : String) : Prop where
  noMark : ∀ c ∈ baseUrl.toList, isMark c = false
  endsPlain : EndsPlain baseUrl.toList
  oneSlash : ∀ closed,
    Url.parse (String.ofList (withoutSlashes baseUrl.toList) ++ "/") = .ok closed →
      ¬['/', '/'] <:+ closed.pathText.toList

/-- Accepted settings have a base URL of the web. -/
theorem Settings.parse_baseUrl {overrides : Overrides} {file : FileSettings} {settings : Settings}
    (h : Settings.resolve overrides file = .ok settings) : Check.Reachable settings.baseUrl := by
  rcases exists_of_bind_eq_ok h with ⟨baseUrl, _, hwithUrl⟩
  rcases exists_of_bind_eq_ok hwithUrl with ⟨key, _, hwithKey⟩
  rcases exists_of_bind_eq_ok hwithKey with ⟨_, hcheck, hsettings⟩
  -- The base URL is the first of what is checked.
  rcases exists_of_bind_eq_ok hcheck with ⟨_, hurl, _⟩
  rw [← Except.ok.inj hsettings]
  exact (Check.url_eq_ok_iff _ _).mp hurl

/-- A resource is made of letters, digits, low lines and slashes. -/
theorem Client.Resource.isResourceChar {resource : String} (h : Client.Resource resource) :
    ∀ c ∈ resource.toList, Url.isResourceChar c = true := by
  have hnumeral : ∀ n : Nat, ∀ c ∈ Decimal.ofNat n, Url.isResourceChar c = true := by
    intro n c hc
    have hdigit := List.all_eq_true.mp (Decimal.all_isDigit_ofNat n) c hc
    simp only [Url.isResourceChar, Char.isAlphanum, hdigit, Bool.or_true, Bool.true_or]
  have hbehind : ∀ (front : String) (n : Nat),
      front.toList.all Url.isResourceChar = true →
      ∀ c ∈ (front ++ String.ofList (Decimal.ofNat n)).toList, Url.isResourceChar c = true := by
    intro front n hfront c hc
    rw [String.toList_append, String.toList_ofList] at hc
    exact (List.mem_append.mp hc).elim (List.all_eq_true.mp hfront c) (hnumeral n c)
  -- Every resource is fixed letters, behind which there may be a number.
  cases h with
  | scenario jobId => exact hbehind "scenario/" _ rfl
  | queue jobId => exact hbehind "queue/" _ rfl
  | create => exact List.all_eq_true.mp rfl
  | metric query =>
      rw [MetricQuery.resource]
      cases query.last with
      | some last => exact hbehind "metric/adv/" _ rfl
      | none =>
          simp only
          split <;> exact List.all_eq_true.mp rfl

/-- A path is not itself with a resource behind it. -/
theorem withoutSlashes_append_ne {path more : List Char} (h : ∃ c ∈ more, c ≠ '/') :
    path ≠ withoutSlashes path ++ more := by
  intro hpath
  rcases Url.exists_replicate_withoutSlashes path with ⟨n, hn⟩
  rcases h with ⟨c, hc, hslash⟩
  have hmore : more = List.replicate n '/' := List.append_cancel_left (hpath.symm.trans hn)
  rw [hmore] at hc
  exact hslash (List.eq_of_mem_replicate hc)

/-- Whether a text and a slash end in two slashes is up to the text. -/
theorem suffix_slashes_iff (cs : List Char) :
    ['/', '/'] <:+ cs ++ ['/'] ↔ withoutSlashes cs ≠ cs := by
  rw [ne_eq, Url.withoutSlashes_eq_self_iff, not_not, List.getLast?_eq_some_iff]
  constructor
  · rintro ⟨front, hfront⟩
    have hsplit : (front ++ ['/']) ++ ['/'] = cs ++ ['/'] := by rw [← hfront]; simp
    exact ⟨front, (List.append_cancel_right hsplit).symm⟩
  · rintro ⟨front, hfront⟩
    exact ⟨front, by rw [hfront]; simp⟩

section Bases

variable {baseUrl : String} {base : Url} {port : Nat}

/-- A base URL with a resource pasted behind it. -/
def pasted (baseUrl : String) (resource : List Char) : String :=
  String.ofList (withoutSlashes baseUrl.toList ++ '/' :: resource)

theorem pasted_nil (baseUrl : String) :
    pasted baseUrl [] = String.ofList (withoutSlashes baseUrl.toList) ++ "/" := by
  rw [← String.toList_inj]
  simp [pasted]

theorem strip_pasted (baseUrl : String) {resource : List Char}
    (hresource : ∀ c ∈ resource, isResourceChar c = true) :
    Url.strip (pasted baseUrl resource).toList =
      begun (withoutSlashes baseUrl.toList) ++ '/' :: resource := by
  rw [pasted, String.toList_ofList]
  refine Url.strip_append _ _ (List.cons_ne_nil _ _) fun c hc => ?_
  rcases List.mem_cons.mp hc with hslash | hin
  · rw [hslash]
    decide
  · exact hresource c hin

theorem splitScheme?_pasted {scheme : String} {rest : List Char}
    (hscheme : Url.splitScheme? (begun (withoutSlashes baseUrl.toList)) = some (scheme, rest))
    {resource : List Char} (hresource : ∀ c ∈ resource, isResourceChar c = true) :
    Url.splitScheme? (Url.strip (pasted baseUrl resource).toList) =
      some (scheme, rest ++ '/' :: resource) := by
  rw [strip_pasted baseUrl hresource]
  exact Url.splitScheme?_append hscheme _

/-- What is behind the scheme of a base URL, and of the text that requests begin
    with, differs by slashes or by blanks. -/
theorem splitScheme?_cases (hbase : Url.parse baseUrl = .ok base) :
    (EndsPlain baseUrl.toList ∧ ∃ rest n,
        Url.splitScheme? (Url.strip baseUrl.toList) =
          some (base.scheme, rest ++ List.replicate n '/') ∧
        Url.splitScheme? (begun (withoutSlashes baseUrl.toList)) = some (base.scheme, rest)) ∨
      (¬EndsPlain baseUrl.toList ∧ ∃ rest blanks, blanks ≠ [] ∧
        (∀ c ∈ blanks, Url.isBlank c = true) ∧
        Url.splitScheme? (Url.strip baseUrl.toList) = some (base.scheme, rest) ∧
        Url.splitScheme? (begun (withoutSlashes baseUrl.toList)) =
          some (base.scheme, rest ++ blanks)) := by
  rcases Url.splitScheme?_of_parse hbase with ⟨rest, hscheme⟩
  have hstrip : Url.strip baseUrl.toList ≠ [] := by
    intro hnil
    rw [hnil] at hscheme
    exact nomatch hscheme
  rcases Url.strip_cases hstrip with ⟨hplain, n, hslashes⟩ |
    ⟨hplain, blanks, hmore, hblanks, hbegun⟩
  · -- The slashes that count are those that are taken off.
    rw [hslashes] at hscheme
    rcases Url.splitScheme?_of_append_slashes hscheme with ⟨kept, hkept, hrest⟩
    rw [hrest, ← hslashes] at hscheme
    exact .inl ⟨hplain, kept, n, hscheme, hkept⟩
  · refine .inr ⟨hplain, rest, blanks, hmore, hblanks, hscheme, ?_⟩
    rw [hbegun]
    exact Url.splitScheme?_append hscheme blanks

/-- The marks of a base URL are behind its scheme. -/
theorem isMark_rest_iff {scheme : String} {rest : List Char}
    (hscheme : Url.splitScheme? (begun (withoutSlashes baseUrl.toList)) = some (scheme, rest)) :
    (∃ c ∈ rest, isMark c = true) ↔ ∃ c ∈ baseUrl.toList, isMark c = true := by
  -- A mark is no blank, no part of a scheme and no slash, so it is never cut off.
  have hmem : ∀ c, isMark c = true → (c ∈ rest ↔ c ∈ baseUrl.toList) := by
    intro c hc
    have hmarks : Url.isBlank c = false ∧ Url.inScheme c = false ∧ c ≠ ':' ∧ c ≠ '/' := by
      simp only [isMark, Bool.or_eq_true, decide_eq_true_eq] at hc
      rcases hc with rfl | rfl <;> decide
    rcases hmarks with ⟨hblank, hname, hcolon, hslash⟩
    rw [Url.mem_of_splitScheme? hscheme hname hcolon, Url.mem_begun_iff hblank]
    rcases Url.exists_replicate_withoutSlashes baseUrl.toList with ⟨n, hn⟩
    conv_rhs => rw [hn, List.mem_append]
    exact ⟨.inl, fun h => h.resolve_right fun hin => hslash (List.eq_of_mem_replicate hin)⟩
  constructor
  · rintro ⟨c, hc, hmark⟩
    exact ⟨c, (hmem c hmark).mp hc, hmark⟩
  · rintro ⟨c, hc, hmark⟩
    exact ⟨c, (hmem c hmark).mpr hc, hmark⟩

theorem not_isMark_of_mem_rest {scheme : String} {rest : List Char}
    (hscheme : Url.splitScheme? (begun (withoutSlashes baseUrl.toList)) = some (scheme, rest))
    (hmarks : ∀ c ∈ baseUrl.toList, isMark c = false) : ∀ c ∈ rest, isMark c = false := by
  intro c hc
  rw [Bool.eq_false_iff]
  intro hmark
  rcases (isMark_rest_iff hscheme).mp ⟨c, hc, hmark⟩ with ⟨d, hd, hisMark⟩
  rw [hmarks d hd] at hisMark
  exact nomatch hisMark

/-- A mark takes every resource in, so that the path stays that of the base URL. -/
theorem parse_pasted_marked (hkind : SchemeKind.ofScheme base.scheme = .web port)
    (hbase : Url.parse baseUrl = .ok base) (hmark : ∃ c ∈ baseUrl.toList, isMark c = true)
    {resource : List Char} (hresource : ∀ c ∈ resource, isResourceChar c = true) :
    ∃ place, Url.parse (pasted baseUrl resource) = .ok place ∧ place.path = base.path := by
  rcases splitScheme?_cases hbase with ⟨_, rest, n, hscheme, hbegun⟩ |
    ⟨_, rest, blanks, _, hblanks, hscheme, hbegun⟩
  · exact Url.parse_marked hkind ((isMark_rest_iff hbegun).mpr hmark) hscheme hbase
      (splitScheme?_pasted hbegun hresource)
  · have hpasted := splitScheme?_pasted hbegun hresource
    rw [List.append_assoc] at hpasted
    rw [← List.append_nil rest] at hscheme
    refine Url.parse_marked hkind ?_ hscheme hbase hpasted
    -- A blank is no mark, so the mark is in front of the blanks.
    rcases (isMark_rest_iff hbegun).mpr hmark with ⟨c, hc, hisMark⟩
    rcases List.mem_append.mp hc with hin | hblank
    · exact ⟨c, hin, hisMark⟩
    · have hnone := Url.forall_isBlank (fun c => isMark c = false) (by decide) (hblanks c hblank)
      rw [hisMark] at hnone
      exact nomatch hnone

/-- A blank at the end leaves no URL, or one with a path that is too long. -/
theorem parse_pasted_blank (hkind : SchemeKind.ofScheme base.scheme = .web port)
    (hbase : Url.parse baseUrl = .ok base) (hmarks : ∀ c ∈ baseUrl.toList, isMark c = false)
    (hplain : ¬EndsPlain baseUrl.toList) {resource : List Char}
    (hresource : ∀ c ∈ resource, isResourceChar c = true) {place : Url}
    (hplace : Url.parse (pasted baseUrl resource) = .ok place) :
    place.path.write ≠ withoutSlashes base.path.write ++ '/' :: resource := by
  rcases splitScheme?_cases hbase with ⟨hends, _⟩ |
    ⟨_, rest, blanks, hmore, hblanks, hscheme, hbegun⟩
  · exact absurd hends hplain
  · have hrest : ∀ c ∈ rest, isMark c = false := fun c hc =>
      not_isMark_of_mem_rest hbegun hmarks c (List.mem_append_left _ hc)
    rcases Url.parse_blank hkind hrest hmore hblanks hscheme hbase with
      ⟨authority, path, hpath, hparts, hextended⟩
    rcases hextended _ resource hresource (splitScheme?_pasted hbegun hresource) with
      ⟨fault, hfault⟩ | ⟨hnonempty, hread⟩
    · rw [hfault] at hplace
      exact nomatch hplace
    · rw [hread] at hplace
      have hplaceParts := (Except.ok.inj hplace).symm
      have hhead : ∀ c ∈ (path ++ blanks).head?, (SchemeKind.web port).isSlash c = true := by
        rcases List.exists_cons_of_ne_nil hnonempty with ⟨c, tail, hcons⟩
        rw [hcons] at hpath ⊢
        exact hpath
      have hlength := Url.length_openSegments_lt port path blanks hnonempty hmore hblanks
      rw [hplaceParts, hparts]
      simp only
      rw [Url.write_parsePath_append port _ _ hhead hresource,
        Url.withoutSlashes_parsePath port path hpath]
      -- With the blanks in it the path would have to be as long as without them.
      intro hsame
      have hshort := congrArg List.length (List.append_cancel_right hsame)
      have hcut := Url.length_withoutSlashes_le
        (UrlPath.segments (Url.openSegments (.web port) path)).write
      omega

/-- An end that counts by itself keeps the authority, and the path goes on with the
    resource. -/
theorem parse_pasted_plain (hkind : SchemeKind.ofScheme base.scheme = .web port)
    (hbase : Url.parse baseUrl = .ok base) (hmarks : ∀ c ∈ baseUrl.toList, isMark c = false)
    (hplain : EndsPlain baseUrl.toList) :
    ∃ path, withoutSlashes base.path.write = withoutSlashes path ∧
      ∀ resource : List Char, (∀ c ∈ resource, isResourceChar c = true) →
        ∃ place, Url.parse (pasted baseUrl resource) = .ok place ∧ place.scheme = base.scheme ∧
          place.authority = base.authority ∧ place.path.write = path ++ '/' :: resource ∧
          place.query = none := by
  rcases splitScheme?_cases hbase with ⟨_, rest, n, hscheme, hbegun⟩ | ⟨hends, _⟩
  · rcases Url.parse_plain hkind (not_isMark_of_mem_rest hbegun hmarks) hscheme hbase with
      ⟨authority, path, hpath, hparts, hextended⟩
    refine ⟨(UrlPath.segments (Url.openSegments (.web port) path)).write, ?_, ?_⟩
    · rw [hparts]
      simp only
      -- Slashes that were taken off are slashes behind the path.
      cases n with
      | zero =>
          rw [List.replicate_zero, List.append_nil]
          exact Url.withoutSlashes_parsePath port path hpath
      | succ n =>
          have hslashes : ∀ c ∈ List.replicate n '/', isResourceChar c = true := by
            intro c hc
            rw [List.eq_of_mem_replicate hc]
            decide
          rw [List.replicate_succ, Url.write_parsePath_append port path _ hpath hslashes]
          exact Url.withoutSlashes_append_replicate _ (n + 1)
    · intro resource hresource
      refine ⟨_, hextended _ resource hresource (splitScheme?_pasted hbegun hresource), rfl, ?_,
        Url.write_parsePath_append port path resource hpath hresource, rfl⟩
      rw [hparts]
  · exact absurd hplain hends

/-- Only an extendable base URL has the path of a resource behind its own. -/
theorem extendable_of_path (hkind : SchemeKind.ofScheme base.scheme = .web port)
    (hbase : Url.parse baseUrl = .ok base) {resource : List Char}
    (hresource : ∀ c ∈ resource, isResourceChar c = true) (hletter : ∃ c ∈ resource, c ≠ '/')
    {place : Url} (hplace : Url.parse (pasted baseUrl resource) = .ok place)
    (hpath : place.path.write = withoutSlashes base.path.write ++ '/' :: resource) :
    Extendable baseUrl := by
  have hmarks : ∀ c ∈ baseUrl.toList, isMark c = false := by
    by_contra hmark
    have hsome : ∃ c ∈ baseUrl.toList, isMark c = true := by
      by_contra hnone
      exact hmark fun c hc => Bool.eq_false_iff.mpr fun h => hnone ⟨c, hc, h⟩
    rcases parse_pasted_marked hkind hbase hsome hresource with ⟨same, hsame, hpathSame⟩
    rw [hplace] at hsame
    rw [Except.ok.inj hsame, hpathSame] at hpath
    rcases hletter with ⟨c, hc, hslash⟩
    exact withoutSlashes_append_ne ⟨c, List.mem_cons_of_mem _ hc, hslash⟩ hpath
  have hplain : EndsPlain baseUrl.toList := by
    by_contra hplain
    exact parse_pasted_blank hkind hbase hmarks hplain hresource hplace hpath
  refine ⟨hmarks, hplain, fun closed hclosed => ?_⟩
  rcases parse_pasted_plain hkind hbase hmarks hplain with ⟨path, hbasePath, hpasted⟩
  rcases hpasted resource hresource with ⟨_, hread, _, _, hwritten, _⟩
  rw [hplace] at hread
  rw [Except.ok.inj hread, hwritten, hbasePath] at hpath
  rcases hpasted [] (fun c hc => nomatch hc) with ⟨_, hreadClosed, _, _, hwrittenClosed, _⟩
  rw [pasted_nil, hclosed] at hreadClosed
  -- What the resource stands behind is the path of the closed base URL but for its slash.
  rw [Url.pathText, String.toList_ofList, Except.ok.inj hreadClosed, hwrittenClosed,
    suffix_slashes_iff, not_not]
  exact (List.append_cancel_right hpath).symm

/-- An extendable base URL keeps its place, with the resource behind its path. -/
theorem parse_pasted_extendable (hkind : SchemeKind.ofScheme base.scheme = .web port)
    (hbase : Url.parse baseUrl = .ok base) (h : Extendable baseUrl) {resource : List Char}
    (hresource : ∀ c ∈ resource, isResourceChar c = true) :
    ∃ place, Url.parse (pasted baseUrl resource) = .ok place ∧ place.scheme = base.scheme ∧
      place.authority = base.authority ∧
      place.path.write = withoutSlashes base.path.write ++ '/' :: resource ∧
      place.query = none := by
  rcases parse_pasted_plain hkind hbase h.noMark h.endsPlain with ⟨path, hbasePath, hpasted⟩
  rcases hpasted resource hresource with ⟨place, hread, hscheme, hauthority, hwritten, hquery⟩
  rcases hpasted [] (fun c hc => nomatch hc) with ⟨closed, hclosed, _, _, hwrittenClosed, _⟩
  rw [pasted_nil] at hclosed
  have hone := h.oneSlash closed hclosed
  rw [Url.pathText, String.toList_ofList, hwrittenClosed, suffix_slashes_iff, not_not] at hone
  exact ⟨place, hread, hscheme, hauthority, by rw [hwritten, hbasePath, hone], hquery⟩

end Bases

/-- The path a request should have, in characters. -/
theorem rightPath_iff (base url : Url) (resource : String) :
    url.pathText = String.ofList (withoutSlashes base.pathText.toList) ++ "/api/" ++ resource ↔
      url.path.write = withoutSlashes base.path.write ++ '/' :: ("api/" ++ resource).toList := by
  rw [← String.toList_inj]
  simp [Url.pathText]

/-- The URL of a resource is that of the pasted text with the pairs. -/
theorem resourceUrl_eq_ok_iff (settings : Settings) (resource : String) {filter : JobFilter}
    {now : Int} {pairs : List (String × String)} (hpairs : filter.pairs now = .ok pairs)
    (url : Url) :
    (Program.clientOf settings).resourceUrl resource filter now = .ok url ↔
      ∃ place, Url.parse (pasted settings.baseUrl ("api/" ++ resource).toList) = .ok place ∧
        url = place.addPairs ((Url.keyName, settings.key) :: pairs) := by
  -- The client pastes behind its own address, which has no slashes at its end.
  have hplace : (Program.clientOf settings).placeOf resource =
      Url.parse (pasted settings.baseUrl ("api/" ++ resource).toList) := by
    have haddress : (Program.clientOf settings).address =
        String.ofList (withoutSlashes settings.baseUrl.toList) := rfl
    rw [Client.placeOf, haddress]
    refine congrArg Url.parse ?_
    rw [← String.toList_inj]
    simp [pasted]
  rw [Client.resourceUrl, hplace]
  cases Url.parse (pasted settings.baseUrl ("api/" ++ resource).toList) with
  | error fault =>
      constructor
      · exact fun h => nomatch h
      · rintro ⟨_, h, _⟩
        exact nomatch h
  | ok place =>
      rw [hpairs]
      constructor
      · intro h
        exact ⟨place, rfl, (Except.ok.inj h).symm⟩
      · rintro ⟨_, hsame, rfl⟩
        rw [← Except.ok.inj hsame]
        rfl

/-- **With accepted settings** a request has the URL it should have exactly if the
    base URL can be read with a resource behind it. -/
theorem rightUrl_iff_extendable {overrides : Overrides} {file : FileSettings} {settings : Settings}
    (hsettings : Settings.resolve overrides file = .ok settings) {resource : String}
    (hresource : Client.Resource resource) {filter : JobFilter} {now : Int}
    {pairs : List (String × String)} (hpairs : filter.pairs now = .ok pairs) :
    ∃ base, Url.parse settings.baseUrl = .ok base ∧
      ((∃ url, (Program.clientOf settings).resourceUrl resource filter now = .ok url ∧
          RightUrl base settings.key resource pairs url) ↔
        Extendable settings.baseUrl) := by
  rcases Settings.parse_baseUrl hsettings with ⟨base, hbase, hscheme⟩
  refine ⟨base, hbase, ?_⟩
  have hkind : ∃ port, SchemeKind.ofScheme base.scheme = .web port := by
    rcases hscheme with hhttp | hhttps
    · exact ⟨80, by rw [hhttp]; rfl⟩
    · exact ⟨443, by rw [hhttps]; rfl⟩
  rcases hkind with ⟨port, hkind⟩
  have hchars : ∀ c ∈ ("api/" ++ resource).toList, isResourceChar c = true := by
    intro c hc
    rw [String.toList_append] at hc
    rcases List.mem_append.mp hc with hin | hin
    · exact List.all_eq_true.mp (rfl : "api/".toList.all isResourceChar = true) c hin
    · exact hresource.isResourceChar c hin
  constructor
  · rintro ⟨url, hurl, hright⟩
    rcases (resourceUrl_eq_ok_iff settings resource hpairs url).mp hurl with ⟨place, hplace, rfl⟩
    -- A resource is more than slashes, which the path would not show.
    have hletter : ∃ c ∈ ("api/" ++ resource).toList, c ≠ '/' := by
      rw [String.toList_append]
      exact ⟨'a', List.mem_append_left _ List.mem_cons_self, by decide⟩
    exact extendable_of_path hkind hbase hchars hletter hplace
      ((rightPath_iff base _ resource).mp hright.path)
  · intro hextendable
    rcases parse_pasted_extendable hkind hbase hextendable hchars with
      ⟨place, hread, hplaceScheme, hauthority, hpath, hquery⟩
    refine ⟨_, (resourceUrl_eq_ok_iff settings resource hpairs _).mpr ⟨place, hread, rfl⟩, ?_⟩
    -- Nothing is pasted into a query, so the pairs are those that are added.
    have hnone : place.pairs = [] := by
      rw [Url.pairs, hquery]
      rfl
    exact {
      scheme := hplaceScheme
      host := congrArg (Option.map (·.host)) hauthority
      port := congrArg (Option.map (·.port)) hauthority
      path := (rightPath_iff base _ resource).mpr hpath
      pairs := by rw [Url.pairs_addPairs, hnone, List.nil_append] }

/-- A path of its own and a slash at its end are no hindrance to a base URL. -/
theorem rightUrl_iff_extendable_localhost :
    ∃ settings pairs base,
      Settings.resolve ⟨some "http://localhost/lab/", some "k&1", none⟩ .empty = .ok settings ∧
      JobFilter.pairs ⟨some 7, some "a b"⟩ 1700000000 = .ok pairs ∧
      Url.parse settings.baseUrl = .ok base ∧ Extendable settings.baseUrl ∧
      ∃ url, (Program.clientOf settings).resourceUrl (Client.queueResource 12)
          ⟨some 7, some "a b"⟩ 1700000000 = .ok url ∧
        RightUrl base settings.key (Client.queueResource 12) pairs url := by
  have hsettings : Settings.resolve ⟨some "http://localhost/lab/", some "k&1", none⟩ .empty =
      .ok ⟨"http://localhost/lab/", "k&1", ".", none⟩ := rfl
  have hpairs : JobFilter.pairs ⟨some 7, some "a b"⟩ 1700000000 =
      .ok [("stop", "1700000000"), ("start", "1699395200"), ("name", "a b")] := rfl
  have hextendable : Extendable "http://localhost/lab/" := by
    refine ⟨?_, ?_, fun closed hclosed => ?_⟩
    · have hnone : "http://localhost/lab/".toList.any isMark = false := rfl
      exact fun c hc => Bool.eq_false_iff.mpr (List.any_eq_false.mp hnone c hc)
    · intro c hc
      rw [← Option.mem_some.mp hc]
      decide
    · rw [← Except.ok.inj hclosed]
      decide
  rcases rightUrl_iff_extendable hsettings (.queue 12) hpairs with ⟨base, hbase, hiff⟩
  exact ⟨_, _, base, hsettings, hpairs, hbase, hextendable, hiff.mpr hextendable⟩

/-- A base URL with a query is accepted, and the resource ends up in the query. -/
theorem not_rightUrl_query :
    ∃ settings base,
      Settings.resolve ⟨some "http://localhost/?x=1", some "k", none⟩ .empty = .ok settings ∧
      Url.parse settings.baseUrl = .ok base ∧
      ¬∃ url, (Program.clientOf settings).resourceUrl (Client.queueResource 1) .all 1700000000 =
          .ok url ∧
        RightUrl base settings.key (Client.queueResource 1) [] url := by
  refine ⟨⟨"http://localhost/?x=1", "k", ".", none⟩,
    ⟨"http", some ⟨"", none, .domain "localhost", none⟩, .segments [""], some "x=1", none⟩,
    rfl, rfl, ?_⟩
  rintro ⟨url, hurl, hright⟩
  -- The resource stands behind the mark of the query, and the path is empty.
  have hpath : url.pathText = "/" := by
    rw [← Except.ok.inj hurl]
    rfl
  have hwanted := hright.path
  rw [hpath] at hwanted
  exact absurd hwanted (by decide)

end TestbedReport
