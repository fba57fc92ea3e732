import TestbedReport.Proofs.Client.Exchange
import TestbedReport.Proofs.Url.Written
import TestbedReport.Settings.Check

/-!
# What Is Shown of a Request

Before the URL of a request is shown to anybody, the value of every key in it is
replaced by stars. What is shown then is the same text for every key, so nothing of the
key can be learned from it, however it is made up: a key that looks like more pairs, or
like a percent form, is one value and is replaced as one.

Apart from that the text says all there is. Whoever reads it as a URL finds the parts
of the request and its pairs in their order, with stars for keys.

## Main definitions

* `Url.schemeOf?`: The scheme that a text begins with.

## Theorems

* `Url.schemeOf?_append`: A base URL and its resources have one scheme.
* `Url.Settled.withPairs`: A URL with other pairs is read as it is written.
* `Url.pairs_redact`, `Url.redact_addPairs`: The pairs that are shown, whatever the key.
* `Client.redact_resourceUrl`: What is shown of a request.
-/

namespace TestbedReport

open Url (withoutSlashes)

namespace Url

section Schemes

/-- The scheme that a text begins with. -/
def schemeOf? (text : String) : Option String :=
  (splitScheme? (strip text.toList)).map Prod.fst

/-- Blanks at the end of a text do not matter for its scheme. -/
theorem schemeOf?_eq_some_iff {text scheme : String} :
    schemeOf? text = some scheme ↔
      ∃ rest, splitScheme? (begun text.toList) = some (scheme, rest) := by
  rcases exists_begun_eq text.toList with ⟨blanks, hbegun, hblanks⟩
  have hcolon : ':' ∉ blanks := fun hmem => absurd (hblanks _ hmem) (by decide)
  -- A text goes on with its stripped form and blanks, which have no colon.
  rw [schemeOf?, Option.map_eq_some_iff, hbegun]
  constructor
  · rintro ⟨⟨_, rest⟩, hread, rfl⟩
    exact ⟨_, splitScheme?_append hread blanks⟩
  · rintro ⟨rest, hread⟩
    rcases splitScheme?_of_append hread hcolon with ⟨kept, hkept, _⟩
    exact ⟨_, hkept, rfl⟩

/-- A text with more behind it goes on with some of it. -/
theorem exists_begun_append (cs more : List Char) :
    ∃ tail, begun (cs ++ more) = begun cs ++ tail ∧ ∀ c ∈ tail, c ∈ more := by
  rw [begun, begun, List.dropWhile_append]
  split
  · next hempty =>
    refine ⟨(more.dropWhile isBlank).filter isKept, ?_, fun c hc => ?_⟩
    · rw [List.isEmpty_iff.mp hempty]
      rfl
    · exact (List.dropWhile_sublist _).mem (List.mem_of_mem_filter hc)
  · exact ⟨more.filter isKept, List.filter_append _ _, fun c hc => List.mem_of_mem_filter hc⟩

/-- A base URL and its resources have one scheme. -/
theorem schemeOf?_append {baseUrl scheme : String} (h : schemeOf? baseUrl = some scheme)
    (more : String) :
    schemeOf? (String.ofList (withoutSlashes baseUrl.toList) ++ more) = some scheme := by
  rcases schemeOf?_eq_some_iff.mp h with ⟨rest, hread⟩
  rcases exists_replicate_withoutSlashes baseUrl.toList with ⟨n, hn⟩
  rw [hn] at hread
  rcases exists_begun_append (withoutSlashes baseUrl.toList) (List.replicate n '/') with
    ⟨slashes, hslashes, hmem⟩
  -- The slashes that are taken away are behind the colon.
  have hcolon : ':' ∉ slashes := fun hin =>
    absurd (List.eq_of_mem_replicate (hmem _ hin)) (by decide)
  rw [hslashes] at hread
  rcases splitScheme?_of_append hread hcolon with ⟨kept, hkept, _⟩
  rcases exists_begun_append (withoutSlashes baseUrl.toList) more.toList with ⟨tail, htail, _⟩
  refine schemeOf?_eq_some_iff.mpr ⟨kept ++ tail, ?_⟩
  rw [String.toList_append, String.toList_ofList, htail]
  exact splitScheme?_append hkept tail

theorem scheme_of_parse {text scheme : String} {u : Url} (hscheme : schemeOf? text = some scheme)
    (h : parse text = .ok u) : u.scheme = scheme := by
  rcases splitScheme?_of_parse h with ⟨rest, hread⟩
  rw [schemeOf?, hread] at hscheme
  exact Option.some.inj hscheme

end Schemes

section Pairs

/-- What is written for pairs needs no percent form. -/
theorem encoded_writePairs (pairs : List (String × String)) :
    Percent.Encoded Percent.inSpecialQuery (Form.writePairs pairs) := by
  intro c hc
  rcases (Form.mem_extend hc).resolve_left List.not_mem_nil with hwritten | rfl | rfl
  · -- What is written is in ASCII, and the table has 128 entries.
    have hascii : c.toNat < 0x80 := by
      simp only [Form.isWritten, Bool.or_eq_true, decide_eq_true_eq] at hwritten
      rcases hwritten with (hplain | rfl) | rfl
      · exact Form.toNat_lt_of_isPlain hplain
      · decide
      · decide
    exact ⟨hascii, forall_ascii
      (fun c => Form.isWritten c = true → Percent.inSpecialQuery c = false) (by decide) hascii
      hwritten⟩
  · decide
  · decide

variable {port : Nat} {u : Url}

/-- A query of pairs leaves a URL settled, whatever the pairs are. -/
theorem Settled.withPairs (h : u.Settled port) (pairs : List (String × String)) :
    Settled port { u with query := some (String.ofList (Form.writePairs pairs)) } := by
  refine ⟨h.scheme, h.authority, h.path, fun query hquery => ?_, h.fragment⟩
  rw [← Option.mem_some.mp hquery, String.toList_ofList]
  exact encoded_writePairs pairs

/-- **A URL without its keys** has the pairs of the URL, with stars for keys. -/
theorem pairs_redact (u : Url) :
    u.redact.pairs = u.pairs.map fun pair =>
      if pair.1 = "key" then ("key", "***") else pair := by
  have hmask : ∀ pair, maskPair pair = if pair.1 = "key" then ("key", "***") else pair := by
    intro pair
    unfold maskPair keyName
    split
    · next hkey => rw [hkey]
    · rfl
  have hread := Form.readPairs_extend [] (u.pairs.map maskPair)
  rw [Url.pairs, redact, Option.getD_some, String.toList_ofList, ← List.map_congr_left
    fun pair _ => hmask pair]
  exact hread

/-- What is shown does not depend on the value of a key. -/
theorem redact_addPairs (place : Url) (key other : String) (pairs : List (String × String)) :
    (place.addPairs ((keyName, key) :: pairs)).redact =
      (place.addPairs ((keyName, other) :: pairs)).redact := by
  have hmasked : ∀ key, (place.addPairs ((keyName, key) :: pairs)).pairs.map maskPair =
      place.pairs.map maskPair ++ (keyName, "***") :: pairs.map maskPair := by
    intro key
    rw [pairs_addPairs, List.map_append, List.map_cons, maskPair, if_pos rfl]
  rw [redact, redact, hmasked, hmasked]
  rfl

end Pairs

end Url

namespace Client

variable {baseUrl scheme resource key : String} {timeoutSeconds : Option UInt64} {place : Url}

/-- A base URL of the web has resources whose URLs are settled. -/
theorem settled_placeOf (hscheme : Url.schemeOf? baseUrl = some scheme)
    (hweb : scheme ∈ Check.schemes)
    (hplace : (Client.new baseUrl key timeoutSeconds).placeOf resource = .ok place) :
    ∃ port, place.Settled port := by
  have hread : Url.parse (String.ofList (withoutSlashes baseUrl.toList) ++ ("/api/" ++ resource)) =
      .ok place := by
    rw [← String.append_assoc]
    exact hplace
  -- The scheme is that of the base URL, and both of the web have a port.
  have hsame : place.scheme = scheme :=
    Url.scheme_of_parse (Url.schemeOf?_append hscheme ("/api/" ++ resource)) hread
  have hkind : ∀ scheme ∈ Check.schemes, ∃ port, SchemeKind.ofScheme scheme = .web port := by
    unfold Check.schemes
    simp only [List.forall_mem_cons, List.not_mem_nil, false_implies, implies_true, and_true]
    exact ⟨⟨80, rfl⟩, ⟨443, rfl⟩⟩
  rcases hkind scheme hweb with ⟨port, hport⟩
  exact ⟨port, Url.settled_of_parse hread (by rw [hsame, hport])⟩

/-- What a request is made for: the URL of the resource, with the key in front of the
    pairs of the filter. -/
theorem exists_of_resourceUrl {client : Client} {filter : JobFilter} {now : Int} {url : Url}
    (h : client.resourceUrl resource filter now = .ok url) :
    ∃ place pairs, client.placeOf resource = .ok place ∧ filter.pairs now = .ok pairs ∧
      url = place.addPairs ((Url.keyName, client.key) :: pairs) := by
  unfold resourceUrl at h
  split at h
  · cases h
  · next place hplace =>
    rcases exists_of_bind_eq_ok h with ⟨pairs, hpairs, hurl⟩
    exact ⟨place, pairs, hplace, hpairs, (Except.ok.inj hurl).symm⟩

/-- **What is shown of a request** is the same for every key, and it says all of the
    request but its keys. -/
theorem redact_resourceUrl (hscheme : Url.schemeOf? baseUrl = some scheme)
    (hweb : scheme ∈ Check.schemes) {filter : JobFilter} {now : Int} {url : Url}
    (hurl : (Client.new baseUrl key timeoutSeconds).resourceUrl resource filter now = .ok url) :
    (∀ other, ∃ otherUrl,
      (Client.new baseUrl other timeoutSeconds).resourceUrl resource filter now = .ok otherUrl ∧
        otherUrl.redact.text = url.redact.text) ∧
    ∃ shown, Url.parse url.redact.text = .ok shown ∧ shown.scheme = url.scheme ∧
      shown.authority = url.authority ∧ shown.path = url.path ∧ shown.fragment = url.fragment ∧
      shown.pairs = url.pairs.map fun pair =>
        if pair.1 = "key" then ("key", "***") else pair := by
  rcases exists_of_resourceUrl hurl with ⟨place, pairs, hplace, hpairs, rfl⟩
  constructor
  · -- The place knows nothing of the key, so any other key has the same one.
    intro other
    have hother : (Client.new baseUrl other timeoutSeconds).placeOf resource = .ok place := hplace
    refine ⟨place.addPairs ((Url.keyName, other) :: pairs), ?_, ?_⟩
    · unfold resourceUrl
      rw [hother, hpairs]
      rfl
    · exact congrArg Url.text (Url.redact_addPairs place other key pairs)
  · rcases settled_placeOf hscheme hweb hplace with ⟨port, hsettled⟩
    exact ⟨_, Url.parse_text (hsettled.withPairs _), rfl, rfl, rfl, rfl, Url.pairs_redact _⟩

/-- A base URL with a query, a key and a fragment of its own, and two keys of which one
    is full of marks. -/
theorem redact_resourceUrl_marks :
    ∃ url otherUrl shown : Url,
      Url.schemeOf? "https://lab@[::1]:8080/a?x=1&key=%26#b" = some "https" ∧
      "https" ∈ Check.schemes ∧
      (Client.new "https://lab@[::1]:8080/a?x=1&key=%26#b" "k&stop=0#" none).resourceUrl
        "queue/12" ⟨some 7, some "key=c d"⟩ 1700000000 = .ok url ∧
      (Client.new "https://lab@[::1]:8080/a?x=1&key=%26#b" "" none).resourceUrl
        "queue/12" ⟨some 7, some "key=c d"⟩ 1700000000 = .ok otherUrl ∧
      otherUrl.redact.text = url.redact.text ∧ Url.parse url.redact.text = .ok shown ∧
      shown.pairs = [("x", "1"), ("key", "***"), ("key", "***"), ("stop", "1700000000"),
        ("start", "1699395200"), ("name", "key=c d")] ∧ shown.fragment = some "b/api/queue/12" := by
  have hscheme : Url.schemeOf? "https://lab@[::1]:8080/a?x=1&key=%26#b" = some "https" := by
    decide
  have hweb : "https" ∈ Check.schemes := by decide
  have hplace : (Client.new "https://lab@[::1]:8080/a?x=1&key=%26#b" "k&stop=0#" none).placeOf
      "queue/12" = .ok ⟨"https", some ⟨"lab", none, .ipv6 [0, 0, 0, 0, 0, 0, 0, 1], some 8080⟩,
        .segments ["a"], some "x=1&key=%26", some "b/api/queue/12"⟩ := by decide
  have hfilter : JobFilter.InCalendar ⟨some 7, some "key=c d"⟩ 1700000000 := by
    intro days hdays
    rw [← Option.mem_some.mp hdays]
    decide
  have hurl := resourceUrl_eq hplace hfilter
  rcases redact_resourceUrl hscheme hweb hurl with
    ⟨hother, shown, hshown, _, _, _, hfragment, hpairs⟩
  rcases hother "" with ⟨otherUrl, hotherUrl, hsame⟩
  rw [Url.pairs_addPairs] at hpairs
  exact ⟨_, otherUrl, shown, hscheme, hweb, hurl, hotherUrl, hsame, hshown, hpairs, hfragment⟩

end Client

end TestbedReport
