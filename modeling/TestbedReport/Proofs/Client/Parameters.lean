import TestbedReport.Proofs.Client.Exchange
import TestbedReport.Proofs.Url.Path

/-!
# What a Request Says in Its Query

The key and the name of a filter are typed by a user and can hold anything, the
marks of a query included. None of it gets out of its pair: what a reader finds in
the query of a request is what the URL had by itself, the key, and the filter, one
pair for each and in this order. Nothing of it reaches the other parts of the URL.

The moments of a span of time are whole seconds, and the day count is taken off
without rounding. A day count of zero is a span like any other.

## Theorems

* `Client.new_append_slashes`: Slashes behind a base URL make no difference.
* `Client.resourceUrl_parameters`: The query of a request.
-/

namespace TestbedReport

open Url (withoutSlashes)

namespace Client

/-- A base URL is meant without the slashes at its end, so more of them make no
    difference. -/
theorem new_append_slashes (baseUrl key : String) (timeoutSeconds : Option UInt64) (n : Nat) :
    Client.new (baseUrl ++ String.ofList (List.replicate n '/')) key timeoutSeconds =
      Client.new baseUrl key timeoutSeconds := by
  have haddress : ∀ text : String, Client.new text key timeoutSeconds =
      ⟨String.ofList (withoutSlashes text.toList), key, timeoutSeconds⟩ := fun _ => rfl
  rw [haddress, haddress, String.toList_append, String.toList_ofList,
    Url.withoutSlashes_append_replicate]

/-- **The query of a request** is read as the pairs that the URL of the resource has by
    itself, then the key, then the pairs of the filter, whatever is in any of them. All
    other parts are those of the URL of the resource, which knows neither key nor
    filter, and slashes behind the base URL do not count. -/
theorem resourceUrl_parameters {baseUrl resource : String} {place : Url}
    (hplace : Url.parse (String.ofList (withoutSlashes baseUrl.toList) ++ "/api/" ++ resource) =
      .ok place)
    {filter : JobFilter} {now : Int} (hfilter : filter.InCalendar now) (key : String)
    (timeoutSeconds : Option UInt64) :
    ∃ url, (Client.new baseUrl key timeoutSeconds).resourceUrl resource filter now = .ok url ∧
      url.pairs = place.pairs ++ ("key", key) :: filter.parameters now ∧
      url.scheme = place.scheme ∧ url.authority = place.authority ∧ url.path = place.path ∧
      url.fragment = place.fragment ∧
      ∀ n, (Client.new (baseUrl ++ String.ofList (List.replicate n '/')) key
        timeoutSeconds).resourceUrl resource filter now = .ok url := by
  have hread : (Client.new baseUrl key timeoutSeconds).placeOf resource = .ok place := hplace
  have hurl := resourceUrl_eq hread hfilter
  refine ⟨_, hurl, Url.pairs_addPairs _ _, rfl, rfl, rfl, rfl, fun n => ?_⟩
  rw [new_append_slashes]
  exact hurl

/-- A base URL with a query of its own, a key and a name that are full of marks, and a
    span of no days. -/
theorem resourceUrl_parameters_marks :
    ∃ place url : Url,
      Url.parse (String.ofList (withoutSlashes "http://localhost/lab?x=1&key=%26//".toList) ++
        "/api/" ++ "queue/12") = .ok place ∧
      JobFilter.InCalendar ⟨some 0, some "a&b=c #%41+ü"⟩ 1700000000 ∧
      (Client.new "http://localhost/lab?x=1&key=%26//" "k&stop=0#" none).resourceUrl "queue/12"
        ⟨some 0, some "a&b=c #%41+ü"⟩ 1700000000 = .ok url ∧
      url.pairs = [("x", "1"), ("key", "&/api/queue/12"), ("key", "k&stop=0#"),
        ("stop", "1700000000"), ("start", "1700000000"), ("name", "a&b=c #%41+ü")] := by
  have hfilter : JobFilter.InCalendar ⟨some 0, some "a&b=c #%41+ü"⟩ 1700000000 := by
    intro days hdays
    rw [← Option.mem_some.mp hdays]
    decide
  have hplace : Url.parse (String.ofList
      (withoutSlashes "http://localhost/lab?x=1&key=%26//".toList) ++ "/api/" ++ "queue/12") =
      .ok ⟨"http", some ⟨"", none, .domain "localhost", none⟩, .segments ["lab"],
        some "x=1&key=%26/api/queue/12", none⟩ := by
    decide
  rcases resourceUrl_parameters hplace hfilter "k&stop=0#" none with ⟨url, hurl, hpairs, _⟩
  exact ⟨_, url, hplace, hfilter, hurl, hpairs⟩

end Client

end TestbedReport
