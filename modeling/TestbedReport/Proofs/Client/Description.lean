import TestbedReport.Csv.Writer
import TestbedReport.Proofs.Client.Exchange
import TestbedReport.Proofs.Json.Reading
import TestbedReport.Proofs.Text.Utf8

/-!
# A Description in a Line of a Script

Scripts put the description of a job into a line of their own, between commas and
without quotes. For that it is printed without its commas, and without anything if the
server has none to tell.

Commas are one of four characters that a plain field must not have. The other three
are passed on: a description with a quote is no plain field, and one with a line break
cuts the line of the script in two. So what is printed can be put into a line exactly
if the server tells of none of the three. Nothing the server can do instead makes a
difference, be it a refusal, an answer that breaks off or one that is no document.

## Main definitions

* `Client.Told`: The description a server tells of.

## Theorems

* `Worth.interpret_eq`: An answer is worth one thing.
* `Attempt.value_tryCatch`: What an attempt with a handler comes to.
* `Client.value_descriptionOrEmpty`: The description without its commas, or nothing.
* `Client.descriptionOrEmpty_plain_iff`: When it can be put into a line.
* `Client.descriptionOrEmpty_lineBreak`: A description that cuts the line.
-/

namespace TestbedReport

/-- An answer is worth one thing only, which is what the client makes of it. -/
theorem Worth.interpret_eq {resource : String} {answer : Answer} {outcome : Except Failure Json}
    (h : Worth resource answer outcome) :
    Client.interpret resource answer = outcome.mapError Stop.failed := by
  unfold Client.interpret
  cases h with
  | unsent fault => rfl
  | rejected reply hstatus =>
      unfold Succeeded at hstatus
      simp only [if_neg hstatus]
      rfl
  | cut status fault hstatus =>
      unfold Succeeded at hstatus
      simp only [if_pos hstatus]
      rfl
  -- From here on the status is one of success, and the body decides.
  | blank status body hstatus hblank =>
      unfold Succeeded at hstatus
      simp only [if_pos hstatus, Client.documentOf, hblank, if_true]
      rfl
  | document status body value hstatus hblank hvalue =>
      unfold Succeeded at hstatus
      simp only [if_pos hstatus, Client.documentOf, hblank, hvalue, Bool.false_eq_true, if_false]
      rfl
  | malformed status body hstatus hblank hvalue =>
      unfold Succeeded at hstatus
      simp only [if_pos hstatus, Client.documentOf, hblank, hvalue, Bool.false_eq_true, if_false]
      rfl

variable {σ : Type}

/-- What an attempt comes to when a handler looks at its failures. -/
theorem Attempt.value_tryCatch {α : Type} (x : Attempt α) (handler : Stop → Attempt α)
    (world : Surroundings σ) (files : σ) :
    (Session.run world (tryCatch x handler).run files).value =
      let first := Session.run world x.run files
      match first.value with
      | .ok value => .ok value
      | .error stop => (Session.run world (handler stop).run first.files).value := by
  -- A handler is one more session in a row, one that starts from the outcome.
  have hbind : ∃ next, (tryCatch x handler).run = x.run.bind next ∧
      (∀ value, next (.ok value) = .done (.ok value)) ∧
      ∀ stop, next (.error stop) = (handler stop).run := ⟨_, rfl, fun _ => rfl, fun _ => rfl⟩
  rcases hbind with ⟨next, hnext, hvalue, hstop⟩
  rw [hnext, Session.run_bind]
  simp only
  cases (Session.run world x.run files).value with
  | ok value => rw [hvalue]; rfl
  | error stop => rw [hstop]

namespace Client

/-- The description that a server tells of: a text in a document it answers with. -/
def Told (client : Client) (answer : Request → Answer) (jobId : UInt64) (now : Int)
    (description : String) : Prop :=
  ∃ url document, client.resourceUrl (queueResource jobId) .all now = .ok url ∧
    Worth (queueResource jobId) (answer ⟨.get, url, "", client.timeoutSeconds⟩) (.ok document) ∧
    document.member? "description" = some (.text description)

/-- With the URL and what its answer is worth known, so is what the server tells of. -/
theorem told_iff {client : Client} {answer : Request → Answer} {jobId : UInt64} {now : Int}
    {url : Url} {outcome : Except Failure Json}
    (hurl : client.resourceUrl (queueResource jobId) .all now = .ok url)
    (hworth : Worth (queueResource jobId) (answer ⟨.get, url, "", client.timeoutSeconds⟩) outcome)
    (description : String) :
    client.Told answer jobId now description ↔ ∃ document, outcome = .ok document ∧
      document.member? "description" = some (.text description) := by
  constructor
  · rintro ⟨other, document, hother, hdocument, hmember⟩
    rw [hurl] at hother
    rw [← Except.ok.inj hother] at hdocument
    -- An answer is worth one thing only, so the two documents are the same.
    have hsame := hworth.interpret_eq.symm.trans hdocument.interpret_eq
    cases outcome with
    | error cause => exact nomatch hsame
    | ok worth => exact ⟨document, by rw [Except.ok.inj hsame], hmember⟩
  · rintro ⟨document, rfl, hmember⟩
    exact ⟨url, document, hurl, hworth, hmember⟩

theorem Told.unique {client : Client} {answer : Request → Answer} {jobId : UInt64} {now : Int}
    {first second : String} (hfirst : client.Told answer jobId now first)
    (hsecond : client.Told answer jobId now second) : first = second := by
  rcases hfirst with ⟨url, document, hurl, hworth, hmember⟩
  rcases (told_iff hurl hworth second).mp hsecond with ⟨same, hsame, hother⟩
  rw [← Except.ok.inj hsame, hmember] at hother
  exact Json.text.inj (Option.some.inj hother)

/-- A text without its commas. -/
def withoutCommas (text : String) : String :=
  String.ofList (text.toList.filter (· ≠ ','))

variable (client : Client) (world : Surroundings σ) (files : σ) (jobId : UInt64) (now : Int)

/-- A request that is for no span of time can only fail on its URL. -/
theorem failed_of_resourceUrl_all {resource : String} {stop : Stop}
    (h : client.resourceUrl resource .all now = .error stop) : ∃ cause, stop = .failed cause := by
  unfold resourceUrl at h
  cases hplace : client.placeOf resource with
  | error fault =>
      rw [hplace] at h
      exact ⟨.url fault, (Except.error.inj h).symm⟩
  | ok place =>
      rw [hplace] at h
      exact nomatch h

theorem value_description :
    (Session.run world (client.description jobId now).run files).value =
      match client.resourceUrl (queueResource jobId) .all now with
      | .error stop => .error stop
      | .ok url => (interpret (queueResource jobId)
          (world.answer ⟨.get, url, "", client.timeoutSeconds⟩)).map descriptionOf := by
  have hfetch : client.description jobId now =
      client.exchange .get (queueResource jobId) .all now "" >>= fun entry =>
        pure (descriptionOf entry) := rfl
  rw [hfetch, Attempt.run_bind_eq]
  cases hurl : client.resourceUrl (queueResource jobId) .all now with
  -- Without a URL nothing is sent.
  | error stop =>
      unfold exchange
      rw [hurl]
      rfl
  | ok url =>
      rw [run_exchange hurl]
      simp only
      cases interpret (queueResource jobId)
        (world.answer ⟨.get, url, "", client.timeoutSeconds⟩) with
      | error stop => rfl
      | ok entry => rfl

/-- **What is printed for a description** is the one the server tells of, without its
    commas, or nothing. -/
theorem value_descriptionOrEmpty :
    ∃ text, (Session.run world (client.descriptionOrEmpty jobId now).run files).value = .ok text ∧
      ((∃ description, client.Told world.answer jobId now description ∧
          text = withoutCommas description) ∨
        (∀ description, ¬client.Told world.answer jobId now description) ∧ text = "") := by
  have hvalue := value_description client world files jobId now
  unfold descriptionOrEmpty
  rw [Attempt.value_tryCatch]
  simp only [hvalue]
  cases hurl : client.resourceUrl (queueResource jobId) .all now with
  | error stop =>
      rcases failed_of_resourceUrl_all client now hurl with ⟨cause, rfl⟩
      refine ⟨"", rfl, .inr ⟨?_, rfl⟩⟩
      rintro description ⟨url, _, hsome, _⟩
      rw [hurl] at hsome
      exact nomatch hsome
  | ok url =>
      rcases exists_worth (queueResource jobId)
        (world.answer ⟨.get, url, "", client.timeoutSeconds⟩) with ⟨outcome, hworth, hinterpret⟩
      have htold := told_iff hurl hworth
      simp only [hinterpret]
      cases outcome with
      | error cause =>
          refine ⟨"", rfl, .inr ⟨fun description hdescription => ?_, rfl⟩⟩
          rcases (htold description).mp hdescription with ⟨document, hdocument, _⟩
          exact nomatch hdocument
      | ok document =>
          refine ⟨descriptionOf document, rfl, ?_⟩
          unfold descriptionOf
          split
          · -- A text is told of, and anything else under the name is not.
            next description hmember =>
            exact .inl ⟨description, (htold description).mpr ⟨document, rfl, hmember⟩, rfl⟩
          · next hother =>
            refine .inr ⟨fun description hdescription => ?_, rfl⟩
            rcases (htold description).mp hdescription with ⟨same, hsame, hmember⟩
            rw [← Except.ok.inj hsame] at hmember
            exact hother description hmember

theorem comma_not_mem_withoutCommas (text : String) : ',' ∉ (withoutCommas text).toList := by
  intro h
  unfold withoutCommas at h
  rw [String.toList_ofList, List.mem_filter] at h
  exact absurd h.2 (by decide)

/-- Without its commas a text is a plain field exactly if it has none of the other
    three characters. -/
theorem needsQuotes_withoutCommas (text : String) :
    Csv.needsQuotes (withoutCommas text).toList = false ↔
      '"' ∉ text.toList ∧ '\r' ∉ text.toList ∧ '\n' ∉ text.toList := by
  have hkept : ∀ c, c ≠ ',' → (c ∈ (withoutCommas text).toList ↔ c ∈ text.toList) := by
    intro c hc
    unfold withoutCommas
    rw [String.toList_ofList, List.mem_filter]
    exact ⟨fun h => h.1, fun h => ⟨h, by simpa using hc⟩⟩
  rw [← hkept '"' (by decide), ← hkept '\r' (by decide), ← hkept '\n' (by decide)]
  have hcomma := comma_not_mem_withoutCommas text
  -- From here on nothing matters of the text but that it has no comma.
  generalize (withoutCommas text).toList = cs at hcomma
  unfold Csv.needsQuotes
  rw [List.any_eq_false]
  simp only [Bool.or_eq_true, decide_eq_true_eq, not_or]
  constructor
  · intro h
    refine ⟨fun hmem => ?_, fun hmem => ?_, fun hmem => ?_⟩
    · exact (h _ hmem).1.1.2 rfl
    · exact (h _ hmem).1.2 rfl
    · exact (h _ hmem).2 rfl
  · rintro ⟨hquote, hreturn, hfeed⟩ c hc
    refine ⟨⟨⟨?_, ?_⟩, ?_⟩, ?_⟩ <;> rintro rfl
    · exact hcomma hc
    · exact hquote hc
    · exact hreturn hc
    · exact hfeed hc

/-- **What is printed for a description is a plain field** exactly if the server tells
    of no quote and no line break. A comma is never in it. -/
theorem descriptionOrEmpty_plain_iff :
    ∃ text, (Session.run world (client.descriptionOrEmpty jobId now).run files).value = .ok text ∧
      ',' ∉ text.toList ∧
      (Csv.needsQuotes text.toList = false ↔
        ∀ description, client.Told world.answer jobId now description →
          '"' ∉ description.toList ∧ '\r' ∉ description.toList ∧ '\n' ∉ description.toList) := by
  rcases value_descriptionOrEmpty client world files jobId now with
    ⟨text, hvalue, ⟨description, htold, rfl⟩ | ⟨hnone, rfl⟩⟩
  · refine ⟨_, hvalue, comma_not_mem_withoutCommas description, ?_⟩
    rw [needsQuotes_withoutCommas]
    constructor
    · intro h other hother
      -- The server tells of one description at most.
      rw [hother.unique htold]
      exact h
    · exact fun h => h description htold
  · exact ⟨"", hvalue, by decide, iff_of_true rfl fun description h => absurd h (hnone description)⟩

/-- A server that has a description with a line break in it. -/
theorem descriptionOrEmpty_lineBreak :
    let entry : Json := .object [("description", .text "a\nb")]
    let world : Surroundings Unit := ⟨fun _ => .ok ⟨200, .ok (Utf8.encode entry.toText)⟩,
      fun _ _ files => (.ok (), files), fun _ _ => .error .notFound⟩
    (Session.run world
        ((Client.new "http://localhost" "k" none).descriptionOrEmpty 5 1700000000).run ()).value =
      .ok "a\nb" ∧ Csv.needsQuotes "a\nb".toList = true := by
  have hurl : ∃ url, (Client.new "http://localhost" "k" none).resourceUrl (queueResource 5) .all
      1700000000 = .ok url := ⟨_, rfl⟩
  rcases hurl with ⟨url, hurl⟩
  intro entry world
  -- The entry arrives as it is, because it is read back from its text.
  have hexact : Json.Exact 1 entry := by decide
  have htold : (Client.new "http://localhost" "k" none).Told world.answer 5 1700000000 "a\nb" :=
    ⟨url, entry, hurl, .of_toText hexact (by decide) rfl, rfl⟩
  rcases value_descriptionOrEmpty _ world () 5 1700000000 with
    ⟨text, hvalue, ⟨description, hother, rfl⟩ | ⟨hnone, _⟩⟩
  · rw [hother.unique htold] at hvalue
    exact ⟨hvalue, rfl⟩
  · exact absurd htold (hnone _)

end Client

end TestbedReport
