import TestbedReport.Proofs.Client.Exchange
import TestbedReport.Proofs.Decimal.Significant
import TestbedReport.Proofs.Json.Reading
import TestbedReport.Proofs.Report.IdLists
import TestbedReport.Proofs.Text.Utf8

/-!
# Which Ids are Shown as They Are

A job is named by a number of 64 bits without a sign, and that is what the commands
take for an id. A cell has integers of 64 bits with a sign. An id up to the greatest
of those is shown as it is, and a script can take it from the list, or from what is
said of a new job, and give it to a command.

An id above becomes a floating-point number on its way into the cell. What is shown
then has at most seventeen digits in front of its zeros, and the id has nineteen or
twenty. So the id that is shown is another one, unless it ends in two zeros at least
(`idShown_ofInteger`).

## Main definitions

* `IdShown`: What an id is shown as.
* `HasId`: An entry whose job has a number as its id.

## Theorems

* `idShown_ofInteger`: An id in a cell.
* `ids_shown`: The ids of a listing and of a job that is queued or deleted.
* `ids_not_exact`: An id that is shown as another one.
-/

namespace TestbedReport

/-- What an id is shown as. Within the range of cells it is as it is and can be read
    back; above it goes through a floating-point number, and it is as it is at most
    if it ends in two zeros. -/
structure IdShown (id : Nat) (text : String) : Prop where
  below : id < 2 ^ 63 → text.toList = Decimal.ofNat id ∧ Decimal.toNat? text.toList = some id
  above : 2 ^ 63 ≤ id → text = Decimal.cellText (Float.ofInt id)
  rounded : 2 ^ 63 ≤ id → text.toList = Decimal.ofNat id → 100 ∣ id

/-- An entry whose job has a number as its id. -/
def HasId (entry : Json) (id : Nat) : Prop :=
  (entry.member? "job").bind (·.member? "id") = some (.integer id)

/-- A number of nineteen digits or more that is shown by seventeen ends in two
    zeros. -/
theorem hundred_dvd_of_cellText {x : Float} {id : Nat} (hid : 2 ^ 63 ≤ id)
    (h : (Decimal.cellText x).toList = Decimal.ofNat id) : 100 ∣ id := by
  rcases Decimal.exists_significant h with ⟨digits, zeros, hsplit, hdigits⟩
  -- With one zero or none, seventeen digits do not reach so far.
  match zeros with
  | 0 => omega
  | 1 => omega
  | zeros + 2 =>
      rw [hsplit, Nat.pow_add, Nat.mul_comm (10 ^ zeros), Nat.mul_assoc]
      exact Nat.dvd_mul_right _ _

theorem idShown_ofInteger (id : Nat) : IdShown id (Scalar.ofInteger id).render := by
  -- The limit is where an integer stops being the integer of a cell.
  by_cases hbelow : id < 2 ^ 63
  · have hcell : Scalar.ofInteger id = .int (Int64.ofInt id) := by
      rw [Scalar.ofInteger, Scalar.ofInt?, if_pos (by omega), Option.getD_some]
    have htext : (Scalar.ofInteger id).render.toList = Decimal.ofNat id := by
      rw [hcell, Scalar.render, String.toList_ofList,
        Int64.toInt_ofInt_of_le (by omega) (by omega)]
      rfl
    refine ⟨fun _ => ⟨htext, ?_⟩, fun hid => absurd hbelow (Nat.not_lt.mpr hid),
      fun hid => absurd hbelow (Nat.not_lt.mpr hid)⟩
    rw [htext, Decimal.toNat?_ofNat]
  · have hcell : (Scalar.ofInteger id).render = Decimal.cellText (Float.ofInt id) := by
      rw [Scalar.ofInteger, Scalar.ofInt?, if_neg (by omega), Option.getD_none, Scalar.render]
    refine ⟨fun hid => absurd hid hbelow, fun _ => hcell, fun hid hexact => ?_⟩
    rw [hcell] at hexact
    exact hundred_dvd_of_cellText hid hexact

theorem forall₂_idShown {entries : List Json} {ids : List Nat}
    (h : List.Forall₂ HasId entries ids) :
    List.Forall₂ IdShown ids (entries.map entryText) := by
  rw [List.forall₂_map_right_iff]
  refine h.flip.imp fun id entry hid => ?_
  have hentry : HasId entry id := hid
  rw [HasId] at hentry
  rw [entryText, entryId, hentry]
  exact idShown_ofInteger id

/-- A numeral needs no quotes, so it is the whole line. -/
theorem writeRow_ofNat (id : Nat) :
    Csv.writeRow [Decimal.ofNat id] = Decimal.ofNat id ++ ['\n'] := by
  have hplain : Csv.needsQuotes (Decimal.ofNat id) = false := by
    rw [Csv.needsQuotes, List.any_eq_false]
    intro c hc
    have hdigit := List.all_eq_true.mp (Decimal.all_isDigit_ofNat id) c hc
    -- None of the characters that ask for quotes is a digit.
    have hne : ∀ d : Char, d.isDigit = false → c ≠ d := fun d hd => Json.ne_of_isDigit hdigit hd
    simp [hne]
  have hfield : Csv.writeFields [Decimal.ofNat id] = Decimal.ofNat id := by
    rw [Csv.writeFields, Csv.writeField, hplain, if_neg Bool.false_ne_true]
  unfold Csv.writeRow
  rw [hfield]
  split
  · next hnil => exact absurd hnil (Decimal.ofNat_ne_nil id)
  · rfl

theorem write_ids {ids : List Nat} {texts : List String} (h : List.Forall₂ IdShown ids texts)
    (hbelow : ∀ id ∈ ids, id < 2 ^ 63) :
    Csv.write (texts.map fun text => [text]) = ids.flatMap fun id => Decimal.ofNat id ++ ['\n'] := by
  induction h with
  | nil => rfl
  | cons hid _ ih =>
      rcases List.forall_mem_cons.mp hbelow with ⟨hfirst, hrest⟩
      -- Rows are written one behind the other, so the first can be split off.
      have hwrite := ih hrest
      rw [Csv.write] at hwrite
      rw [List.map_cons, Csv.write, List.flatMap_cons, List.flatMap_cons, hwrite, List.map_cons,
        List.map_nil, (hid.below hfirst).1, writeRow_ofNat]

section Ids

variable {σ : Type} (world : Surroundings σ) (files : σ) (client : Client) (now : Int)

/-- What the server says of one job comes back as the id it gives. -/
theorem run_exchange_idOf {method : Method} {resource body : String} {url : Url}
    {document : Json} {id : Nat} (hurl : client.resourceUrl resource .all now = .ok url)
    (hanswer : Client.interpret resource
      (world.answer ⟨method, url, body, client.timeoutSeconds⟩) = .ok document)
    (hid : document.member? "id" = some (.integer id)) :
    ∃ shown, (Session.run world (client.exchange method resource .all now body >>= fun document =>
        pure (Client.idOf document) : Attempt Scalar).run files).value = .ok shown ∧
      IdShown id shown.render := by
  refine ⟨Scalar.ofInteger id, ?_, idShown_ofInteger id⟩
  have hidOf : Client.idOf document = Scalar.ofInteger id := by
    rw [Client.idOf, hid]
    rfl
  rw [Attempt.run_bind_eq, Client.run_exchange hurl, hanswer, ← hidOf]
  rfl

/-- **Ids within the range of cells survive, and those above it do not.** The bare list
    of jobs with numbers as ids has them in order, each as it is shown. If they are all
    within the range, the file is their numerals, line by line. The id of a job that is
    queued or deleted is shown in the same way. -/
theorem ids_shown :
    (∀ (query : MetricQuery) (listing : Json) (ids : List Nat),
      List.Forall₂ HasId listing.items ids →
      ∃ (content : String) (lines : List String),
        (jobsReport ⟨query, false, false⟩ listing).outputs = [⟨jobsFile, content, .truncate⟩] ∧
        Csv.read content.toList = lines.map (fun line => [line]) ∧
        List.Forall₂ IdShown ids lines ∧
        ((∀ id ∈ ids, id < 2 ^ 63) →
          content.toList = ids.flatMap fun id => Decimal.ofNat id ++ ['\n'])) ∧
    (∀ (job : JobRequest) (url : Url) (document : Json) (id : Nat),
      client.resourceUrl Client.createResource .all now = .ok url →
      Client.interpret Client.createResource
        (world.answer ⟨.post, url, job.toJson.toText, client.timeoutSeconds⟩) = .ok document →
      document.member? "id" = some (.integer id) →
      ∃ shown, (Session.run world (client.createJob job now).run files).value = .ok shown ∧
        IdShown id shown.render) ∧
    (∀ (jobId : UInt64) (url : Url) (document : Json) (id : Nat),
      client.resourceUrl (Client.queueResource jobId) .all now = .ok url →
      Client.interpret (Client.queueResource jobId)
        (world.answer ⟨.delete, url, "", client.timeoutSeconds⟩) = .ok document →
      document.member? "id" = some (.integer id) →
      ∃ shown, (Session.run world (client.deleteJob jobId now).run files).value = .ok shown ∧
        IdShown id shown.render) := by
  refine ⟨fun query listing ids hids => ?_, fun job url document id hurl hanswer hid => ?_,
    fun jobId url document id hurl hanswer hid => ?_⟩
  · have htexts := forall₂_idShown hids
    rcases outputs_idList query false listing [] (meant_bare listing) with
      ⟨content, houtputs, hcontent, hread⟩
    exact ⟨content, listing.items.map entryText, houtputs, hread, htexts,
      fun hbelow => hcontent.trans (write_ids htexts hbelow)⟩
  · exact run_exchange_idOf world files client now hurl hanswer hid
  · exact run_exchange_idOf world files client now hurl hanswer hid

end Ids

/-- A listing with an id on either side of the limit, and a server that gives and
    confirms the id 12. -/
theorem ids_shown_twelve :
    let listing : Json := .array [.object [("job", .object [("id", .integer 12)])],
      .object [("job", .object [("id", .integer 9223372036854775809)])]]
    let reply : Json := .object [("id", .integer 12)]
    let world : Surroundings Unit := ⟨fun _ => .ok ⟨200, .ok (Utf8.encode reply.toText)⟩,
      fun _ _ files => (.ok (), files), fun _ _ => .error .notFound⟩
    let client := Client.new "http://localhost" "k" none
    List.Forall₂ HasId listing.items [12, 9223372036854775809] ∧
    (∃ (content : String) (lines : List String),
      (jobsReport ⟨⟨.all, none⟩, false, false⟩ listing).outputs =
        [⟨jobsFile, content, .truncate⟩] ∧
      Csv.read content.toList = lines.map (fun line => [line]) ∧
      List.Forall₂ IdShown [12, 9223372036854775809] lines) ∧
    (∃ shown, (Session.run world (client.createJob default 0).run ()).value = .ok shown ∧
      IdShown 12 shown.render) ∧
    ∃ shown, (Session.run world (client.deleteJob 12 0).run ()).value = .ok shown ∧
      IdShown 12 shown.render := by
  -- The URLs are bound first, so that they are not computed again below.
  have hurls : (∃ url, (Client.new "http://localhost" "k" none).resourceUrl
        Client.createResource .all 0 = .ok url) ∧
      ∃ url, (Client.new "http://localhost" "k" none).resourceUrl
        (Client.queueResource 12) .all 0 = .ok url := ⟨⟨_, rfl⟩, ⟨_, rfl⟩⟩
  rcases hurls with ⟨⟨createUrl, hcreate⟩, deleteUrl, hdelete⟩
  intro listing reply world client
  have hids : List.Forall₂ HasId listing.items [12, 9223372036854775809] :=
    .cons rfl (.cons rfl .nil)
  have hanswer : ∀ (resource : String) (request : Request),
      Client.interpret resource (world.answer request) = .ok reply := by
    have hexact : Json.Exact 1 reply := .object 0 _ (List.nodup_singleton "id") fun member h => by
      rw [List.mem_singleton.mp h]
      exact .integer 0 12 (by decide) (by decide)
    have hparse : Json.parse? reply.toText = some reply := Json.parse?_toText hexact (by decide)
    have hblank : Text.allBlank reply.toText = false := by
      simp only [reply, Text.allBlank, Json.toText, Json.write, String.toList_ofList,
        List.cons_append, List.all_cons]
      rfl
    intro resource request
    have hrange : 200 ≤ 200 ∧ 200 < 300 := by decide
    simp only [world, Client.interpret, if_pos hrange, Client.documentOf, Utf8.encode,
      Utf8.decodeLossy_flatMap, String.ofList_toList, hblank, hparse, Bool.false_eq_true, if_false]
  rcases ids_shown world () client 0 with ⟨hlist, hqueued, hdeleted⟩
  rcases hlist ⟨.all, none⟩ listing _ hids with ⟨content, lines, houtputs, hread, hlines, _⟩
  exact ⟨hids, ⟨content, lines, houtputs, hread, hlines⟩,
    hqueued default createUrl reply 12 hcreate (hanswer _ _) rfl,
    hdeleted 12 deleteUrl reply 12 hdelete (hanswer _ _) rfl⟩

/-- An id of 64 bits that is not in the list that is made of it. -/
theorem ids_not_exact :
    9223372036854775809 < 2 ^ 64 ∧
    ∃ content, (jobsReport ⟨⟨.all, none⟩, false, false⟩
        (.array [.object [("job", .object [("id", .integer 9223372036854775809)])]])).outputs =
        [⟨jobsFile, content, .truncate⟩] ∧
      Csv.read content.toList ≠ [["9223372036854775809"]] := by
  rcases outputs_idList ⟨.all, none⟩ false _ [] (meant_bare _) with
    ⟨content, houtputs, _, hread⟩
  refine ⟨by decide, content, houtputs, fun hexact => ?_⟩
  rw [hread] at hexact
  have htext : (Scalar.ofInteger (9223372036854775809 : Nat)).render = "9223372036854775809" :=
    List.head_eq_of_cons_eq (List.head_eq_of_cons_eq hexact)
  -- A text that is exact above the limit is that of a multiple of a hundred.
  have hdvd := (idShown_ofInteger 9223372036854775809).rounded (by decide)
    (by rw [htext]; decide)
  exact absurd hdvd (by decide)

end TestbedReport
