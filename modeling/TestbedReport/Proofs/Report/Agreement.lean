import TestbedReport.Proofs.Json.Members
import TestbedReport.Proofs.Json.Reading
import TestbedReport.Proofs.Report.Sheet

/-!
# What a Results Report Depends On

The names of three worlds meet in a results report: the labels of the server, the
short names of a row and the fields of a queue entry. All are texts, and some are
texts of two worlds at once, like `id` or `description`. A document may hold any of
them, and many more.

What a report takes from a document is nevertheless no more than what stands under
eighteen labels and seven fields. `writtenRow` is the row of an object in these
terms alone, and it is the row that is reported (`joinQueue_ofDocuments`). Rows are
all the report is made of, so two pairs of documents that agree on these keys cannot
be told apart by it, records and files alike. In which order the members stand, what
else there is, and what was written before under the same key makes no difference.

## Main definitions

* `Json.Document.AgreeOn`: Two documents hold the same under some keys.
* `writtenRow`: The row of an object as written.

## Theorems

* `Json.cell_eq`: A cell is what the document holds.
* `joinQueue_ofDocuments`: The rows of two documents.
* `resultsReport_eq_of_agreeOn`: Documents that agree have the same report.
-/

namespace TestbedReport

open Json (Document)

/-- Two documents hold the same under some keys. -/
def Json.Document.AgreeOn (keys : List String) (a b : Document) : Prop :=
  ∀ key ∈ keys, a.field key = b.field key

/-- The row of an object as written, joined with a queue entry as written. -/
def writtenRow (queue object : Document) : Record :=
  queueFields.foldl (fun r (column, field) => r.insert column (.ofJson (queue.field field)))
    (.ofList (scenarioLabels.map fun (name, label) => (name, .ofJson (object.field label))))

theorem Json.cell_eq {d : Document} {value : Json} (h : d.valueAnyDepth? = some value)
    (key : String) : value.cell key = .ofJson (d.field key) := by
  have hsettled := d.settled_of_valueAnyDepth? value h
  rw [Document.field_eq h]
  cases value with
  | object members =>
      -- A key stands once in a value, so the last one of it is the first.
      rw [cell, member?, hsettled.lookup_reverse]
      cases members.lookup key with
      | none => rfl
      | some member => rfl
  | _ => rfl

theorem reportRow_eq_writtenRow {q o : Document} {queue object : Json}
    (hqueue : q.valueAnyDepth? = some queue) (hobject : o.valueAnyDepth? = some object) :
    reportRow queue object = writtenRow q o := by
  simp only [reportRow, joinRow, scenarioRow, writtenRow, Record.getD_get?_ofObject,
    Json.cell_eq hqueue, Json.cell_eq hobject]

theorem forall₂_valuesOfItems? {items : List Document} {values : List Json}
    (h : Document.valuesOfItems? items = some values) :
    List.Forall₂ (fun d value => d.valueAnyDepth? = some value) items values := by
  induction items generalizing values with
  | nil =>
      rw [← Option.some.inj h]
      exact .nil
  | cons first rest ih =>
      rcases Document.exists_of_valuesOfItems? h with ⟨value, others, hvalue, hothers, rfl⟩
      exact .cons hvalue (ih hothers)

/-- The objects of a scenario are those that are written, in order. -/
theorem forall₂_scenarioObjects {d : Document} {value : Json}
    (h : d.valueAnyDepth? = some value) :
    List.Forall₂ (fun o object => o.valueAnyDepth? = some object) d.objects
      (scenarioObjects value) := by
  -- A value is an object where an object is written, so both sides drop the same items.
  have hkind : ∀ (o : Document) (object : Json), o.valueAnyDepth? = some object →
      (o.isObject = true ↔ object.isObject = true) := by
    intro o object hobject
    cases Document.valued_of_valueAnyDepth? hobject <;> exact Iff.rfl
  cases Document.valued_of_valueAnyDepth? h with
  | array items values hvalues =>
      exact List.rel_filter (fun o object => hkind o object) (forall₂_valuesOfItems? hvalues)
  | _ => exact .nil

theorem joinQueue_ofDocuments {s q : Document} {scenario queue : Json}
    (hscenario : s.value? = some scenario) (hqueue : q.value? = some queue) :
    joinQueue (scenarioRows scenario) (.ofObject queue) = s.objects.map (writtenRow q) := by
  have hrows := forall₂_scenarioObjects (Document.valueAnyDepth?_of_value? hscenario)
  rw [joinQueue_scenarioRows, eq_comm, ← List.forall₂_eq_eq_eq, List.forall₂_map_left_iff,
    List.forall₂_map_right_iff]
  exact hrows.imp fun _ _ hobject =>
    (reportRow_eq_writtenRow (Document.valueAnyDepth?_of_value? hqueue) hobject).symm

/-- The row of an object has nothing in it but eighteen labels and seven fields. -/
theorem writtenRow_eq_of_agreeOn {q₁ q₂ o₁ o₂ : Document}
    (hqueue : Document.AgreeOn (queueFields.map (·.2)) q₁ q₂)
    (hobject : Document.AgreeOn (scenarioLabels.map (·.2)) o₁ o₂) :
    writtenRow q₁ o₁ = writtenRow q₂ o₂ := by
  have hrow : scenarioLabels.map (fun (name, label) => (name, Scalar.ofJson (o₁.field label))) =
      scenarioLabels.map fun (name, label) => (name, Scalar.ofJson (o₂.field label)) :=
    List.map_congr_left fun (name, label) hentry => by
      simp only [hobject label (List.mem_map_of_mem hentry)]
  rw [writtenRow, writtenRow, hrow]
  refine List.foldl_ext _ _ _ fun r (column, field) hentry => ?_
  simp only [hqueue field (List.mem_map_of_mem hentry)]

/-- **A results report depends on the documented fields alone.** Scenarios whose
    objects agree one by one on the eighteen labels, and queue entries that agree on
    the seven fields, have the same records and the same files, whatever else the
    documents hold and in whatever order. -/
theorem resultsReport_eq_of_agreeOn {s₁ s₂ q₁ q₂ : Document}
    {scenario₁ scenario₂ queue₁ queue₂ : Json}
    (hs₁ : s₁.value? = some scenario₁) (hs₂ : s₂.value? = some scenario₂)
    (hq₁ : q₁.value? = some queue₁) (hq₂ : q₂.value? = some queue₂)
    (hscenario : List.Forall₂ (Document.AgreeOn (scenarioLabels.map (·.2))) s₁.objects s₂.objects)
    (hqueue : Document.AgreeOn (queueFields.map (·.2)) q₁ q₂) (options : ResultsOptions) :
    resultsReport options (.ofDocuments scenario₁ queue₁) =
      resultsReport options (.ofDocuments scenario₂ queue₂) := by
  have hrows : s₁.objects.map (writtenRow q₁) = s₂.objects.map (writtenRow q₂) := by
    -- Lists are equal if they go together by equality.
    rw [← List.forall₂_eq_eq_eq, List.forall₂_map_left_iff, List.forall₂_map_right_iff]
    exact hscenario.imp fun _ _ hobject => writtenRow_eq_of_agreeOn hqueue hobject
  have hjoined : joinQueue (scenarioRows scenario₁) ((Record.ofJson? queue₁).getD .empty) =
      joinQueue (scenarioRows scenario₂) ((Record.ofJson? queue₂).getD .empty) :=
    calc joinQueue (scenarioRows scenario₁) (.ofObject queue₁)
        = s₁.objects.map (writtenRow q₁) := joinQueue_ofDocuments hs₁ hq₁
      _ = s₂.objects.map (writtenRow q₂) := hrows
      _ = joinQueue (scenarioRows scenario₂) (.ofObject queue₂) :=
        (joinQueue_ofDocuments hs₂ hq₂).symm
  -- What is reduced and written is the joined rows and nothing else.
  have hcombined : combine (scenarioRows scenario₁) ((Record.ofJson? queue₁).getD .empty) =
      combine (scenarioRows scenario₂) ((Record.ofJson? queue₂).getD .empty) := by
    unfold combine
    rw [hjoined]
  simp only [resultsReport, ScenarioData.ofDocuments, hcombined]

/-- Members in another order, repeated, unknown or null, and an item that is no object
    change nothing. -/
theorem resultsReport_eq_of_agreeOn_reordered :
    let text : String → List Json.TextPiece := fun t => t.toList.map .char
    let s₁ : Document := .array [.object [(text "Source node(s)", .bool true),
      (text "Sent", .bool true), (text "Reliability [%]", .text (text "9"))]]
    let s₂ : Document := .array [.array [], .object [(text "Reliability [%]", .null),
      (text "dest", .text (text "1*2")), (text "GPIO pin", .null),
      (text "Reliability [%]", .text (text "9")), (text "Source node(s)", .bool true)]]
    let q₁ : Document := .object [(text "name", .text (text "a")),
      (text "name", .text (text "b")), (text "len", .bool true)]
    let q₂ : Document := .object [(text "id", .null), (text "name", .text (text "b"))]
    ∃ scenario₁ scenario₂ queue₁ queue₂,
      s₁.value? = some scenario₁ ∧ s₂.value? = some scenario₂ ∧
      q₁.value? = some queue₁ ∧ q₂.value? = some queue₂ ∧
      List.Forall₂ (Document.AgreeOn (scenarioLabels.map (·.2))) s₁.objects s₂.objects ∧
      Document.AgreeOn (queueFields.map (·.2)) q₁ q₂ ∧
      resultsReport ⟨7, .all, false, true⟩ (.ofDocuments scenario₁ queue₁) =
        resultsReport ⟨7, .all, false, true⟩ (.ofDocuments scenario₂ queue₂) ∧
      (resultsReport ⟨7, .all, false, true⟩ (.ofDocuments scenario₂ queue₂)).outputs = [
        ⟨"dcube_results_plotting.csv", "id,name,layout,jamming,len,reliability,sent,received," ++
          "correct,missed,superfluous,causality,lat_combined,lat_mean,lat_median,lat_90,lat_95," ++
          "lat_99,energy_total,energy_setup,description\n,b,,,,9,,,,,,,,,,,,,,,\n", .truncate⟩,
        ⟨"dcube_results_readable.csv",
          "id,name,reliability,latency,energy,jamming,layout,len,description\n" ++
          ",b,9,,,,,,\n", .truncate⟩] := by
  intro text s₁ s₂ q₁ q₂
  have htext : ∀ t : String, Json.stringOf? (text t) = some t := Json.stringOf?_map_char
  let written₁ : Json := .array [.object [("Source node(s)", .bool true), ("Sent", .bool true),
    ("Reliability [%]", .text "9")]]
  let written₂ : Json := .array [.array [], .object [("Reliability [%]", .text "9"),
    ("dest", .text "1*2"), ("GPIO pin", .null), ("Source node(s)", .bool true)]]
  let queued₁ : Json := .object [("name", .text "b"), ("len", .bool true)]
  let queued₂ : Json := .object [("id", .null), ("name", .text "b")]
  have hvalued : (s₁.value? = some written₁ ∧ s₂.value? = some written₂) ∧
      q₁.value? = some queued₁ ∧ q₂.value? = some queued₂ := ⟨⟨rfl, rfl⟩, rfl, rfl⟩
  have hobjects : List.Forall₂ (Document.AgreeOn (scenarioLabels.map (·.2))) s₁.objects
      s₂.objects := by
    refine .cons ?_ .nil
    simp [Document.AgreeOn, scenarioLabels, Document.field, Document.valueAnyDepth?,
      Document.valuesOfMembers?, htext, List.lookup_cons]
  have hfields : Document.AgreeOn (queueFields.map (·.2)) q₁ q₂ := by
    simp [q₁, q₂, Document.AgreeOn, queueFields, Document.field, Document.valueAnyDepth?,
      Document.valuesOfMembers?, htext, List.lookup_cons]
  rcases hvalued with ⟨⟨hs₁, hs₂⟩, hq₁, hq₂⟩
  -- The files are the same by the theorem, and their text is computed once.
  refine ⟨written₁, written₂, queued₁, queued₂, hs₁, hs₂, hq₁, hq₂, hobjects, hfields,
    resultsReport_eq_of_agreeOn hs₁ hs₂ hq₁ hq₂ hobjects hfields _, ?_⟩
  decide +kernel

end TestbedReport
