import TestbedReport.Proofs.Json.Members
import TestbedReport.Proofs.Json.Reading
import TestbedReport.Proofs.Report.JobList

/-!
# The Ids in the Three Job Lists

A listing is written in three ways, and the ids of its jobs are in all of them: bare,
in pairs with the word `id`, and as one column of the full list. The ways differ in
what they take for an entry. The first two have a row for everything in the array,
and an entry without an id has an empty one, which is still a row. The full list has
records of job objects only.

The two id lists are grids over the same texts (`meant_bare`, `meant_pairs`), so they
are found with the same ids in the same order. Between an entry and its record stands
the way in which a job is looked into. The one takes the first member of a name and
the other the last, which is the same where no name is repeated (`Json.Settled`), and
the one takes a flag as it is where the other makes a number of it. The second
difference shows, but on nothing but an id that is `false` (`sameId_jobRecord`).

## Main definitions

* `entryText`: The text of an entry among the ids.
* `hasJobObject`: Whether an entry has a job object.
* `SameId`: The text of an entry is the id in the record of its job.

## Theorems

* `meant_bare`, `meant_pairs`: What the two id lists show.
* `sameId_jobRecord`: An entry and the record of its job.
* `idLists_agree`: The three lists have the same ids.
-/

namespace TestbedReport

open Json (Settled)

/-- The text of an entry among the ids. -/
def entryText (entry : Json) : String :=
  (entryId entry).render

/-- Whether an entry has a job object. -/
def hasJobObject (entry : Json) : Bool :=
  match entry.member? "job" with
  | some (.object _) => true
  | _ => false

/-- The text of an entry is the id in the record of its job, and empty where there is
    none. An id that is `false` has no text, but a zero in the record. -/
def SameId (entry : Json) (text : String) (record : Record) : Prop :=
  match (entry.member? "job").bind (·.member? "id") with
  | none => text = "" ∧ record.get? "id" = none
  | some (.bool false) => text = "" ∧ record.fieldUnder "id" = "0"
  | some _ => text = record.fieldUnder "id" ∧ (record.get? "id").isSome = true

theorem meant_bare (listing : Json) :
    (idTable false (jobIds listing)).meant false none =
      listing.items.map fun entry => [entryText entry] := by
  have hrow : ∀ entry : Json,
      (Record.ofList [("id", entryId entry)]).fieldUnder "id" = entryText entry := fun _ => rfl
  rw [idTable, if_neg Bool.false_ne_true, jobIds]
  cases listing.items with
  | nil => rfl
  | cons first rest =>
      -- The column is that of the first record, and they all have the same one.
      rw [List.map_cons, TableData.meant, TableData.titled, if_neg Bool.false_ne_true,
        ← List.map_cons (f := fun entry => Record.ofList [("id", entryId entry)]), List.map_map]
      exact List.map_congr_left fun entry _ => congrArg ([·]) (hrow entry)

theorem meant_pairs (listing : Json) :
    (idTable true (jobIds listing)).meant false none =
      listing.items.map fun entry => ["id", entryText entry] := by
  have hid : ∀ entry : Json,
      (Record.ofList [("id", entryId entry)]).get? "id" = some (entryId entry) := fun _ => rfl
  -- No record is without an id, so no pair is left out.
  have hvalues : (jobIds listing).filterMap (·.get? "id") = listing.items.map entryId := by
    rw [jobIds, List.filterMap_map]
    simp only [Function.comp_def, hid]
    exact congrFun List.filterMap_eq_map listing.items
  rw [idTable, if_pos rfl, hvalues, TableData.meant, TableData.titled,
    if_neg Bool.false_ne_true, List.map_map]
  rfl

/-- The file of an id list is the texts of the entries in writing, and they are found
    in it, because no row is without a field. -/
theorem outputs_idList (query : MetricQuery) (idList : Bool) (listing : Json)
    (first : List String)
    (hmeant : (idTable idList (jobIds listing)).meant false none =
      listing.items.map fun entry => first ++ [entryText entry]) :
    ∃ content, (jobsReport ⟨query, false, idList⟩ listing).outputs =
        [⟨jobsFile, content, .truncate⟩] ∧
      content.toList =
        Csv.write ((listing.items.map entryText).map fun text => first ++ [text]) ∧
      Csv.read content.toList = (listing.items.map entryText).map fun text => first ++ [text] := by
  have hcontent : ((idTable idList (jobIds listing)).toCsv false none).toList =
      Csv.write ((listing.items.map entryText).map fun text => first ++ [text]) := by
    rw [TableData.toCsv_eq_write_meant, String.toList_ofList, hmeant, List.map_map]
    rfl
  refine ⟨_, rfl, hcontent, ?_⟩
  rw [hcontent, Csv.read_write]
  -- Every row has the text of its entry as a field.
  refine Csv.map_foundRow_eq_self _ fun row hrow => ?_
  rcases List.mem_map.mp hrow with ⟨text, _, rfl⟩
  exact List.append_ne_nil_of_right_ne_nil first (List.cons_ne_nil _ [])

/-- An entry with a job object has the id that is in the record of its job. -/
theorem sameId_jobRecord {entry : Json} {members : List (String × Json)}
    (hsettled : Settled (.object members)) (hjob : entry.member? "job" = some (.object members)) :
    SameId entry (entryText entry) (jobRecord members) := by
  have hid : (entry.member? "job").bind (·.member? "id") = members.lookup "id" := by
    rw [hjob]
    rfl
  -- The record has the last member of the name, the entry is given the first.
  have hrecord : (jobRecord members).get? "id" = (members.lookup "id").map jobField := by
    rw [get?_jobRecord members "id" (by decide), jobMember?, hsettled.lookup_reverse,
      if_neg (by decide), Option.or_none]
  unfold SameId entryText entryId
  rw [hid, Record.fieldUnder, hrecord]
  cases members.lookup "id" with
  | none => exact ⟨rfl, rfl⟩
  | some value =>
      rw [Option.map_some]
      simp only [render_jobField]
      -- The two texts of a value differ for the flag that is not set.
      cases value with
      | bool flag =>
          cases flag with
          | false => exact ⟨rfl, rfl⟩
          | true => exact ⟨rfl, rfl⟩
      | _ => exact ⟨rfl, rfl⟩

/-- The entries with a job object and the records go together, in order. -/
theorem forall₂_sameId (entries : List Json) (hsettled : ∀ entry ∈ entries, Settled entry) :
    List.Forall₂ (fun shown record => SameId shown.1 shown.2 record)
      ((entries.zip (entries.map entryText)).filter fun shown => hasJobObject shown.1)
      (entries.filterMap entryRecord?) := by
  induction entries with
  | nil => exact .nil
  | cons entry rest ih =>
      rcases List.forall_mem_cons.mp hsettled with ⟨hentry, hrest⟩
      rw [List.map_cons, List.zip_cons_cons]
      -- A record is made of exactly the entries that count here.
      by_cases hjob : ∃ members, entry.member? "job" = some (.object members)
      · rcases hjob with ⟨members, hjob⟩
        have hcounts : hasJobObject entry = true := by rw [hasJobObject, hjob]
        have hrecord : entryRecord? entry = some (jobRecord members) := by
          rw [entryRecord?, hjob]
        rw [List.filter_cons, if_pos hcounts, List.filterMap_cons_some hrecord]
        exact .cons (sameId_jobRecord (hentry.of_member? hjob) hjob) (ih hrest)
      · have hcounts : ¬hasJobObject entry = true := by
          unfold hasJobObject
          split
          · next members hmember => exact absurd ⟨members, hmember⟩ hjob
          · exact Bool.false_ne_true
        have hrecord : entryRecord? entry = none := by
          unfold entryRecord?
          split
          · next members hmember => exact absurd ⟨members, hmember⟩ hjob
          · rfl
        rw [List.filter_cons, if_neg hcounts, List.filterMap_cons_none hrecord]
        exact ih hrest

/-- **The three job lists have the same ids.** In the list of pairs is found what is
    found in the bare list, each behind the word `id`, with a row for every entry. For
    the entries with a job object it is what the column `id` of the full list shows. The
    listing may be any that was read, since none of them repeats a key
    (`Json.settled_of_parse?`). -/
theorem idLists_agree {listing : Json} (h : Settled listing) (query : MetricQuery) :
    ∃ (texts : List String) (bare pairs : String),
      texts.length = listing.items.length ∧
      (jobsReport ⟨query, false, false⟩ listing).outputs = [⟨jobsFile, bare, .truncate⟩] ∧
      (jobsReport ⟨query, false, true⟩ listing).outputs = [⟨jobsFile, pairs, .truncate⟩] ∧
      Csv.read bare.toList = texts.map (fun text => [text]) ∧
      Csv.read pairs.toList = texts.map (fun text => ["id", text]) ∧
      ∀ idList, List.Forall₂ (fun shown record => SameId shown.1 shown.2 record)
        ((listing.items.zip texts).filter fun shown => hasJobObject shown.1)
        (jobsReport ⟨query, true, idList⟩ listing).records := by
  rcases outputs_idList query false listing [] (meant_bare listing) with
    ⟨bare, hbare, _, hreadBare⟩
  rcases outputs_idList query true listing ["id"] (meant_pairs listing) with
    ⟨pairs, hpairs, _, hreadPairs⟩
  exact ⟨listing.items.map entryText, bare, pairs, List.length_map _, hbare, hpairs, hreadBare,
    hreadPairs, fun _ => forall₂_sameId listing.items fun _ => h.of_mem_items⟩

/-- A job without an id, one whose id is a flag, a job that is a text, and an item that
    is no object. -/
theorem idLists_agree_odd :
    let listing : Json := .array [.object [("job", .object [("name", .text "a,b")])],
      .object [("job", .object [("id", .bool false)])],
      .object [("job", .text "id")], .null]
    let query : MetricQuery := ⟨.all, none⟩
    Json.parse? listing.toText = some listing ∧
      ∃ (texts : List String) (bare pairs : String),
        texts.length = 4 ∧
        (jobsReport ⟨query, false, false⟩ listing).outputs = [⟨jobsFile, bare, .truncate⟩] ∧
        (jobsReport ⟨query, false, true⟩ listing).outputs = [⟨jobsFile, pairs, .truncate⟩] ∧
        Csv.read bare.toList = texts.map (fun text => [text]) ∧
        Csv.read pairs.toList = texts.map (fun text => ["id", text]) ∧
        ∀ idList, List.Forall₂ (fun shown record => SameId shown.1 shown.2 record)
          ((listing.items.zip texts).filter fun shown => hasJobObject shown.1)
          (jobsReport ⟨query, true, idList⟩ listing).records := by
  intro listing query
  -- The listing is one that the program can be sent, since it is read from its text.
  have hexact : Json.Exact 3 listing := by decide
  have hparse : Json.parse? listing.toText = some listing :=
    Json.parse?_toText hexact (by decide)
  exact ⟨hparse, idLists_agree (Json.settled_of_parse? hparse) query⟩

end TestbedReport
