import TestbedReport.Proofs.Csv.RoundTrip
import TestbedReport.Proofs.Record.Lookup
import TestbedReport.Report.Jobs

/-!
# What the Full Job List Shows

The full list has a row for every job object and one header above them. The
header is taken from the first job, and no later job is asked whether it fits
under it. Filling in the periodicity is the only thing that is done to make the
jobs alike.

So a member of a job is shown if and only if the first job has a member of the
same name, or the name is the one that is filled in (`shown_iff`). A list of jobs
keeps all its members exactly if the first job names them all
(`keepsMembers_iff`), and it takes no more than two jobs to lose one.

## Main definitions

* `jobMembers?`: The members of the job of an entry.
* `jobObjects`: The jobs of a listing by their members.
* `jobsSheet`: What a reader finds in the full list.
* `Shown`: A member is found in the row of its job, below its name.
* `KeepsMembers`: Every member of every job is shown.
* `HasColumn`: The record of a job has a column of a name.

## Theorems

* `get?_jobRecord`: What the record of a job has under a column.
* `jobsSheet_eq`: The cells of the full list.
* `shown_iff`: Which members are shown.
* `keepsMembers_iff`: Which listings keep all their members.
* `not_keepsMembers_lateName`: A listing that does not.
-/

namespace TestbedReport

/-- The members of the job of an entry, if the entry is an object and its job is
    one. -/
def jobMembers? : Json → Option (List (String × Json))
  | .object entry =>
    match entry.lookup "job" with
    | some (.object members) => some members
    | _ => none
  | _ => none

/-- The jobs of a listing by their members, in order. Entries without a job
    object are skipped, and what is no array has no entries. -/
def jobObjects : Json → List (List (String × Json))
  | .array entries => entries.filterMap jobMembers?
  | _ => []

/-- The value of a job under a key. Of repeated keys the last counts. -/
def jobMember? (members : List (String × Json)) (key : String) : Option Json :=
  members.reverse.lookup key

/-- The text a member is to be shown with: that of its value, and a zero for a
    plain `false`. -/
def memberText : Json → String
  | .bool false => "0"
  | value => (Scalar.ofJson value).render

/-- What a reader finds in the list of a report. -/
def jobsSheet (options : JobsOptions) (listing : Json) : List (List String) :=
  match (jobsReport options listing).outputs.find? fun o => o.file = jobsFile with
  | some output => Csv.read output.content.toList
  | none => []

/-- A member of the job at a position is shown: below its name, in the row of the
    job, is its text. -/
def Shown (sheet : List (List String)) (i : Nat) (key : String) (value : Json) : Prop :=
  ∃ j : Nat, (sheet[0]?.bind fun header => header[j]?) = some key ∧
    (sheet[i + 1]?.bind fun row => row[j]?) = some (memberText value)

/-- Every member of every job is shown, but for the nested result. -/
def KeepsMembers (listing : Json) (sheet : List (List String)) : Prop :=
  ∀ (i : Nat) (members : List (String × Json)), (jobObjects listing)[i]? = some members →
    ∀ (key : String) (value : Json), key ≠ "result" → jobMember? members key = some value →
      Shown sheet i key value

/-- The names that the record of a job has columns for: those of its members, and
    the periodicity. -/
def HasColumn (members : List (String × Json)) (key : String) : Prop :=
  key = "periodicity" ∨ key ∈ members.map (·.1)

/-- The text of a field is the text its member is to be shown with. -/
theorem render_jobField (value : Json) : (jobField value).render = memberText value := by
  cases value with
  | bool flag =>
      cases flag with
      | false => decide
      | true => rfl
  | _ => rfl

/-- What the record of a job has under a column: the field of its member, or the
    periodicity that is filled in. The nested result has no column. -/
theorem get?_jobRecord (members : List (String × Json)) (key : String) (hkey : key ≠ "result") :
    (jobRecord members).get? key =
      ((jobMember? members key).map jobField).or
        (if key = "periodicity" then some (.int 0) else none) := by
  -- The record before the periodicity is filled in.
  let kept := Record.ofList ((members.filter fun member => member.1 ≠ "result").map
    fun member => (member.1, jobField member.2))
  have hkept : ∀ column : String, column ≠ "result" →
      kept.get? column = (jobMember? members column).map jobField := by
    intro column hcolumn
    rw [Record.get?_ofList, ← List.map_reverse, Keyed.lookup_map, ← List.filter_reverse,
      Keyed.lookup_filter_ne, jobMember?, if_neg hcolumn]
  have hrecord : jobRecord members =
      if kept.contains "periodicity" then kept else kept.insert "periodicity" (.int 0) := rfl
  have hcontains : kept.contains "periodicity" = (kept.get? "periodicity").isSome := by
    rw [Bool.eq_iff_iff, ← Record.mem_columns_iff, Record.contains, List.contains_iff_mem]
  rw [hrecord, hcontains, ← hkept key hkey]
  by_cases hsome : (kept.get? "periodicity").isSome = true
  · rw [if_pos hsome]
    by_cases hname : key = "periodicity"
    · rw [hname, Option.or_of_isSome hsome]
    · rw [if_neg hname, Option.or_none]
  · rw [if_neg hsome, Record.get?_insert]
    by_cases hname : key = "periodicity"
    · rw [if_pos hname, hname, Option.not_isSome_iff_eq_none.mp hsome, Option.none_or, if_pos rfl]
    · rw [if_neg hname, if_neg hname, Option.or_none]

/-- A job has a value under the keys of its members. -/
theorem isSome_jobMember? (members : List (String × Json)) (key : String) :
    (jobMember? members key).isSome = true ↔ key ∈ members.map (·.1) := by
  rw [jobMember?, Keyed.isSome_lookup_iff, List.map_reverse, List.mem_reverse]

/-- The columns of the record of a job are the names of its members, and the
    periodicity. -/
theorem mem_columns_jobRecord (members : List (String × Json)) (key : String)
    (hkey : key ≠ "result") : key ∈ (jobRecord members).columns ↔ HasColumn members key := by
  rw [Record.mem_columns_iff, get?_jobRecord members key hkey, Option.isSome_or, Bool.or_eq_true,
    Option.isSome_map, isSome_jobMember?, HasColumn, or_comm]
  -- The periodicity is a column in any case.
  by_cases hname : key = "periodicity"
  · rw [if_pos hname]
    exact ⟨fun _ => Or.inl hname, fun _ => Or.inl rfl⟩
  · rw [if_neg hname]
    exact ⟨Or.imp_left fun hfalse => absurd hfalse Bool.false_ne_true,
      Or.imp_left fun hc => absurd hc hname⟩

/-- The field of a job below the name of one of its members is the text of the
    member. -/
theorem fieldUnder_jobRecord (members : List (String × Json)) (key : String) (value : Json)
    (hkey : key ≠ "result") (hvalue : jobMember? members key = some value) :
    (jobRecord members).fieldUnder key = memberText value := by
  rw [Record.fieldUnder, get?_jobRecord members key hkey, hvalue, Option.map_some, Option.some_or]
  exact render_jobField value

/-- The record of an entry is that of its job. -/
theorem entryRecord?_eq (entry : Json) : entryRecord? entry = (jobMembers? entry).map jobRecord := by
  unfold entryRecord?
  cases entry with
  | object members =>
      rw [Json.member?, jobMembers?]
      cases members.lookup "job" with
      | none => rfl
      | some job =>
          -- Only a job that is an object has members, and then the two agree.
          cases job with
          | _ => rfl
  | _ => rfl

/-- The records of a listing are those of its job objects. -/
theorem jobRecords_eq (listing : Json) :
    jobRecords listing = (jobObjects listing).map jobRecord := by
  cases listing with
  | array entries =>
      rw [jobRecords, Json.items, jobObjects, List.map_filterMap]
      exact List.filterMap_congr fun entry _ => entryRecord?_eq entry
  | _ => rfl

/-- The cells of the full list: the columns of the first job, and below them the
    fields that each job has under these. -/
theorem jobsSheet_eq (query : MetricQuery) (idList : Bool) (listing : Json)
    (first : List (String × Json)) (rest : List (List (String × Json)))
    (h : jobObjects listing = first :: rest) :
    jobsSheet ⟨query, true, idList⟩ listing =
      (jobRecord first).columns :: (jobObjects listing).map fun members =>
        (jobRecord first).columns.map (jobRecord members).fieldUnder := by
  have hsheet : jobsSheet ⟨query, true, idList⟩ listing =
      Csv.read ((TableData.rows (jobRecords listing)).toCsv true none).toList := rfl
  have hmeant : (TableData.rows (jobRecords listing)).meant true none =
      (jobRecord first).columns :: (jobObjects listing).map fun members =>
        (jobRecord first).columns.map (jobRecord members).fieldUnder := by
    rw [jobRecords_eq, h, List.map_cons, TableData.meant, TableData.titled, if_pos rfl,
      ← List.map_cons (f := jobRecord), List.map_map]
    rfl
  have hperiodicity : "periodicity" ∈ (jobRecord first).columns :=
    (mem_columns_jobRecord first "periodicity" (by decide)).mpr (Or.inl rfl)
  have hcolumns : (jobRecord first).columns ≠ [] := List.ne_nil_of_mem hperiodicity
  rw [hsheet, TableData.toCsv_eq_write_meant, String.toList_ofList, Csv.read_write, hmeant]
  -- No row is without fields, because the header at least names the periodicity.
  refine Csv.map_foundRow_eq_self _ fun row hrow => ?_
  rcases List.mem_cons.mp hrow with rfl | hjob
  · exact hcolumns
  · rcases List.mem_map.mp hjob with ⟨members, _, rfl⟩
    exact fun hnil => hcolumns (List.map_eq_nil_iff.mp hnil)

/-- A member is shown if and only if the first job has a column for it. What the
    other jobs have makes no difference. -/
theorem shown_iff (query : MetricQuery) (idList : Bool) (listing : Json)
    (first : List (String × Json)) (rest : List (List (String × Json)))
    (h : jobObjects listing = first :: rest) (i : Nat) (members : List (String × Json))
    (hi : (jobObjects listing)[i]? = some members) (key : String) (value : Json)
    (hkey : key ≠ "result") (hvalue : jobMember? members key = some value) :
    Shown (jobsSheet ⟨query, true, idList⟩ listing) i key value ↔ HasColumn first key := by
  rw [← mem_columns_jobRecord first key hkey, jobsSheet_eq query idList listing first rest h, Shown]
  simp only [List.getElem?_cons_zero, List.getElem?_cons_succ, List.getElem?_map, hi,
    Option.map_some, Option.bind_some]
  constructor
  · -- The name alone decides: where there is a column there is a field.
    rintro ⟨j, hname, _⟩
    exact List.mem_of_getElem? hname
  · intro hmem
    rcases List.getElem?_of_mem hmem with ⟨j, hname⟩
    refine ⟨j, hname, ?_⟩
    rw [hname, Option.map_some, fieldUnder_jobRecord members key value hkey hvalue]

/-- A full list keeps all members of its jobs exactly if the first job has a
    column for each of them. -/
theorem keepsMembers_iff (query : MetricQuery) (idList : Bool) (listing : Json) :
    KeepsMembers listing (jobsSheet ⟨query, true, idList⟩ listing) ↔
      ∀ first ∈ (jobObjects listing).head?, ∀ members ∈ jobObjects listing,
        ∀ key ∈ members.map (·.1), key ≠ "result" → HasColumn first key := by
  cases hobjects : jobObjects listing with
  | nil =>
      -- Without jobs there is nothing to lose.
      constructor
      · intro _ first hfirst
        exact absurd hfirst (by simp only [List.head?_nil, Option.mem_def, reduceCtorEq,
          not_false_eq_true])
      · intro _ i members hi
        rw [hobjects, List.getElem?_nil] at hi
        exact absurd hi (by simp only [reduceCtorEq, not_false_eq_true])
  | cons first rest =>
      have hshown := shown_iff query idList listing first rest hobjects
      rw [← hobjects]
      constructor
      · intro hkeeps other hother members hmembers key hmem hkey
        have hfirst : other = first := by
          rw [hobjects] at hother
          exact (Option.mem_some.mp hother).symm
        rcases List.getElem?_of_mem hmembers with ⟨i, hi⟩
        rcases Option.isSome_iff_exists.mp ((isSome_jobMember? members key).mpr hmem) with
          ⟨value, hvalue⟩
        rw [hfirst]
        exact (hshown i members hi key value hkey hvalue).mp
          (hkeeps i members hi key value hkey hvalue)
      · intro hall i members hi key value hkey hvalue
        have hfirst : first ∈ (jobObjects listing).head? := by
          rw [hobjects]
          exact Option.mem_some_self first
        have hmem : key ∈ members.map (·.1) :=
          (isSome_jobMember? members key).mp (by rw [hvalue]; rfl)
        exact (hshown i members hi key value hkey hvalue).mpr
          (hall first hfirst members (List.mem_of_getElem? hi) key hmem hkey)

/-- Two jobs of which only the second has a name. -/
def lateName : Json :=
  .array [.object [("job", .object [("id", .integer 1), ("periodicity", .integer 0)])],
    .object [("job", .object [("id", .integer 2), ("periodicity", .integer 0),
      ("name", .text "x")])]]

/-- It takes two jobs to lose a member: the name of the second is nowhere in the
    list. -/
theorem not_keepsMembers_lateName :
    ¬KeepsMembers lateName (jobsSheet ⟨⟨⟨none, none⟩, none⟩, true, false⟩ lateName) := by
  intro hkeeps
  have hshown := hkeeps 1 _ rfl "name" (.text "x") (by decide) rfl
  rcases hshown with ⟨j, hname, _⟩
  have hmem : "name" ∈ ["id", "periodicity"] := List.mem_of_getElem? hname
  exact absurd hmem (by decide)

end TestbedReport
