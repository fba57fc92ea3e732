import TestbedReport.Proofs.Report.Sheet

/-!
# Rows Joined a Second Time

A row that was joined with a queue entry can be joined with another one, as when the
records of a report are taken up again. Nothing of the first join is left then. It
set the same seven columns, and the second sets each of them again, in the place
where it stands. So rows joined twice are rows joined with the second entry
(`joinRow_joinRow`), whether or not they had some of the columns to begin with.

The reduction to one row adds its part. It goes by the number of rows and by the
destinations of the last one, and the join leaves both alone (`isAggregate_joinQueue`).
Rows that were reduced to one are one row, which stays alone for that reason, and rows
that were not are not reduced by being joined again.

## Theorems

* `columns_joinRow`: The columns of a joined row.
* `joinRow_joinRow`: A second join leaves nothing of the first.
* `isAggregate_joinQueue`: The join leaves open what is reduced.
* `combine_eq`: What joined rows are reduced to.
* `combine_again`: Combining a second time is combining with the second entry.
-/

namespace TestbedReport

/-- A joined row has its own columns, and behind them those of the queue entry that it
    did not have. -/
theorem columns_joinRow (queue row : Record) :
    (joinRow queue row).columns =
      row.columns ++ (queueFields.map (·.1)).filter (· ∉ row.columns) := by
  have hnames : (queueFields.map fun entry =>
      (entry.1, (queue.get? entry.2).getD .empty)).map (·.1) = queueFields.map (·.1) := by
    rw [List.map_map]
    rfl
  rw [joinRow_eq_foldl, Record.columns_foldl_insert _ _ (hnames ▸ queueFields_nodup), hnames]

/-- A joined row has all columns of the queue entry. -/
theorem mem_columns_joinRow (queue row : Record) {column : String}
    (h : column ∈ queueFields.map (·.1)) : column ∈ (joinRow queue row).columns := by
  rw [columns_joinRow, List.mem_append]
  by_cases hrow : column ∈ row.columns
  · exact Or.inl hrow
  · exact Or.inr (List.mem_filter.mpr ⟨h, decide_eq_true hrow⟩)

/-- A second join sets all that the first one set, where the first one left it. -/
theorem joinRow_joinRow (first second row : Record) :
    joinRow second (joinRow first row) = joinRow second row := by
  refine Record.eq_of_get? ?_ fun column => ?_
  · have hnew : (queueFields.map (·.1)).filter (· ∉ (joinRow first row).columns) = [] := by
      refine List.filter_eq_nil_iff.mpr fun column hcolumn habsent => ?_
      exact of_decide_eq_true habsent (mem_columns_joinRow first row hcolumn)
    rw [columns_joinRow second (joinRow first row), hnew, List.append_nil, columns_joinRow,
      columns_joinRow]
  · rw [get?_joinRow, get?_joinRow, get?_joinRow]
    -- A column is set by both joins or by none.
    cases queueFields.lookup column with
    | none => rfl
    | some field => rfl

/-- The join leaves the number of rows and the destinations of the last one alone. -/
theorem isAggregate_joinQueue (scenario : List Record) (queue : Record) :
    isAggregate (joinQueue scenario queue) = isAggregate scenario := by
  have hdest : ∀ row : Record, (joinRow queue row).get? "dest" = row.get? "dest" := by
    intro row
    have hqueue : queueFields.lookup "dest" = none := by decide
    rw [get?_joinRow, hqueue, Option.map_none, Option.none_or]
  -- The last row is looked at for its destinations, which no queue field is named for.
  unfold isAggregate
  rw [joinQueue, List.getLast?_map, List.length_map]
  cases scenario.getLast? with
  | none => rfl
  | some last => simp only [Option.map_some, hdest]

/-- Rows are reduced to the last one if it is the only one or sums up the others. -/
theorem combine_eq {scenario : List Record} {last : Record}
    (hlast : scenario.getLast? = some last) (queue : Record) :
    combine scenario queue =
      if scenario.length = 1 ∨ isAggregate scenario = true then .single (joinRow queue last)
      else .set (joinQueue scenario queue) := by
  have hjoined : (joinQueue scenario queue).getLast? = some (joinRow queue last) := by
    rw [joinQueue, List.getLast?_map, hlast, Option.map_some]
  unfold combine
  simp only [hjoined, isAggregate_joinQueue]
  -- One row is told from several by the list alone, as the program does it.
  rcases scenario with _ | ⟨row, _ | ⟨second, rest⟩⟩
  · exact absurd hlast.symm (Option.some_ne_none last)
  · have hrow : row = last := Option.some.inj hlast
    rw [if_pos (Or.inl List.length_singleton), hrow]
    rfl
  · have hlength : (row :: second :: rest).length ≠ 1 := by
      rw [List.length_cons, List.length_cons]
      omega
    simp only [hlength, false_or]
    rfl

/-- **Combining again leaves nothing of the first time but its reduction.** The join
    never decides whether rows are reduced. The records of a combination, combined with
    another entry, are the rows combined with that entry at once: single or a set alike,
    the same rows in the same order with the same columns and values. With the same entry
    they are what they were. -/
theorem combine_again (scenario : List Record) (first second : Record) :
    isAggregate (joinQueue scenario first) = isAggregate scenario ∧
      combine (combine scenario first).records second = combine scenario second := by
  refine ⟨isAggregate_joinQueue scenario first, ?_⟩
  cases hlast : scenario.getLast? with
  | none =>
      rw [List.getLast?_eq_none_iff] at hlast
      rw [hlast]
      rfl
  | some last =>
      rw [combine_eq hlast first, combine_eq hlast second]
      by_cases hreduced : scenario.length = 1 ∨ isAggregate scenario = true
      · -- What was reduced is a single row from then on.
        have hsingle : [joinRow first last].getLast? = some (joinRow first last) := rfl
        rw [if_pos hreduced, if_pos hreduced, Combined.records, combine_eq hsingle,
          if_pos (Or.inl List.length_singleton), joinRow_joinRow]
      · have hjoined : (joinQueue scenario first).getLast? = some (joinRow first last) := by
          rw [joinQueue, List.getLast?_map, hlast, Option.map_some]
        have hlength : (joinQueue scenario first).length = scenario.length := List.length_map _
        have hrows : joinQueue (joinQueue scenario first) second = joinQueue scenario second := by
          rw [joinQueue, joinQueue, List.map_map]
          refine List.map_congr_left fun row _ => ?_
          rw [Function.comp_apply, joinRow_joinRow]
        rw [if_neg hreduced, if_neg hreduced, Combined.records, combine_eq hjoined, hlength,
          isAggregate_joinQueue, if_neg hreduced, hrows]

/-- Two rows, of which one has an id already, are joined with the entries of two jobs,
    and stay two rows. With all destinations in the last one they become one. -/
theorem combine_again_two_jobs :
    let rows : List Record :=
      [.ofList [("src", .int 200)], .ofList [("id", .int 1), ("dest", .text "209")]]
    let summed : List Record := rows ++ [.ofList [("dest", .text "209*210")]]
    let shown : Combined → List (List (String × String)) := fun combined =>
      combined.records.map fun row => row.fields.map fun (column, value) => (column, value.render)
    let first : Record := .ofList [("id", .int 7), ("name", .text "a"), ("jamming", .bool true)]
    let second : Record := .ofList [("id", .int 8), ("message_length", .int 64)]
    shown (combine (combine rows first).records second) =
        [[("src", "200"), ("id", "8"), ("name", ""), ("proto", ""), ("description", ""),
            ("jamming", ""), ("layout", ""), ("len", "64")],
          [("id", "8"), ("dest", "209"), ("name", ""), ("proto", ""), ("description", ""),
            ("jamming", ""), ("layout", ""), ("len", "64")]] ∧
      shown (combine (combine summed first).records second) =
        [[("dest", "209*210"), ("id", "8"), ("name", ""), ("proto", ""), ("description", ""),
            ("jamming", ""), ("layout", ""), ("len", "64")]] ∧
      isAggregate (joinQueue rows first) = false ∧ isAggregate (joinQueue summed first) = true := by
  intro rows summed shown first second
  have hrows := combine_again rows first second
  have hsummed := combine_again summed first second
  rw [hrows.1, hrows.2, hsummed.1, hsummed.2]
  decide

end TestbedReport
