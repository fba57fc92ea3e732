import TestbedReport.Csv.Reader

/-!
# Written Rows Are Read Back

What the reader makes of text that the writer produced, one layer at a time:
the characters inside of quotes, a field, a line of fields, a row with its line
feed, and a grid.

Every layer is a statement about the state of the reading, not about a whole
text, and leaves the rest of the text open. A line of fields is read from any
number of complete fields on, a row from any number of complete rows on. That is
what lets one layer be used inside of the next, and what makes a file of several
grids no harder than a file of one: behind a row the reader stands `between`
rows, where it stood before it.

The layers meet at one point that is not a matter of quoting. A line with
nothing on it would be passed over, so the writer must not produce one. There
are two rows in danger, the one without fields and the one with a single empty
field. Both are written as a pair of quotes and read as one empty field, so the
first is the only row that does not come back as itself.

## Main definitions

* `Csv.between`: The state of reading behind complete rows.
* `Csv.cursorBehind`: Where the reading is behind a written field.
* `Csv.foundRow`: The row a reader finds for a written one.

## Theorems

* `foldl_doubleQuotes`: The inside of quotes is read as it was meant.
* `foldl_writeField`: A written field is the field at hand.
* `foldl_writeFields`: A written line completes one row.
* `foldl_writeRow`: A written row is found.
* `foldl_write`: A written grid is found below the rows before it.
* `read_write`: Reading undoes writing.
* `write_append`: Grids one behind the other are one grid.
* `write_eq_nil_iff`, `write_getLast?`: A written grid is empty or ends a line.
-/

namespace TestbedReport

namespace Csv

/-- Behind complete rows, given last first, with nothing of the next one. -/
def between (rows : List (List (List Char))) : Reading :=
  ⟨rows, [], [], .fieldStart⟩

/-- Where the reading is behind a written field. -/
def cursorBehind (field : List Char) : Cursor :=
  if needsQuotes field then .quoteSeen else if field = [] then .fieldStart else .plain

/-- The row a reader finds for a written one. A row without fields leaves a
    line all the same, and a line has at least one field. -/
def foundRow {α : Type} (nothing : α) : List α → List α
  | [] => [nothing]
  | row => row

variable (rows : List (List (List Char))) (fields : List (List Char))

/-- Inside of quotes every character is itself, and a quote is one when it is
    written twice. -/
theorem foldl_doubleQuotes (cs acc : List Char) :
    (doubleQuotes cs).foldl Reading.step ⟨rows, fields, acc, .quoted⟩ =
      ⟨rows, fields, cs.reverse ++ acc, .quoted⟩ := by
  induction cs generalizing acc with
  | nil => rfl
  | cons c cs ih =>
      have hcons : doubleQuotes (c :: cs) =
          (if c = '"' then ['"', '"'] else [c]) ++ doubleQuotes cs := by
        simp only [doubleQuotes, List.flatMap_cons]
      -- A quote is read behind its first half, and the cursor is back in the field.
      have hstep : (if c = '"' then ['"', '"'] else [c]).foldl Reading.step
          ⟨rows, fields, acc, .quoted⟩ = ⟨rows, fields, c :: acc, .quoted⟩ := by
        by_cases hc : c = '"'
        · rw [if_pos hc, hc]
          rfl
        · rw [if_neg hc]
          simp only [List.foldl_cons, List.foldl_nil, Reading.step, if_neg hc, Reading.add]
      rw [hcons, List.foldl_append, hstep, ih, List.reverse_cons, List.append_assoc,
        List.singleton_append]

/-- A field that needs no quotes is read character by character, once it has
    begun. -/
theorem foldl_plain (cs acc : List Char) (h : needsQuotes cs = false) :
    cs.foldl Reading.step ⟨rows, fields, acc, .plain⟩ =
      ⟨rows, fields, cs.reverse ++ acc, .plain⟩ := by
  induction cs generalizing acc with
  | nil => rfl
  | cons c cs ih =>
      simp only [needsQuotes, List.any_cons, Bool.or_eq_false_iff, decide_eq_false_iff_not] at h
      rcases h with ⟨⟨⟨⟨hcomma, _⟩, _⟩, hfeed⟩, hrest⟩
      -- Only a comma and a line feed end a plain field, and neither is in it.
      have hstep : Reading.step ⟨rows, fields, acc, .plain⟩ c =
          ⟨rows, fields, c :: acc, .plain⟩ := by
        simp only [Reading.step, if_neg hcomma, if_neg hfeed, Reading.add]
      rw [List.foldl_cons, hstep, ih _ hrest, List.reverse_cons, List.append_assoc,
        List.singleton_append]

/-- A written field is the field at hand behind it. -/
theorem foldl_writeField (field : List Char) :
    (writeField field).foldl Reading.step ⟨rows, fields, [], .fieldStart⟩ =
      ⟨rows, fields, field.reverse, cursorBehind field⟩ := by
  unfold writeField cursorBehind
  by_cases hq : needsQuotes field = true
  · rw [if_pos hq, if_pos hq, List.cons_append, List.foldl_cons, List.foldl_append]
    have hopen : Reading.step ⟨rows, fields, [], .fieldStart⟩ '"' =
        ⟨rows, fields, [], .quoted⟩ := rfl
    rw [hopen, foldl_doubleQuotes, List.append_nil]
    rfl
  · rw [if_neg hq, if_neg hq]
    cases field with
    | nil => rfl
    | cons c cs =>
        have hplain : needsQuotes (c :: cs) = false := by simpa only [Bool.not_eq_true] using hq
        have hsplit := hplain
        simp only [needsQuotes, List.any_cons, Bool.or_eq_false_iff, decide_eq_false_iff_not]
          at hsplit
        rcases hsplit with ⟨⟨⟨⟨hcomma, hquote⟩, _⟩, hfeed⟩, hrest⟩
        -- At the start of a field a quote would count as well.
        have hstep : Reading.step ⟨rows, fields, [], .fieldStart⟩ c =
            ⟨rows, fields, [c], .plain⟩ := by
          simp only [Reading.step, if_neg hcomma, if_neg hquote, if_neg hfeed, Reading.add]
        rw [List.foldl_cons, hstep, foldl_plain rows fields cs [c] hrest, List.reverse_cons,
          if_neg (List.cons_ne_nil c cs)]

/-- A comma behind a written field completes it. -/
theorem step_comma (field : List Char) :
    Reading.step ⟨rows, fields, field.reverse, cursorBehind field⟩ ',' =
      ⟨rows, field :: fields, [], .fieldStart⟩ := by
  have hend : Reading.endField ⟨rows, fields, field.reverse, cursorBehind field⟩ =
      ⟨rows, field :: fields, [], .fieldStart⟩ := by
    simp only [Reading.endField, List.reverse_reverse]
  rw [← hend]
  -- A written field ends behind its quotes, within plain text or where it began,
  -- and in each of these places a comma ends it.
  unfold cursorBehind
  split
  · rfl
  · split <;> rfl

/-- A line feed behind a written field completes it and its row, unless nothing
    stands on the line. -/
theorem step_lineFeed (field : List Char) (h : fields ≠ [] ∨ writeField field ≠ []) :
    Reading.step ⟨rows, fields, field.reverse, cursorBehind field⟩ '\n' =
      between ((fields.reverse ++ [field]) :: rows) := by
  have hstep : Reading.step ⟨rows, fields, field.reverse, cursorBehind field⟩ '\n' =
      Reading.endRow ⟨rows, fields, field.reverse, cursorBehind field⟩ := by
    unfold cursorBehind
    split
    · rfl
    · split <;> rfl
  have hsomething : ¬(cursorBehind field = .fieldStart ∧ fields = []) := by
    rintro ⟨hstart, hnone⟩
    rcases h with hfields | hfield
    · exact hfields hnone
    · -- Only an empty field leaves the reading where a field starts.
      unfold cursorBehind at hstart
      split at hstart
      · exact absurd hstart (by simp only [reduceCtorEq, not_false_eq_true])
      · next hq =>
        split at hstart
        · next hnil =>
          rw [writeField, if_neg hq] at hfield
          exact hfield hnil
        · exact absurd hstart (by simp only [reduceCtorEq, not_false_eq_true])
  rw [hstep, Reading.endRow, if_neg hsomething, List.reverse_reverse, List.reverse_cons, between]

/-- A written line with its line feed completes a row of the fields before it
    and its own, if there is anything on it. -/
theorem foldl_writeFields (row : List (List Char)) (hrow : row ≠ [])
    (h : fields ≠ [] ∨ writeFields row ≠ []) :
    (writeFields row ++ ['\n']).foldl Reading.step ⟨rows, fields, [], .fieldStart⟩ =
      between ((fields.reverse ++ row) :: rows) := by
  induction row generalizing fields with
  | nil => exact absurd rfl hrow
  | cons field rest ih =>
      cases rest with
      | nil =>
          rw [writeFields] at h ⊢
          rw [List.foldl_append, foldl_writeField, List.foldl_cons, List.foldl_nil,
            step_lineFeed rows fields field h]
      | cons next others =>
          have hline : writeFields (field :: next :: others) ++ ['\n'] =
              writeField field ++ ',' :: (writeFields (next :: others) ++ ['\n']) := by
            rw [writeFields, List.append_assoc, List.cons_append]
            exact List.cons_ne_nil next others
          rw [hline, List.foldl_append, foldl_writeField, List.foldl_cons, step_comma]
          -- Behind the comma one field is complete, so the line is not empty.
          rw [ih (field :: fields) (List.cons_ne_nil next others)
            (Or.inl (List.cons_ne_nil field fields)), List.reverse_cons, List.append_assoc,
            List.singleton_append]

/-- The rows that would come out as empty lines: those without fields and those
    with one empty field. -/
theorem writeFields_eq_nil (row : List (List Char)) (h : writeFields row = []) :
    row = [] ∨ row = [[]] := by
  match row, h with
  | [], _ => exact Or.inl rfl
  | [field], h =>
      right
      rw [writeFields, writeField] at h
      split at h
      · exact absurd h (List.cons_ne_nil _ _)
      · rw [h]
  -- Two fields have a comma between them.
  | field :: next :: others, h =>
      rw [writeFields] at h
      · exact absurd h (by simp only [List.append_eq_nil_iff, reduceCtorEq, and_false,
          not_false_eq_true])
      · exact List.cons_ne_nil next others

/-- A written row is found behind the rows before it. -/
theorem foldl_writeRow (row : List (List Char)) :
    (writeRow row).foldl Reading.step (between rows) = between (foundRow [] row :: rows) := by
  unfold writeRow
  split
  · next hnil =>
    -- The pair of quotes is read as one empty field.
    rcases writeFields_eq_nil row hnil with rfl | rfl
    · rfl
    · rfl
  · next hline =>
    cases row with
    | nil => exact absurd rfl hline
    | cons field rest =>
        exact foldl_writeFields rows [] (field :: rest) (List.cons_ne_nil field rest) (Or.inr hline)

/-- A written grid is found behind the rows before it. -/
theorem foldl_write (grid : List (List String)) :
    (write grid).foldl Reading.step (between rows) =
      between ((grid.map fun row => foundRow [] (row.map String.toList)).reverse ++ rows) := by
  induction grid generalizing rows with
  | nil => rfl
  | cons row grid ih =>
      have hcons : write (row :: grid) = writeRow (row.map String.toList) ++ write grid := by
        simp only [write, List.flatMap_cons]
      rw [hcons, List.foldl_append, foldl_writeRow, ih, List.map_cons, List.reverse_cons,
        List.append_assoc, List.singleton_append]

/-- The texts of a found row are what is found for the texts of the row. -/
theorem map_foundRow (row : List String) :
    (foundRow [] (row.map String.toList)).map String.ofList = foundRow "" row := by
  cases row with
  | nil => rfl
  | cons field rest =>
      simp only [foundRow, List.map_cons, List.map_map, Function.comp_def, String.ofList_toList,
        List.map_id']

/-- Reading undoes writing, for any fields in any rows. -/
theorem read_write (grid : List (List String)) : read (write grid) = grid.map (foundRow "") := by
  have hfinal : ((write grid).foldl Reading.step Reading.start).endRow =
      between (grid.map fun row => foundRow [] (row.map String.toList)).reverse := by
    have hstart : Reading.start = between [] := rfl
    rw [hstart, foldl_write, List.append_nil]
    rfl
  unfold read
  simp only [hfinal, between, List.reverse_reverse, List.map_map, Function.comp_def, map_foundRow]

/-- Only a row without fields is found as another one. -/
theorem map_foundRow_eq_self (grid : List (List String)) (h : ∀ row ∈ grid, row ≠ []) :
    grid.map (foundRow "") = grid := by
  refine (List.map_congr_left fun row hrow => ?_).trans (List.map_id grid)
  cases row with
  | nil => exact absurd rfl (h [] hrow)
  | cons field rest => rfl

/-- Grids written one behind the other are one grid. -/
theorem write_append (upper lower : List (List String)) :
    write (upper ++ lower) = write upper ++ write lower := by
  simp only [write, List.flatMap_append]

/-- A written row ends with its line feed. -/
theorem writeRow_eq_append (row : List (List Char)) : ∃ line, writeRow row = line ++ ['\n'] := by
  unfold writeRow
  split
  · exact ⟨['"', '"'], rfl⟩
  · exact ⟨_, rfl⟩

/-- Nothing is written only for the grid without rows. -/
theorem write_eq_nil_iff (grid : List (List String)) : write grid = [] ↔ grid = [] := by
  constructor
  · intro h
    cases grid with
    | nil => rfl
    | cons row grid =>
        rcases writeRow_eq_append (row.map String.toList) with ⟨line, hline⟩
        rw [write, List.flatMap_cons, hline] at h
        exact absurd h (by simp only [List.append_eq_nil_iff, reduceCtorEq, and_false, false_and,
          not_false_eq_true])
  · intro h
    rw [h]
    rfl

/-- A written grid ends with a line feed if it has any rows. -/
theorem write_getLast? (grid : List (List String)) (h : grid ≠ []) :
    (write grid).getLast? = some '\n' := by
  rcases List.eq_nil_or_concat grid with hnil | ⟨upper, row, hgrid⟩
  · exact absurd hnil h
  · rcases writeRow_eq_append (row.map String.toList) with ⟨line, hline⟩
    have hlast : write [row] = line ++ ['\n'] := by
      simp only [write, List.flatMap_cons, List.flatMap_nil, List.append_nil, hline]
    rw [hgrid, List.concat_eq_append, write_append, hlast, ← List.append_assoc,
      List.getLast?_concat]

end Csv

end TestbedReport
