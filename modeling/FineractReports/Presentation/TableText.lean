import FineractReports.Library.Escapes
import FineractReports.Presentation.HiddenFields

/-!
# The text of a table

A table is printed as lines of cells between pipes. A pipe counts when no open backslash
stands before it.
-/

namespace FineractReports.Text

/-- Replacing a single character. -/
theorem toList_replace_char (text : String) {pattern replacement : String} (c : Char)
    (h : pattern.toList = [c]) :
    (replace text pattern replacement).toList =
      text.toList.flatMap fun d => if d = c then replacement.toList else [d] := by
  have hchars (chars : List Char) : replaceChars [c] replacement.toList 0 chars =
      chars.flatMap fun d => if d = c then replacement.toList else [d] := by
    induction chars with
    | nil => rfl
    | cons d rest ih =>
      rw [replaceChars, List.flatMap_cons]
      by_cases hd : d = c
      · subst hd
        simpa using ih
      · have hnot : ¬ c = d := fun heq => hd heq.symm
        simpa [hd, hnot] using ih
  rw [replace, h, String.toList_ofList, hchars]

end FineractReports.Text

namespace FineractReports.Presentation

open Escapes

section Lines

variable (decimals : DecimalNumbers) (showJson : Json → String) (table : ResponseTable)

def visibleColumns : List TableColumn := table.columns.filter fun column => column.hidden = false

/-- The text of a cell before it is escaped. -/
def cellText (row : Json) (column : TableColumn) : String :=
  if column.kind = .money then
    (moneyCell decimals row column.key).getD (rawCell showJson row column.key)
  else rawCell showJson row column.key

/-- What is left of a cell for the pipes: carriage returns are dropped. -/
def cellChars (row : Json) (column : TableColumn) : List Char :=
  (cellText decimals showJson row column).toList.filter fun c => c ≠ '\r'

def headerLine : List Char :=
  tableLine '|' ((visibleColumns table).map fun column => column.label.toList)

def separatorLine : List Char :=
  tableLine '|' ((visibleColumns table).map fun _ => ['-', '-', '-'])

def rowLine (row : Json) : List Char :=
  tableLine '|' ((visibleColumns table).map fun column =>
    (cell decimals showJson row column).toList)

def tableLines : List (List Char) :=
  headerLine table :: separatorLine table ::
    (table.rows.take MARKDOWN_TABLE_ROW_LIMIT).map (rowLine decimals showJson table)

/-- A line without breaks that has a pipe that counts before and behind each column. -/
def IsTableLine (columns : ℕ) (line : List Char) : Prop :=
  '\n' ∉ line ∧ '\r' ∉ line ∧ bars '\\' '|' false line = columns + 1

/-- The text holds a header, the separator and a line for each row up to the limit, and
each is a line of the table. -/
def PrintsTable (text : String) : Prop :=
  ∃ header rows, text.toList = '\n' :: (header :: separatorLine table :: rows).flatMap
      (fun line => '\n' :: line) ∧
    rows.length = min table.rows.length MARKDOWN_TABLE_ROW_LIMIT ∧
    ∀ line ∈ header :: separatorLine table :: rows,
      IsTableLine (visibleColumns table).length line

/-- The rows agree on the visible columns, and on the currency where money is shown. -/
def AgreeOnShown (row other : Json) : Prop :=
  (∀ column ∈ visibleColumns table, row.get? column.key = other.get? column.key) ∧
    ((∃ column ∈ visibleColumns table, column.kind = .money) →
      ∀ key ∈ ["currency_digits", "currency_code", "currency_display_symbol"],
        row.get? key = other.get? key)

/-- Nothing of a hidden column reaches the text. -/
def ShowsVisibleOnly : Prop :=
  ∀ other : ResponseTable, visibleColumns other = visibleColumns table →
    List.Forall₂ (AgreeOnShown table) table.rows other.rows →
    renderTable decimals showJson other = renderTable decimals showJson table

/-- Some column is visible, no visible label breaks a line, and backslashes do no harm: the
labels are balanced as they are, and a shown row has as many pipes behind an open backslash
as cells that end in one. -/
structure TableFits : Prop where
  visible : visibleColumns table ≠ []
  labels : ∀ column ∈ visibleColumns table, '\n' ∉ column.label.toList ∧ '\r' ∉ column.label.toList
  header : BarsBalanced '\\' '|' ((visibleColumns table).map fun column => column.label.toList)
  rows : ∀ row ∈ table.rows.take MARKDOWN_TABLE_ROW_LIMIT,
    ((visibleColumns table).map fun column =>
        plainBars '\\' '|' false (cellChars decimals showJson row column)).sum =
      (visibleColumns table).countP fun column =>
        pending '\\' false (cellChars decimals showJson row column)

variable {decimals showJson table} {row : Json} {column : TableColumn}

theorem toList_cell : (cell decimals showJson row column).toList =
    escapeBars '\\' '|' ((cellChars decimals showJson row column).flatMap fun c =>
      if c = '\n' then ['<', 'b', 'r', '>'] else [c]) := by
  have hdrop (text : List Char) : (text.flatMap fun c => if c = '\r' then [] else [c]) =
      text.filter fun c => c ≠ '\r' := by
    induction text with
    | nil => rfl
    | cons c rest ih =>
      by_cases hc : c = '\r' <;> simp [hc, ih]
  have hcell : cell decimals showJson row column =
      Text.replace (Text.replace (Text.replace (cellText decimals showJson row column) "\r" "")
        "\n" "<br>") "|" "\\|" := rfl
  rw [hcell, Text.toList_replace_char _ '|' rfl, Text.toList_replace_char _ '\n' rfl,
    Text.toList_replace_char _ '\r' rfl, escapeBars, cellChars, ← hdrop]
  rfl

theorem bars_cell : bars '\\' '|' false (cell decimals showJson row column).toList =
    plainBars '\\' '|' false (cellChars decimals showJson row column) := by
  rw [toList_cell, bars_escapeBars (by decide),
    plainBars_replace (by decide) (by decide) (by decide)]

theorem pending_cell : pending '\\' false (cell decimals showJson row column).toList =
    pending '\\' false (cellChars decimals showJson row column) := by
  rw [toList_cell, pending_escapeBars (by decide), pending_replace (by decide) (by decide)]

/-- Cells never break a line. -/
theorem cell_oneLine : '\n' ∉ (cell decimals showJson row column).toList ∧
    '\r' ∉ (cell decimals showJson row column).toList := by
  rw [toList_cell, escapeBars]
  constructor
  · intro hmem
    rcases mem_replace hmem with hnew | ⟨hold, -⟩
    · simp at hnew
    · rcases mem_replace hold with hnew | ⟨-, hne⟩
      · simp at hnew
      · exact hne rfl
  · intro hmem
    rcases mem_replace hmem with hnew | ⟨hold, -⟩
    · simp at hnew
    · rcases mem_replace hold with hnew | ⟨hold, -⟩
      · simp at hnew
      · simp [cellChars] at hold

theorem toList_join_bars {β : Type*} (text : β → String) (items : List β) :
    (String.join (items.map fun item => text item ++ "|")).toList =
      (items.map fun item => (text item).toList).flatMap fun cell => cell ++ ['|'] := by
  simp only [String.toList_join, List.flatMap_map, String.toList_append]
  rfl

theorem toList_renderRow : (renderRow decimals showJson (visibleColumns table) row).toList =
    '\n' :: rowLine decimals showJson table row := by
  rw [renderRow, String.toList_append, toList_join_bars]
  rfl

theorem renderTable_eq : renderTable decimals showJson table =
    if visibleColumns table = [] then ""
    else
      "\n\n|" ++ String.join ((visibleColumns table).map fun column => column.label ++ "|") ++
        "\n|" ++ String.join ((visibleColumns table).map fun _ => "---|") ++
        String.join ((table.rows.take MARKDOWN_TABLE_ROW_LIMIT).map
          (renderRow decimals showJson (visibleColumns table))) := rfl

/-- Nothing is printed without a visible column, else the lines of the table. -/
theorem toList_renderTable : (renderTable decimals showJson table).toList =
    if visibleColumns table = [] then []
    else '\n' :: (tableLines decimals showJson table).flatMap fun line => '\n' :: line := by
  rw [renderTable_eq]
  split_ifs with h
  · rfl
  · have hrows : (String.join ((table.rows.take MARKDOWN_TABLE_ROW_LIMIT).map
        (renderRow decimals showJson (visibleColumns table)))).toList =
        ((table.rows.take MARKDOWN_TABLE_ROW_LIMIT).map
          (rowLine decimals showJson table)).flatMap fun line => '\n' :: line := by
      simp only [String.toList_join, List.flatMap_map, toList_renderRow]
    have hseparators : (String.join ((visibleColumns table).map fun _ => "---|")).toList =
        ((visibleColumns table).map fun _ => ['-', '-', '-']).flatMap fun cell => cell ++ ['|'] :=
      toList_join_bars (fun _ => "---") (visibleColumns table)
    simp only [String.toList_append, hrows, hseparators, toList_join_bars, tableLines,
      List.flatMap_cons, headerLine, separatorLine, tableLine]
    simp

/-- A line of cells is a line of the table when no cell breaks it and they are balanced. -/
theorem isTableLine_tableLine {cells : List (List Char)} :
    IsTableLine cells.length (tableLine '|' cells) ↔
      (∀ cell ∈ cells, '\n' ∉ cell ∧ '\r' ∉ cell) ∧ BarsBalanced '\\' '|' cells := by
  have hbreak {c : Char} (hc : c ≠ '|') : c ∉ tableLine '|' cells ↔ ∀ cell ∈ cells, c ∉ cell := by
    simp [tableLine, hc]
  rw [IsTableLine, hbreak (by decide), hbreak (by decide), bars_tableLine_iff (by decide),
    ← and_assoc, ← forall₂_and]

theorem isTableLine_separatorLine :
    IsTableLine (visibleColumns table).length (separatorLine table) := by
  have h := @isTableLine_tableLine ((visibleColumns table).map fun _ => ['-', '-', '-'])
  rw [List.length_map] at h
  apply h.mpr
  refine ⟨fun cell hcell => ?_, ?_⟩
  · obtain ⟨column, -, rfl⟩ := List.mem_map.mp hcell
    decide
  · rw [BarsBalanced, List.map_map, List.countP_map]
    simp [bars, pending, Function.comp_def]

theorem isTableLine_headerLine : IsTableLine (visibleColumns table).length (headerLine table) ↔
    (∀ column ∈ visibleColumns table,
        '\n' ∉ column.label.toList ∧ '\r' ∉ column.label.toList) ∧
      BarsBalanced '\\' '|' ((visibleColumns table).map fun column => column.label.toList) := by
  have h := @isTableLine_tableLine ((visibleColumns table).map fun column => column.label.toList)
  rwa [List.length_map, List.forall_mem_map] at h

theorem isTableLine_rowLine :
    IsTableLine (visibleColumns table).length (rowLine decimals showJson table row) ↔
      ((visibleColumns table).map fun column =>
          plainBars '\\' '|' false (cellChars decimals showJson row column)).sum =
        (visibleColumns table).countP fun column =>
          pending '\\' false (cellChars decimals showJson row column) := by
  have h := @isTableLine_tableLine
    ((visibleColumns table).map fun column => (cell decimals showJson row column).toList)
  rw [List.length_map, List.forall_mem_map, and_iff_right fun _ _ => cell_oneLine, BarsBalanced,
    List.map_map, List.countP_map] at h
  simp only [Function.comp_def, bars_cell, pending_cell] at h
  exact h

theorem showsVisibleOnly : ShowsVisibleOnly decimals showJson table := by
  intro other hvisible hrows
  have hrow {row row' : Json} (h : AgreeOnShown table row row') :
      renderRow decimals showJson (visibleColumns table) row' =
        renderRow decimals showJson (visibleColumns table) row := by
    obtain ⟨hshown, hcurrency⟩ := h
    have hcells : ∀ column ∈ visibleColumns table,
        cell decimals showJson row' column = cell decimals showJson row column := by
      intro column hcolumn
      have hraw : rawCell showJson row' column.key = rawCell showJson row column.key := by
        rw [rawCell, rawCell, hshown column hcolumn]
      rw [cell, cell, hraw]
      by_cases hmoney : column.kind = .money
      · have hkeys := hcurrency ⟨column, hcolumn, hmoney⟩
        have hcell : moneyCell decimals row' column.key = moneyCell decimals row column.key := by
          rw [moneyCell, moneyCell, hshown column hcolumn, hkeys _ (by decide),
            hkeys _ (by decide), hkeys _ (by decide)]
        rw [hcell]
      · rw [if_neg hmoney, if_neg hmoney]
    have hmap := List.map_congr_left fun column hcolumn =>
      congrArg (· ++ "|") (hcells column hcolumn)
    rw [renderRow, renderRow, hmap]
  have hmap {rows rows' : List Json} (h : List.Forall₂ (AgreeOnShown table) rows rows') :
      rows'.map (renderRow decimals showJson (visibleColumns table)) =
        rows.map (renderRow decimals showJson (visibleColumns table)) := by
    induction h with
    | nil => rfl
    | cons hagree _ ih => rw [List.map_cons, List.map_cons, hrow hagree, ih]
  rw [renderTable_eq, renderTable_eq, hvisible,
    hmap (List.forall₂_take MARKDOWN_TABLE_ROW_LIMIT hrows)]

theorem printsTable_iff_fits :
    PrintsTable table (renderTable decimals showJson table) ∧
        ShowsVisibleOnly decimals showJson table ↔ TableFits decimals showJson table := by
  rw [and_iff_left showsVisibleOnly, PrintsTable, toList_renderTable]
  constructor
  · rintro ⟨header, rows, htext, hlength, hlines⟩
    split_ifs at htext with hvisible
    have hsame : tableLines decimals showJson table = header :: separatorLine table :: rows := by
      apply eq_of_flatMap_stop (fun line hline => (hlines line hline).1) _
        (List.cons.inj htext).2
      simp [tableLines, hlength, min_comm]
    rw [← hsame, tableLines, List.forall_mem_cons, List.forall_mem_cons, List.forall_mem_map]
      at hlines
    obtain ⟨hheader, -, hrows⟩ := hlines
    obtain ⟨hlabels, hbalanced⟩ := isTableLine_headerLine.mp hheader
    exact ⟨hvisible, hlabels, hbalanced, fun row hrow => isTableLine_rowLine.mp (hrows row hrow)⟩
  · rintro ⟨hvisible, hlabels, hbalanced, hrows⟩
    rw [if_neg hvisible]
    refine ⟨_, _, rfl, ?_, ?_⟩
    · rw [List.length_map, List.length_take, min_comm]
    · rw [List.forall_mem_cons, List.forall_mem_cons, List.forall_mem_map]
      exact ⟨isTableLine_headerLine.mpr ⟨hlabels, hbalanced⟩, isTableLine_separatorLine,
        fun row hrow => isTableLine_rowLine.mpr (hrows row hrow)⟩

end Lines

theorem renderTable_wellFormed_iff (decimals : DecimalNumbers) (showJson : Json → String)
    (table : ResponseTable) :
    PrintsTable table (renderTable decimals showJson table) ∧
      ShowsVisibleOnly decimals showJson table ↔ TableFits decimals showJson table :=
  printsTable_iff_fits

namespace NameLookup

/-- The backslash of the name escapes the one the renderer puts before the pipe. -/
def pathTable : ResponseTable where
  columns := [⟨"name", "Name", .text, false⟩]
  rows := [.obj [("name", .str "a\\|b")]]

theorem pathTable_malformed :
    renderTable wholeNumbers (fun _ => "") pathTable = "\n\n|Name|\n|---|\n|a\\\\|b|" ∧
      ¬ (PrintsTable pathTable (renderTable wholeNumbers (fun _ => "") pathTable) ∧
        ShowsVisibleOnly wholeNumbers (fun _ => "") pathTable) := by
  refine ⟨by decide, fun h => ?_⟩
  have hrows := (printsTable_iff_fits.mp h).rows _ List.mem_cons_self
  exact absurd hrows (by decide)

end NameLookup

end FineractReports.Presentation
