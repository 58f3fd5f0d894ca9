import Mathlib.Tactic
import LoadBench.Proofs.Report.Markdown
import LoadBench.Proofs.Summary.LoadReport
import LoadBench.Proofs.Text.Column
import LoadBench.Report.LoadText

/-!
# Names in the tables of load runs

The tables of pages and of stages begin with a column of names, and the other cells of a row are
figures. Figures are written without upright lines, so the cell of the name is what stands in front
of them in a row, also where the name has upright lines in it. This cell is exactly as wide as its
column, whatever the name is, and the column ends at the same place in every line of the table.

Results:
* `Report.FirstCell.unique`: a row is read in one way.
* `Report.showsName_tableRow`: the row of a name and some figures.
* `Report.isNameTable_map`: a table of such rows.
* `Report.names_fillColumns`: what a text is cut to, and the columns of names in both reports.
-/

namespace LoadBench.Report

open Text (IsCut Fills padStart truncate unlines)

/-! ## Cells without upright lines -/

/-- A text has no upright line in it. -/
def Unbarred (s : String) : Prop := '│' ∉ s.toList

theorem IsFigure.unbarred {s : String} (h : IsFigure s) : Unbarred s := by
  intro hbar
  have hchar := h _ hbar
  revert hchar
  decide

theorem Unbarred.append {s t : String} (hs : Unbarred s) (ht : Unbarred t) : Unbarred (s ++ t) := by
  rw [Unbarred, String.toList_append, List.mem_append, not_or]
  exact ⟨hs, ht⟩

theorem Unbarred.padStart {s : String} (h : Unbarred s) (width : Nat) :
    Unbarred (padStart width s) := by
  rw [Unbarred, Text.padStart, String.toList_ofList, List.mem_append, not_or]
  refine ⟨fun hblank => ?_, h⟩
  have heq := List.eq_of_mem_replicate hblank
  revert heq
  decide

theorem unbarred_count (width n : Nat) : Unbarred (padStart width (toString n)) :=
  (isFigure_toString n).unbarred.padStart width

theorem unbarred_cell (width places : Nat) (x : Float) : Unbarred (cell width places x) :=
  (isFigure_fixed places x).unbarred.padStart width

theorem unbarred_timeCell (x : Float) : Unbarred (timeCell x) :=
  (unbarred_cell 5 0 x).append (isFigure_of_all (by decide)).unbarred

/-! ## The first cell of a row -/

/-- The cells of a row behind its first one, each behind an upright line. -/
def behindFirst (figures : List String) : String := String.join (figures.map (" │ " ++ ·))

/-- A row is made of a first cell, with any text in it, and some others without upright lines. -/
def FirstCell (others : Nat) (row first : String) : Prop :=
  ∃ figures : List String, figures.length = others ∧ (∀ f ∈ figures, Unbarred f) ∧
    row = "│ " ++ first ++ behindFirst figures ++ " │"

theorem tableRow_cons (first : String) (figures : List String) :
    tableRow (first :: figures) = "│ " ++ first ++ behindFirst figures ++ " │" := by
  have hcells : " │ ".intercalate (first :: figures) = first ++ behindFirst figures := by
    induction figures generalizing first with
    | nil => simp [behindFirst, String.intercalate_singleton]
    | cons f figures ih =>
      rw [String.intercalate_cons_cons, ih, behindFirst, behindFirst, List.map_cons,
        String.join_cons, String.append_assoc, String.append_assoc]
  rw [tableRow, hcells, ← String.append_assoc]

theorem toList_behindFirst_concat (figures : List String) (f : String) :
    (behindFirst (figures ++ [f])).toList =
      (behindFirst figures).toList ++ [' '] ++ '│' :: ' ' :: f.toList := by
  simp [behindFirst, String.join_append]

/-- An upright line stands behind the first cell, whether or not there are others. -/
theorem exists_behindFirst_append_eq (figures : List String) :
    ∃ back, behindFirst figures ++ " │" = " │" ++ back := by
  cases figures with
  | nil => exact ⟨"", by simp [behindFirst]⟩
  | cons f figures =>
    refine ⟨" " ++ f ++ behindFirst figures ++ " │", ?_⟩
    rw [← String.toList_inj]
    simp [behindFirst]

section LastBar

variable {front front' middle back back' : List Char}

theorem eq_nil_of_bar_eq (hback : '│' ∉ back) (h : '│' :: back = middle ++ '│' :: back') :
    middle = [] ∧ back = back' := by
  cases middle with
  | nil => exact ⟨rfl, (List.cons.inj h).2⟩
  | cons c middle =>
    obtain ⟨-, hmiddle⟩ := List.cons.inj h
    rw [hmiddle] at hback
    exact absurd (by simp) hback

/-- A text has one last upright line. -/
theorem eq_of_append_bar_eq (hback : '│' ∉ back) (hback' : '│' ∉ back')
    (h : front ++ '│' :: back = front' ++ '│' :: back') : front = front' ∧ back = back' := by
  rcases List.append_eq_append_iff.mp h with ⟨middle, rfl, hrest⟩ | ⟨middle, rfl, hrest⟩
  · obtain ⟨rfl, hback⟩ := eq_nil_of_bar_eq hback hrest
    exact ⟨(List.append_nil _).symm, hback⟩
  · obtain ⟨rfl, hback⟩ := eq_nil_of_bar_eq hback' hrest
    exact ⟨List.append_nil _, hback.symm⟩

end LastBar

/-- The cells behind the first one are found from the end of a row, one after the other. -/
theorem first_eq_of_append_behindFirst_eq {first first' : List Char}
    {figures figures' : List String} (hlength : figures.length = figures'.length)
    (hfigures : ∀ f ∈ figures, Unbarred f) (hfigures' : ∀ f ∈ figures', Unbarred f)
    (h : first ++ (behindFirst figures).toList = first' ++ (behindFirst figures').toList) :
    first = first' := by
  -- the first cell may have upright lines in it, so the cells can only be told apart from the end
  induction figures using List.reverseRecOn generalizing figures' with
  | nil =>
    obtain rfl := List.length_eq_zero_iff.mp hlength.symm
    exact List.append_cancel_right h
  | append_singleton figures f ih =>
    obtain rfl | ⟨figures', f', rfl⟩ := List.eq_nil_or_concat' figures'
    · simp at hlength
    · obtain ⟨hinit, hlast⟩ := List.forall_mem_append.mp hfigures
      obtain ⟨hinit', hlast'⟩ := List.forall_mem_append.mp hfigures'
      have hback {f : String} (hf : Unbarred f) : '│' ∉ ' ' :: f.toList := by
        rw [List.mem_cons, not_or]
        exact ⟨by decide, hf⟩
      simp only [toList_behindFirst_concat, ← List.append_assoc] at h
      obtain ⟨hfront, -⟩ := eq_of_append_bar_eq (hback (hlast f (by simp)))
        (hback (hlast' f' (by simp))) h
      exact ih (by simpa using hlength) hinit hinit' (List.append_cancel_right hfront)

/-- A row is read in one way. -/
theorem FirstCell.unique {others : Nat} {row first first' : String} (h : FirstCell others row first)
    (h' : FirstCell others row first') : first = first' := by
  obtain ⟨figures, hlength, hfigures, rfl⟩ := h
  obtain ⟨figures', hlength', hfigures', hrow⟩ := h'
  have hrows := congrArg String.toList hrow
  simp only [String.toList_append, List.append_assoc] at hrows
  have hcells := List.append_cancel_left hrows
  simp only [← List.append_assoc] at hcells
  exact String.toList_inj.mp (first_eq_of_append_behindFirst_eq (hlength.trans hlength'.symm)
    hfigures hfigures' (List.append_cancel_right hcells))

/-! ## The column of names -/

/-- A row shows a name: of its cells, the first is the name, cut and filled to a width. -/
structure ShowsName (width others : Nat) (name row : String) : Prop where
  exists_first : ∃ first, FirstCell others row first
  fills : ∀ first, FirstCell others row first → Fills width name first

/-- What stands in a line of a table behind its first cell and the blanks around it, if this cell
    has a width. -/
def edge? (width : Nat) (line : String) : Option Char := line.toList[width + 3]?

/-- The lines of a table above and below its rows. -/
structure Frame where
  top : String
  headings : String
  rule : String
  foot : String

namespace Frame

/-- A frame with rows in it. -/
def around (f : Frame) (rows : List String) : List String :=
  [f.top, f.headings, f.rule] ++ rows ++ [f.foot]

/-- A frame has room for a first cell of a width. -/
structure Fits (f : Frame) (width : Nat) : Prop where
  top : edge? width f.top = some '┬'
  headings : edge? width f.headings = some '│'
  rule : edge? width f.rule = some '┼'
  foot : edge? width f.foot = some '┴'

end Frame

/-- A table with names in its first column: it has a row for each name, and the column is as wide in
    the rows as in the frame around them. -/
structure IsNameTable (width others : Nat) (names : List String) (frame : Frame)
    (rows : List String) : Prop where
  forall₂_rows : List.Forall₂ (ShowsName width others) names rows
  straight : ∀ row ∈ rows, edge? width row = some '│'
  fits : frame.Fits width

/-- A text is made of lines, and some of them are a table with names in its first column. -/
def HasNameTable (width others : Nat) (names : List String) (frame : Frame) (text : String) :
    Prop :=
  ∃ lines rows, text = unlines lines ∧ frame.around rows <:+: lines ∧
    IsNameTable width others names frame rows

/-- The row of a name and some figures. -/
theorem showsName_tableRow {width : Nat} (hwidth : 0 < width) (name : String)
    (figures : List String) (hfigures : ∀ f ∈ figures, Unbarred f) :
    ShowsName width figures.length name (tableRow (nameCell width name :: figures)) := by
  have hfirst : FirstCell figures.length (tableRow (nameCell width name :: figures))
      (nameCell width name) := ⟨figures, rfl, hfigures, tableRow_cons _ _⟩
  refine ⟨⟨_, hfirst⟩, fun first h => ?_⟩
  rw [h.unique hfirst]
  exact (Text.fills_iff hwidth).mpr rfl

/-- The first cell of a row ends where the column ends. -/
theorem ShowsName.edge?_eq {width others : Nat} {name row : String}
    (h : ShowsName width others name row) : edge? width row = some '│' := by
  obtain ⟨first, hfirst⟩ := h.exists_first
  have hlength : first.length = width := (h.fills first hfirst).length_eq
  obtain ⟨figures, -, -, rfl⟩ := hfirst
  obtain ⟨back, hback⟩ := exists_behindFirst_append_eq figures
  have hrow : ("│ " ++ first ++ behindFirst figures ++ " │").toList =
      ('│' :: ' ' :: first.toList ++ [' ']) ++ '│' :: back.toList := by
    rw [String.append_assoc, hback]
    simp
  have hplace : ('│' :: ' ' :: first.toList ++ [' ']).length = width + 3 := by
    rw [List.length_append, List.length_cons, List.length_cons, String.length_toList, hlength]
    rfl
  rw [edge?, hrow, ← hplace, List.getElem?_append_right le_rfl, Nat.sub_self]
  rfl

/-- A table of rows that are made in one way from different values. -/
theorem isNameTable_map {α : Type} {width others : Nat} {frame : Frame} {name row : α → String}
    (hrow : ∀ x, ShowsName width others (name x) (row x)) (hframe : frame.Fits width)
    (xs : List α) : IsNameTable width others (xs.map name) frame (xs.map row) where
  forall₂_rows := by
    rw [List.forall₂_map_left_iff, List.forall₂_map_right_iff, List.forall₂_same]
    exact fun x _ => hrow x
  straight := by
    intro line hline
    obtain ⟨x, -, rfl⟩ := List.mem_map.mp hline
    exact (hrow x).edge?_eq
  fits := hframe

/-! ## Pages and stages -/

/-- The frame of the table of pages. -/
def pageFrame : Frame where
  top := "┌──────────────────────────┬─────────┬─────────┬─────────┬─────────┐"
  headings := "│ Page                     │ Visits  │ Avg     │ Min     │ Max     │"
  rule := "├──────────────────────────┼─────────┼─────────┼─────────┼─────────┤"
  foot := "└──────────────────────────┴─────────┴─────────┴─────────┴─────────┘"

/-- The frame of the table of stages. -/
def stageFrame : Frame where
  top := "┌──────────────────────────────┬─────────┬─────────┬─────────┬──────────┬─────────┐"
  headings := "│ Stage                        │ Users   │ Avg     │ p95     │ Req/s    │ Success │"
  rule := "├──────────────────────────────┼─────────┼─────────┼─────────┼──────────┼─────────┤"
  foot := "└──────────────────────────────┴─────────┴─────────┴─────────┴──────────┴─────────┘"

theorem edge?_ofList {width : Nat} {cs : List Char} {c : Char} (h : cs[width + 3]? = some c) :
    edge? width (.ofList cs) = some c := by
  rwa [edge?, String.toList_ofList]

-- each line is compared with its list of characters, one character after the other
set_option maxRecDepth 2000 in
theorem fits_pageFrame : pageFrame.Fits 24 where
  top := edge?_ofList rfl
  headings := edge?_ofList rfl
  rule := edge?_ofList rfl
  foot := edge?_ofList rfl

set_option maxRecDepth 2000 in
theorem fits_stageFrame : stageFrame.Fits 28 where
  top := edge?_ofList rfl
  headings := edge?_ofList rfl
  rule := edge?_ofList rfl
  foot := edge?_ofList rfl

theorem showsName_pageRow (t : PageTimeline) : ShowsName 24 4 t.name (pageRow t) := by
  refine showsName_tableRow (by decide) t.name [_, _, _, _] ?_
  simp only [List.forall_mem_cons]
  exact ⟨unbarred_count _ _, unbarred_timeCell _, unbarred_timeCell _, unbarred_timeCell _,
    by simp⟩

theorem showsName_stageRow (s : StageRow) : ShowsName 28 5 s.name (stageRow s) := by
  refine showsName_tableRow (by decide) s.name [_, _, _, _, _] ?_
  simp only [List.forall_mem_cons]
  exact ⟨unbarred_count _ _, unbarred_timeCell _, unbarred_timeCell _, unbarred_cell _ _ _,
    (unbarred_cell _ _ _).append (isFigure_of_all (by decide)).unbarred, by simp⟩

/-! ## Both reports -/

theorem infix_of_suffix {head front : List String} (h : head <:+ front) (rows : List String)
    (foot : String) (back : List String) :
    head ++ rows ++ [foot] <:+: front ++ rows ++ foot :: back := by
  obtain ⟨above, rfl⟩ := h
  exact ⟨above, back, by simp⟩

theorem hasNameTable_load (r : LoadReport) :
    HasNameTable 24 4 (r.pageTimelines.map (·.name)) pageFrame (load r) := by
  have htable : pageFrame.around (r.pageTimelines.map pageRow) <:+: loadLines r := by
    -- two more parts of the report follow the line below the rows
    refine .trans ?_ (List.prefix_append _ _).isInfix
    refine .trans ?_ (List.prefix_append _ _).isInfix
    exact infix_of_suffix ((List.suffix_cons _ _).trans (List.suffix_append _ _)) _ _ _
  exact ⟨loadLines r, _, rfl, htable, isNameTable_map showsName_pageRow fits_pageFrame _⟩

theorem hasNameTable_staged (r : StagedReport) :
    HasNameTable 28 5 (r.comparison.map (·.name)) stageFrame (staged r) := by
  have htable : stageFrame.around (r.comparison.map stageRow) <:+: stagedLines r := by
    refine infix_of_suffix ?_ _ _ _
    exact ⟨[_, _, _, _, _, _, _], rfl⟩
  exact ⟨stagedLines r, _, rfl, htable, isNameTable_map showsName_stageRow fits_stageFrame _⟩

/-- Whatever a text is written with, cutting it leaves no more characters than there is room for:
    the text itself if, and only if, it fits, and else one character less than there is room for
    and an ellipsis; cutting it again, at the same place or further on, changes nothing. So the
    cells of names are 24 characters wide in every row of a report on a load run, and 28 in every
    row of a report on a staged run, and stand straight under their headings. -/
theorem names_fillColumns (s : String) {width : Nat} (hwidth : 0 < width) (r : LoadReport)
    (t : StagedReport) :
    IsCut width s (truncate width s) ∧
    (∀ wider, width ≤ wider → truncate wider (truncate width s) = truncate width s) ∧
    HasNameTable 24 4 (r.pageTimelines.map (·.name)) pageFrame (load r) ∧
    HasNameTable 28 5 (t.comparison.map (·.name)) stageFrame (staged t) :=
  ⟨Text.isCut_truncate hwidth s, fun _ => Text.truncate_truncate hwidth s, hasNameTable_load r,
    hasNameTable_staged t⟩

/-- A name of 28 characters in three scripts and a pictogram. -/
def mixedName : String := "Übersicht – 商品一覧 / каталог 🛒"

/-- A run of one user who visits a page of this name. -/
def mixedRun : LoadReport :=
  .ofWalks ⟨mixedName, "", 1, []⟩ [.ofVisits 0 "browse" [.completed mixedName 3.0 []]] 4.0

/-- A staged run with this run as its only stage. -/
def mixedStages : StagedReport := .ofStages .burst ⟨mixedName, "", 1, []⟩ [mixedRun]

theorem names_fillColumns_mixedName :
    truncate 24 mixedName = "Übersicht – 商品一覧 / ката…" ∧ truncate 28 mixedName = mixedName ∧
    truncate 28 (truncate 24 mixedName) = truncate 24 mixedName ∧
    HasNameTable 24 4 [mixedName] pageFrame (load mixedRun) ∧
    HasNameTable 28 5 [mixedName] stageFrame (staged mixedStages) := by
  have hnames : mixedRun.pageTimelines.map (·.name) = [mixedName] := by
    show (PageTimeline.ofVisits ((LoadReport.inOrder _).flatMap (·.visits))).map (·.name) = _
    rw [LoadReport.inOrder_of_ascending (by decide)]
    decide
  have h24 : 0 < 24 := by decide
  have h28 : 0 < 28 := by decide
  obtain ⟨hcut, hagain, hload, hstaged⟩ := names_fillColumns mixedName h24 mixedRun mixedStages
  obtain ⟨hfits, -, -, -⟩ := names_fillColumns mixedName h28 mixedRun mixedStages
  rw [hnames] at hload
  refine ⟨?_, hfits.eq_iff.mpr (by decide), hagain 28 (by decide), hload, hstaged⟩
  rw [← String.toList_inj, hcut.toList_eq (by decide)]
  decide

end LoadBench.Report
