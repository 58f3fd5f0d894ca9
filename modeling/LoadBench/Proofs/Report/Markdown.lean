import Mathlib.Tactic
import LoadBench.Report.ScenarioText

/-!
# The Markdown table of scenario runs

A row has nine cells: the name of a scenario and eight figures. A figure is written with letters,
digits, points, minus signs and percent signs, whatever number it is, and upright lines in the name
are replaced, so every row has the ten upright lines that hold nine cells. Characters that end a
line are not replaced: a name with such a character breaks its row, and the table has one line more
for each of them.

Results:
* `Text.pieces_joinLines`: joined lines are split where they were joined, and within the lines.
* `Report.isFigure_fixed`: what a number is written with.
* `Report.count_markdownRow`: a row has ten upright lines.
* `Report.markdownTable_wellFormed`: how many lines a table has, and when there is one for each run.
-/

namespace LoadBench

/-! ## Lines -/

namespace Text

/-- The pieces of a text between the characters that end a line. The last piece is what stands
    behind all of them. -/
def pieces (p : Char → Bool) (s : String) : List String := (s.toList.splitOnP p).map .ofList

variable {p : Char → Bool} {s : String}

theorem pieces_of_forall (h : ∀ c ∈ s.toList, p c = false) : pieces p s = [s] := by
  rw [pieces, List.splitOnP_eq_singleton h, List.map_singleton, String.ofList_toList]

theorem length_splitOnP (cs : List Char) : (cs.splitOnP p).length = cs.countP p + 1 := by
  induction cs with
  | nil => rfl
  | cons c cs ih =>
    rw [List.splitOnP_cons_eq_if_modifyHead, List.countP_cons]
    split_ifs with hc
    · rw [List.length_cons, ih]
    · rw [List.length_modifyHead, ih]

theorem length_pieces : (pieces p s).length = s.toList.countP p + 1 := by
  rw [pieces, List.length_map, length_splitOnP]

/-- Joined lines are split where they were joined, and within the lines. -/
theorem pieces_joinLines (hp : p '\n' = true) (l : String) (ls : List String) :
    pieces p (joinLines (l :: ls)) = (l :: ls).flatMap (pieces p) := by
  induction ls generalizing l with
  | nil => simp [joinLines, String.intercalate_singleton]
  | cons l' ls ih =>
    have hjoin : (joinLines (l :: l' :: ls)).toList =
        l.toList ++ '\n' :: (joinLines (l' :: ls)).toList := by
      simp [joinLines, String.intercalate_cons_cons]
    rw [List.flatMap_cons, ← ih l', pieces, hjoin, List.splitOnP_append_cons _ _ hp,
      List.map_append]
    rfl

end Text

namespace Report

open Binary64 (dyad?)
open Text (pieces)

/-! ## Figures -/

/-- The characters that figures are written with. -/
def isFigureChar (c : Char) : Bool := c.isAlphanum || c == '.' || c == '-' || c == '%'

/-- A text is written like a figure. -/
def IsFigure (s : String) : Prop := ∀ c ∈ s.toList, isFigureChar c = true

theorem isFigure_of_all {s : String} (h : s.toList.all isFigureChar = true) : IsFigure s :=
  List.all_eq_true.mp h

theorem isFigureChar_of_mem_digitsOf {n : Nat} {c : Char} (h : c ∈ digitsOf n) :
    isFigureChar c = true := by
  have hdigit : c.isDigit = true := Nat.isDigit_of_mem_toDigits (by decide) (by decide) h
  simp [isFigureChar, Char.isAlphanum, hdigit]

theorem isFigureChar_of_mem_zeroPadded {width n : Nat} {c : Char} (h : c ∈ zeroPadded width n) :
    isFigureChar c = true := by
  rcases List.mem_append.mp h with hzero | hdigit
  · rw [List.eq_of_mem_replicate hzero]
    decide
  · exact isFigureChar_of_mem_digitsOf hdigit

theorem isFigure_toString (n : Nat) : IsFigure (toString n) := by
  intro c hc
  rw [Nat.toString_eq_repr, Nat.repr, String.toList_ofList] at hc
  exact isFigureChar_of_mem_digitsOf hc

theorem IsFigure.append {s t : String} (hs : IsFigure s) (ht : IsFigure t) : IsFigure (s ++ t) := by
  intro c hc
  rw [String.toList_append] at hc
  exact (List.mem_append.mp hc).elim (hs c) (ht c)

/-- What a number is written with, also one that is infinite or none at all. -/
theorem isFigure_fixed (places : Nat) (x : Float) : IsFigure (fixed places x) := by
  unfold fixed
  cases dyad? x with
  | none =>
    simp only
    split_ifs <;> exact isFigure_of_all (by decide)
  | some d =>
    simp only
    have hdigits : ∀ c ∈ zeroPadded (places + 1) (d.scale (Nat.pow 10 places)).wholeEven,
        isFigureChar c = true := fun c hc => isFigureChar_of_mem_zeroPadded hc
    -- the point may stand anywhere among the digits
    generalize zeroPadded (places + 1) (d.scale (Nat.pow 10 places)).wholeEven = ds at hdigits ⊢
    have hwhole : ∀ c ∈ ds.take (ds.length - places), isFigureChar c = true :=
      fun c hc => hdigits c (List.mem_of_mem_take hc)
    have hpoint : ∀ c ∈ ds.take (ds.length - places) ++ '.' :: ds.drop (ds.length - places),
        isFigureChar c = true := by
      refine List.forall_mem_append.mpr ⟨hwhole, List.forall_mem_cons.mpr ⟨by decide, ?_⟩⟩
      exact fun c hc => hdigits c (List.mem_of_mem_drop hc)
    have hminus {cs : List Char} (hcs : ∀ c ∈ cs, isFigureChar c = true) :
        ∀ c ∈ '-' :: cs, isFigureChar c = true := List.forall_mem_cons.mpr ⟨by decide, hcs⟩
    intro c hc
    rw [String.toList_ofList] at hc
    split_ifs at hc
    · exact hminus hwhole c hc
    · exact hminus hpoint c hc
    · exact hwhole c hc
    · exact hpoint c hc

theorem isFigure_percent (places : Nat) (share : Float) : IsFigure (percent places share) :=
  (isFigure_fixed places _).append (isFigure_of_all (by decide))

/-! ## Rows -/

variable {p : Char → Bool}

theorem countP_intercalate (separator : String) (cell : String) (cells : List String) :
    (separator.intercalate (cell :: cells)).toList.countP p =
      cell.toList.countP p +
        (cells.map fun c => separator.toList.countP p + c.toList.countP p).sum := by
  induction cells generalizing cell with
  | nil => simp
  | cons c cells ih =>
    rw [String.intercalate_cons_cons, String.toList_append, String.toList_append,
      List.countP_append, List.countP_append, ih, List.map_cons, List.sum_cons]
    omega

/-- The figures of a run, in the order of its row. -/
def rowFigures (r : ScenarioReport) : List String :=
  [toString r.iterations, toString r.totalRequests, percent 1 r.successRate,
    fixed 1 r.averageRequestMs, fixed 1 r.latency.p95, fixed 1 r.efficiency ++ "%",
    fixed 1 r.overheadMs, fixed 2 r.analysis.throughput]

theorem markdownRow_eq (r : ScenarioReport) :
    markdownRow r = markdownCells (cellText r.scenarioName :: rowFigures r) := rfl

theorem isFigure_of_mem_rowFigures (r : ScenarioReport) : ∀ t ∈ rowFigures r, IsFigure t := by
  simp only [rowFigures, List.forall_mem_cons]
  exact ⟨isFigure_toString _, isFigure_toString _, isFigure_percent _ _, isFigure_fixed _ _,
    isFigure_fixed _ _, (isFigure_fixed _ _).append (isFigure_of_all (by decide)),
    isFigure_fixed _ _, isFigure_fixed _ _, by simp⟩

/-- Of characters that figures are not written with, a row has those of its first cell and those
    around its cells. -/
theorem countP_markdownRow (hp : ∀ c, isFigureChar c = true → p c = false) (r : ScenarioReport) :
    (markdownRow r).toList.countP p =
      (cellText r.scenarioName).toList.countP p + 8 * " | ".toList.countP p +
        ("| ".toList.countP p + " |".toList.countP p) := by
  have hnone : ∀ t ∈ rowFigures r, t.toList.countP p = 0 := by
    intro t ht
    rw [List.countP_eq_zero]
    intro c hc
    simp [hp c (isFigure_of_mem_rowFigures r t ht c hc)]
  have hsum : ((rowFigures r).map fun t => " | ".toList.countP p + t.toList.countP p).sum =
      8 * " | ".toList.countP p := by
    rw [List.map_congr_left fun t ht => by rw [hnone t ht, Nat.add_zero], List.map_const',
      List.sum_replicate]
    rfl
  rw [markdownRow_eq, markdownCells, String.toList_append, String.toList_append, List.countP_append,
    List.countP_append, countP_intercalate, hsum]
  omega

theorem count_cellText (s : String) : (cellText s).toList.count '|' = 0 := by
  rw [cellText, String.toList_ofList, List.count_eq_zero]
  intro h
  obtain ⟨c, -, hc⟩ := List.mem_map.mp h
  split_ifs at hc with hbar
  · cases hc
  · simp [hc] at hbar

/-- A row has ten upright lines, which hold nine cells. -/
theorem count_markdownRow (r : ScenarioReport) : (markdownRow r).toList.count '|' = 10 := by
  have hfigure : ∀ c, isFigureChar c = true → (c == '|') = false := by
    intro c hc
    rw [beq_eq_false_iff_ne]
    rintro rfl
    revert hc
    decide
  rw [List.count, countP_markdownRow hfigure, ← List.count, count_cellText]
  decide

/-! ## The lines of a table -/

/-- What ends a line: a line feed alone, or a carriage return as well. -/
inductive LineEnds
  | feed
  | feedOrReturn
deriving DecidableEq, Repr

/-- The character ends a line. -/
def LineEnds.isEnd : LineEnds → Char → Bool
  | feed, c => c == '\n'
  | feedOrReturn, c => c == '\n' || c == '\r'

variable (ends : LineEnds)

theorem LineEnds.isEnd_feed : ends.isEnd '\n' = true := by cases ends <;> decide

theorem LineEnds.eq_of_isEnd {c : Char} (h : ends.isEnd c = true) : c = '\n' ∨ c = '\r' := by
  cases ends with
  | feed => exact .inl (beq_iff_eq.mp h)
  | feedOrReturn => simpa [isEnd] using h

theorem isEnd_of_isFigureChar (c : Char) (hc : isFigureChar c = true) : ends.isEnd c = false := by
  rw [← Bool.not_eq_true]
  intro h
  revert hc
  rcases ends.eq_of_isEnd h with rfl | rfl <;> decide

/-- No character that ends a line is replaced in a name. -/
theorem countP_cellText (s : String) :
    (cellText s).toList.countP ends.isEnd = s.toList.countP ends.isEnd := by
  have hslash : ends.isEnd '/' = false := by cases ends <;> decide
  have hbar : ends.isEnd '|' = false := by cases ends <;> decide
  rw [cellText, String.toList_ofList, List.countP_map]
  refine List.countP_congr fun c _ => ?_
  simp only [Function.comp_apply]
  split_ifs with h
  · rw [beq_iff_eq.mp h, hslash, hbar]
  · rfl

/-- A row has the line ends of the name. -/
theorem countP_isEnd_markdownRow (r : ScenarioReport) :
    (markdownRow r).toList.countP ends.isEnd = r.scenarioName.toList.countP ends.isEnd := by
  rw [countP_markdownRow (isEnd_of_isFigureChar ends), countP_cellText]
  cases ends <;> rfl

/-- A table has its heading, an empty line and two lines of column names, and behind them the lines
    of its rows. -/
theorem pieces_markdownTable (runs : List ScenarioReport) :
    pieces ends.isEnd (markdownTable runs) =
      ["## Scenario Results", ""] ++ markdownHeader ++
        runs.flatMap (fun r => pieces ends.isEnd (markdownRow r)) ++ [""] := by
  have hjoin : pieces ends.isEnd (markdownTable runs) =
      (["## Scenario Results", ""] ++ markdownHeader ++ runs.map markdownRow ++ [""]).flatMap
        (pieces ends.isEnd) := Text.pieces_joinLines ends.isEnd_feed _ _
  have hwhole : ∀ lines : List String, (∀ line ∈ lines, line.toList.all (!ends.isEnd ·) = true) →
      lines.flatMap (pieces ends.isEnd) = lines := by
    intro lines hlines
    have hpiece : ∀ line ∈ lines, pieces ends.isEnd line = [line] :=
      fun line hline => Text.pieces_of_forall (by simpa using hlines line hline)
    rw [List.flatMap_congr hpiece, List.flatMap_singleton']
  have hfront := hwhole (["## Scenario Results", ""] ++ markdownHeader)
    (by cases ends <;> decide +kernel)
  have hback := hwhole [""] (by cases ends <;> decide)
  rw [hjoin, List.flatMap_append, List.flatMap_append, hfront, hback, List.flatMap_map]

theorem length_pieces_markdownTable (runs : List ScenarioReport) :
    (pieces ends.isEnd (markdownTable runs)).length =
      runs.length + (runs.map fun r => r.scenarioName.toList.countP ends.isEnd).sum + 5 := by
  have hrows : (runs.flatMap fun r => pieces ends.isEnd (markdownRow r)).length =
      runs.length + (runs.map fun r => r.scenarioName.toList.countP ends.isEnd).sum := by
    induction runs with
    | nil => rfl
    | cons r runs ih =>
      rw [List.flatMap_cons, List.length_append, ih, Text.length_pieces,
        countP_isEnd_markdownRow, List.length_cons, List.map_cons, List.sum_cons]
      omega
  have hheader : markdownHeader.length = 2 := rfl
  rw [pieces_markdownTable, List.length_append, List.length_append, List.length_append, hrows,
    hheader]
  simp only [List.length_cons, List.length_nil]
  omega

/-- There is one line for each run if, and only if, no name breaks its row. -/
theorem pieces_markdownTable_iff (runs : List ScenarioReport) :
    pieces ends.isEnd (markdownTable runs) =
        ["## Scenario Results", ""] ++ markdownHeader ++ runs.map markdownRow ++ [""] ↔
      ∀ r ∈ runs, ∀ c ∈ r.scenarioName.toList, ends.isEnd c = false := by
  constructor
  · intro h
    have hlength := length_pieces_markdownTable ends runs
    have hheader : markdownHeader.length = 2 := rfl
    simp only [h, List.length_append, List.length_map, List.length_cons, List.length_nil,
      hheader] at hlength
    have hsum : (runs.map fun r => r.scenarioName.toList.countP ends.isEnd).sum = 0 := by omega
    intro r hr c hc
    have hzero := List.sum_eq_zero_iff.mp hsum _ (List.mem_map_of_mem hr)
    simpa using List.countP_eq_zero.mp hzero c hc
  · intro h
    have hrow : ∀ r ∈ runs, pieces ends.isEnd (markdownRow r) = [markdownRow r] := by
      intro r hr
      have hzero : (markdownRow r).toList.countP ends.isEnd = 0 := by
        rw [countP_isEnd_markdownRow, List.countP_eq_zero]
        intro c hc
        simp [h r hr c hc]
      exact Text.pieces_of_forall fun c hc => by simpa using List.countP_eq_zero.mp hzero c hc
    rw [pieces_markdownTable, List.flatMap_congr hrow, List.map_eq_flatMap]

/-- The rows of a table have ten upright lines, and so have the column names. The table has a line
    for each run, one more for each character in a name that ends a line, and five others, the last
    of them empty. So its lines are the column names and one row for each run, in order, if, and
    only if, no name has such a character. -/
theorem markdownTable_wellFormed (runs : List ScenarioReport) :
    (∀ line ∈ markdownHeader ++ runs.map markdownRow, line.toList.count '|' = 10) ∧
    (pieces ends.isEnd (markdownTable runs)).length =
      runs.length + (runs.map fun r => r.scenarioName.toList.countP ends.isEnd).sum + 5 ∧
    (pieces ends.isEnd (markdownTable runs) =
        ["## Scenario Results", ""] ++ markdownHeader ++ runs.map markdownRow ++ [""] ↔
      ∀ r ∈ runs, ∀ c ∈ r.scenarioName.toList, ends.isEnd c = false) := by
  refine ⟨?_, length_pieces_markdownTable ends runs, pieces_markdownTable_iff ends runs⟩
  refine List.forall_mem_append.mpr ⟨by decide +kernel, ?_⟩
  intro line hline
  obtain ⟨r, -, rfl⟩ := List.mem_map.mp hline
  exact count_markdownRow r

/-- The report on no iterations of a scenario with a line feed in its name. -/
def brokenName : ScenarioReport := .ofIterations (.new "a\nb" "") [] 0.0

/-- A table does not always have one line for each run behind its column names. -/
theorem not_markdownTable_wellFormed : ¬ ∀ runs : List ScenarioReport, ∃ rows : List String,
    pieces LineEnds.feed.isEnd (markdownTable runs) =
      ["## Scenario Results", ""] ++ markdownHeader ++ rows ++ [""] ∧
    rows.length = runs.length ∧ ∀ row ∈ rows, row.toList.count '|' = 10 := by
  intro h
  obtain ⟨rows, hlines, hrows, -⟩ := h [brokenName]
  have hlength := length_pieces_markdownTable .feed [brokenName]
  have hbreaks : brokenName.scenarioName.toList.countP LineEnds.feed.isEnd = 1 := by decide
  have hheader : markdownHeader.length = 2 := rfl
  simp only [hlines, List.length_append, List.length_cons, List.length_nil, hheader, hrows,
    List.map_cons, List.map_nil, List.sum_cons, List.sum_nil, hbreaks] at hlength
  omega

end Report

end LoadBench
