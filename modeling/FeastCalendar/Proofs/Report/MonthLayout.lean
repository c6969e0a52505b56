import FeastCalendar.Proofs.Civil.Search
import FeastCalendar.Proofs.Report.MonthGrid
import FeastCalendar.Proofs.Rule.Failing

/-!
The whole sheet of a month. Its rows are filled one cell after another, blanks first up to the column
of the first day, and a row that is full is put away; so every day comes once, in its turn and in
the column of its weekday. The step past the last day of a month is taken also where there is no day
to step to.
-/

namespace FeastCalendar
open Civil (Date)

namespace MonthGrid

section Filling

/-- Rows that are filled cell by cell: those that are full, and the one at hand. -/
structure Filling where
  full : List (List Cell)
  row : List Cell

namespace Filling

def empty : Filling := ⟨[], []⟩

def put (filling : Filling) (shown : Cell) : Filling :=
  let row := filling.row ++ [shown]
  if row.length = 7 then ⟨filling.full ++ [row], []⟩ else ⟨filling.full, row⟩

def rows (filling : Filling) : List (List Cell) :=
  if filling.row = [] then filling.full
  else filling.full ++ [filling.row ++ List.replicate (7 - filling.row.length) blank]

/-- Every row that is put away is full, that at hand is not, and all cells are there in order. -/
structure Holds (filling : Filling) (cells : List Cell) : Prop where
  seven : ∀ row ∈ filling.full, row.length = 7
  few : filling.row.length < 7
  all : filling.full.flatten ++ filling.row = cells

theorem holds_empty : empty.Holds [] := ⟨nofun, by decide, rfl⟩

theorem Holds.put {filling : Filling} {cells : List Cell} (holds : filling.Holds cells)
    (shown : Cell) : (filling.put shown).Holds (cells ++ [shown]) := by
  obtain ⟨seven, few, all⟩ := holds
  unfold Filling.put
  dsimp only
  split
  next filled =>
    refine ⟨?_, Nat.succ_pos 6, ?_⟩
    · intro row member
      rcases List.mem_append.mp member with before | own
      · exact seven row before
      · rwa [List.mem_singleton.mp own]
    · simp only [List.flatten_append, List.flatten_cons, List.flatten_nil, List.append_nil, ← all,
        List.append_assoc]
  next unfilled =>
    refine ⟨seven, ?_, ?_⟩
    · rw [List.length_append, List.length_singleton] at unfilled ⊢
      omega
    · rw [← List.append_assoc, all]

theorem holds_foldl (cells : List Cell) : (cells.foldl put empty).Holds cells := by
  -- On the cells from the last back, which is put in last.
  induction cells using List.reverseRecOn with
  | nil => exact holds_empty
  | append_singleton before shown ih =>
    rw [List.foldl_append]
    exact ih.put shown

theorem Holds.rows {filling : Filling} {cells : List Cell} (holds : filling.Holds cells) :
    (∀ row ∈ filling.rows, row.length = 7) ∧
      ∃ blanks < 7, filling.rows.flatten = cells ++ List.replicate blanks blank := by
  obtain ⟨seven, few, all⟩ := holds
  unfold Filling.rows
  split
  next done =>
    refine ⟨seven, 0, by decide, ?_⟩
    rw [← all, done, List.replicate_zero]
    simp only [List.append_nil]
  next begun =>
    have some := List.length_pos_iff.mpr begun
    refine ⟨?_, 7 - filling.row.length, by omega, ?_⟩
    · intro row member
      rcases List.mem_append.mp member with before | own
      · exact seven row before
      · rw [List.mem_singleton.mp own, List.length_append, List.length_replicate]
        omega
    · simp only [List.flatten_append, List.flatten_cons, List.flatten_nil, List.append_nil, ← all,
        List.append_assoc]

end Filling

theorem rows_eq_of_flatten {rows : List (List Cell)} (seven : ∀ row ∈ rows, row.length = 7) :
    rows = (List.range rows.length).map fun row =>
      (List.range 7).map fun column => rows.flatten.getD (7 * row + column) blank := by
  induction rows with
  | nil => rfl
  | cons first rest ih =>
    obtain ⟨own, later⟩ := List.forall_mem_cons.mp seven
    rw [List.length_cons, @List.range_succ_eq_map rest.length, List.map_cons, List.map_map]
    congr 1
    · apply List.ext_getElem
      · rw [own, List.length_map, List.length_range]
      · intro column inside _
        simp [List.getElem?_append_left inside, List.getElem?_eq_getElem inside]
    · refine (ih later).trans (List.map_congr_left fun row _ => ?_)
      rw [Function.comp_apply]
      refine List.map_congr_left fun column _ => ?_
      have past : 7 * (row + 1) + column = first.length + (7 * row + column) := by omega
      simp [past, List.getElem?_append_right]

theorem weeks_eq_rows (firstColumn : Nat) (days : List Cell) :
    weeks firstColumn days =
      ((List.replicate firstColumn blank ++ days).foldl Filling.put Filling.empty).rows := by
  obtain ⟨seven, blanks, few, all⟩ :=
    (Filling.holds_foldl (List.replicate firstColumn blank ++ days)).rows
  have total : (List.replicate firstColumn blank ++ days).length + blanks =
      7 * ((List.replicate firstColumn blank ++ days).foldl Filling.put Filling.empty).rows.length := by
    have lengths := congrArg List.length all
    rw [List.length_append, List.length_replicate, List.length_flatten,
      List.map_congr_left seven, List.map_const', List.sum_replicate_nat] at lengths
    omega
  rw [rows_eq_of_flatten seven, all, weeks]
  have rows : ((List.replicate firstColumn blank ++ days).length + 6) / 7 =
      ((List.replicate firstColumn blank ++ days).foldl Filling.put Filling.empty).rows.length := by
    omega
  rw [rows]
  refine List.map_congr_left fun row _ => List.map_congr_left fun column _ => ?_
  rw [List.getD_eq_getElem?_getD, List.getD_eq_getElem?_getD]
  generalize List.replicate firstColumn blank ++ days = cells
  by_cases inside : 7 * row + column < cells.length
  · rw [List.getElem?_append_left inside]
  · rw [List.getElem?_append_right (by omega), List.getElem?_eq_none (by omega)]
    rw [List.getElem?_replicate]
    split <;> rfl

end Filling

section Cells

def numberText (shown : Cell) : String := String.ofList (shown.1.toList.take 2)

def dateCell (table : ObservanceTable) (novenas : List NovenaInstance) (date : Date) : Cell :=
  dayCell date (Day.mark ⟨date, none, table.on date⟩)
    (novenas.countP fun window => window.contains date)

theorem numberText_dateCell (table : ObservanceTable) (novenas : List NovenaInstance)
    (date : Date) :
    numberText (dateCell table novenas date) = Text.padLeft 2 (Text.intText date.day) := by
  rw [numberText, dateCell, take_fst_dayCell, String.ofList_toList]

theorem dateCell_ne_blank (table : ObservanceTable) (novenas : List NovenaInstance) (date : Date) :
    dateCell table novenas date ≠ blank := by
  have numbers : ∀ day < 32, 1 ≤ day →
      Text.padLeft 2 (Text.intText (day : Nat)) ≠ numberText blank := by decide +kernel
  have days := date.day_bounds
  have length := Civil.monthLength_le date.year date.month
  have number := numbers date.day.toNat (by omega) (by omega)
  rw [Int.toNat_of_nonneg (by omega)] at number
  intro same
  exact number ((numberText_dateCell table novenas date).symm.trans (congrArg numberText same))

/-- The rows show a month: seven cells of one width in each; the days numbered through, and blanks
for the rest; every day in the column of its weekday; and no row without a day. -/
structure Shows (year month : Int) (table : ObservanceTable) (novenas : List NovenaInstance)
    (rows : List (List Cell)) : Prop where
  seven : ∀ row ∈ rows, row.length = 7 ∧ ∀ shown ∈ row, Fits shown
  numbered : (rows.flatten.filter fun shown => shown ≠ blank).map numberText =
    (List.range (Civil.monthLength year month).toNat).map fun (days : Nat) =>
      Text.padLeft 2 (Text.intText (days + 1))
  placed : ∀ date : Date, date.year = year → date.month = month →
    ∃ row ∈ rows, row[date.weekday.toNat]? = some (dateCell table novenas date) ∧
      numberText (dateCell table novenas date) = Text.padLeft 2 (Text.intText date.day)
  busy : ∀ row ∈ rows, ∃ shown ∈ row, shown ≠ blank

def monthNotes (year month : Int) (table : ObservanceTable) : List String :=
  (table.filter fun entry => entry.1.year = year ∧ entry.1.month = month).flatMap fun entry =>
    notes ⟨entry.1, none, entry.2⟩

end Cells

section Dates

variable {year month : Int} {dates : List Date}

theorem IsMonth.length_eq (isMonth : IsMonth year month dates) :
    dates.length = (Civil.monthLength year month).toNat := by
  simpa using congrArg List.length isMonth

theorem IsMonth.ofYmd_getElem (isMonth : IsMonth year month dates) {i : Nat}
    (inside : i < dates.length) : Date.ofYmd year month (i + 1) = .ok dates[i] := by
  have here := congrArg (fun dates => dates[i]?) isMonth
  simp only [List.getElem?_map] at here
  rw [List.getElem?_eq_getElem inside, List.getElem?_range (isMonth.length_eq ▸ inside)] at here
  exact (Option.some.inj here).symm

theorem IsMonth.ascending (isMonth : IsMonth year month dates) :
    Date.Ascending (fun date => date.year = year ∧ date.month = month) dates := by
  constructor
  · refine List.pairwise_iff_getElem.mpr fun i j here there before => ?_
    have left := (Date.number_of_ofYmd (isMonth.ofYmd_getElem here)).1
    have right := (Date.number_of_ofYmd (isMonth.ofYmd_getElem there)).1
    rw [Civil.dayNumber_eq_first] at left right
    rw [Date.lt_iff]
    omega
  · intro date
    constructor
    · intro listed
      obtain ⟨day, named⟩ := isMonth.exists_day listed
      obtain ⟨inYear, inMonth, -⟩ := Date.parts_of_ofYmd named
      exact ⟨inYear, inMonth⟩
    · rintro ⟨rfl, rfl⟩
      exact List.mem_of_getElem? (isMonth.getElem? date.ofYmd_parts)

theorem IsMonth.map_numberText (isMonth : IsMonth year month dates) (table : ObservanceTable)
    (novenas : List NovenaInstance) :
    (dates.map (dateCell table novenas)).map numberText =
      (List.range (Civil.monthLength year month).toNat).map fun (days : Nat) =>
        Text.padLeft 2 (Text.intText (days + 1)) := by
  apply List.ext_getElem
  · simp only [List.length_map, List.length_range, isMonth.length_eq]
  · intro i here there
    rw [List.length_map, List.length_map] at here
    simp only [List.getElem_map, List.getElem_range, numberText_dateCell,
      (Date.parts_of_ofYmd (isMonth.ofYmd_getElem here)).2.2]

theorem add?_one_eq_none_iff {date : Date} : date.add? 1 = none ↔ date = Date.last := by
  have low := date.one_le
  have high := date.le_last
  rw [Date.add?_eq_none_iff, Date.ext_iff]
  show _ ↔ date.number = Civil.lastDay
  omega

end Dates

section Rows

variable {year month : Int} {dates : List Date} {firstColumn : Nat} {days : List Cell}

theorem flatten_weeks (firstColumn : Nat) (days : List Cell) :
    (∀ row ∈ weeks firstColumn days, row.length = 7) ∧ ∃ blanks < 7,
      (weeks firstColumn days).flatten =
        List.replicate firstColumn blank ++ days ++ List.replicate blanks blank := by
  rw [weeks_eq_rows]
  exact (Filling.holds_foldl _).rows

theorem fits_weeks (fit : ∀ shown ∈ days, Fits shown) :
    ∀ row ∈ weeks firstColumn days, ∀ shown ∈ row, Fits shown := by
  intro row listed shown member
  obtain ⟨-, blanks, -, all⟩ := flatten_weeks firstColumn days
  have among := List.mem_flatten_of_mem listed member
  rw [all, List.mem_append, List.mem_append] at among
  rcases among with (before | own) | after
  · rw [List.eq_of_mem_replicate before]
    exact fits_cell "" ""
  · exact fit shown own
  · rw [List.eq_of_mem_replicate after]
    exact fits_cell "" ""

theorem filter_weeks (shows : ∀ shown ∈ days, shown ≠ blank) :
    ((weeks firstColumn days).flatten.filter fun shown => shown ≠ blank) = days := by
  obtain ⟨-, blanks, -, all⟩ := flatten_weeks firstColumn days
  have own : (days.filter fun shown => shown ≠ blank) = days :=
    List.filter_eq_self.mpr fun shown member => decide_eq_true (shows shown member)
  rw [all, List.filter_append, List.filter_append, own]
  simp

/-- Fewer blanks than a row has cells stand before the days, and fewer after them. -/
theorem busy_weeks (column : firstColumn < 7) (some : days ≠ [])
    (shows : ∀ shown ∈ days, shown ≠ blank) :
    ∀ row ∈ weeks firstColumn days, ∃ shown ∈ row, shown ≠ blank := by
  intro row listed
  obtain ⟨r, inside, same⟩ := List.getElem_of_mem listed
  obtain ⟨seven, blanks, few, all⟩ := flatten_weeks firstColumn days
  have total := congrArg List.length all
  rw [List.length_flatten, List.map_congr_left seven, List.map_const', List.sum_replicate_nat,
    List.length_append, List.length_append, List.length_replicate, List.length_replicate] at total
  have many := List.length_pos_iff.mpr some
  -- The first place of the row, or that of the first day if it comes later.
  obtain ⟨place, inRow, notBefore, notAfter⟩ : ∃ place, place / 7 = r ∧ firstColumn ≤ place ∧
      place - firstColumn < days.length :=
    ⟨max (7 * r) firstColumn, by omega, by omega, by omega⟩
  have here : (List.replicate firstColumn blank ++ days)[place]? =
      Option.some days[place - firstColumn] := by
    rw [List.getElem?_append_right (by simpa using notBefore), List.length_replicate,
      List.getElem?_eq_getElem notAfter]
  obtain ⟨week, found, shown, -⟩ := exists_week firstColumn days here
  rw [inRow, List.getElem?_eq_getElem inside, same] at found
  cases found
  exact ⟨_, List.mem_of_getElem? shown, shows _ (List.getElem_mem notAfter)⟩

theorem shows_weeks (isMonth : IsMonth year month dates) {first : Date}
    (begins : Date.ofYmd year month 1 = .ok first) (table : ObservanceTable)
    (novenas : List NovenaInstance) :
    Shows year month table novenas
      (weeks first.weekday.toNat (dates.map (dateCell table novenas))) := by
  have column : first.weekday.toNat < 7 := by
    have bounds := first.weekday_bounds
    omega
  have some : dates.map (dateCell table novenas) ≠ [] := by
    have listed := List.mem_of_getElem? (isMonth.getElem? begins)
    exact List.ne_nil_of_mem (List.mem_map_of_mem listed)
  have shows : ∀ shown ∈ dates.map (dateCell table novenas), shown ≠ blank := by
    simp only [List.forall_mem_map]
    exact fun date _ => dateCell_ne_blank table novenas date
  have fit : ∀ shown ∈ dates.map (dateCell table novenas), Fits shown := by
    simp only [List.forall_mem_map]
    exact fun date _ => fits_cell _ _
  refine ⟨fun row listed => ⟨(flatten_weeks _ _).1 row listed, fits_weeks fit row listed⟩, ?_, ?_,
    busy_weeks column some shows⟩
  · rw [filter_weeks shows, isMonth.map_numberText]
  · rintro date rfl rfl
    have here : (dates.map (dateCell table novenas))[(date.day - 1).toNat]? =
        Option.some (dateCell table novenas date) := by
      rw [List.getElem?_map, isMonth.getElem? date.ofYmd_parts, Option.map_some]
    obtain ⟨week, row, column, -⟩ := exists_week_of_date here
    rw [weekday_first begins date.ofYmd_parts]
    exact ⟨week, List.mem_of_getElem? row, column, numberText_dateCell table novenas date⟩

end Rows

section Notes

variable {year month : Int} {dates : List Date} {table : ObservanceTable}

theorem on_eq_nil {emissions : List Emission} {date : Date}
    (unnamed : date ∉ ObservanceTable.dates emissions) :
    (ObservanceTable.ofEmissions emissions).on date = [] := by
  rw [List.eq_nil_iff_forall_not_mem]
  intro observance stands
  exact unnamed (ObservanceTable.mem_dates.mpr
    ⟨observance, ObservanceTable.emitted_of_mem_on stands⟩)

theorem flatMap_filter_of_nil {α β : Type} {chosen : α → Bool} {lines : α → List β}
    {given : List α} (silent : ∀ value ∈ given, chosen value = false → lines value = []) :
    (given.filter chosen).flatMap lines = given.flatMap lines := by
  induction given with
  | nil => rfl
  | cons first rest ih =>
    obtain ⟨own, later⟩ := List.forall_mem_cons.mp silent
    rw [List.filter_cons, List.flatMap_cons]
    split
    next => rw [List.flatMap_cons, ih later]
    next left => rw [own (Bool.eq_false_iff.mpr left), List.nil_append, ih later]

theorem flatMap_notes (isMonth : IsMonth year month dates) (emissions : List Emission) :
    (dates.flatMap fun date => notes ⟨date, none, (ObservanceTable.ofEmissions emissions).on date⟩) =
      monthNotes year month (.ofEmissions emissions) := by
  -- A day that the table does not name has no notes, and the days that it does are its own.
  have named : (dates.filter fun date => date ∈ ObservanceTable.dates emissions) =
      (ObservanceTable.dates emissions).filter fun date => date.year = year ∧ date.month = month := by
    have fromMonth : Date.Ascending
        (fun date => (date.year = year ∧ date.month = month) ∧ date ∈ ObservanceTable.dates emissions)
        (dates.filter fun date => date ∈ ObservanceTable.dates emissions) := by
      refine ⟨isMonth.ascending.ordered.filter _, fun date => ?_⟩
      rw [List.mem_filter, isMonth.ascending.mem_iff, decide_eq_true_eq]
    refine fromMonth.unique ⟨(ObservanceTable.pairwise_dates emissions).filter _, fun date => ?_⟩
    rw [List.mem_filter, decide_eq_true_eq, and_comm]
  have silent : ∀ date ∈ dates, decide (date ∈ ObservanceTable.dates emissions) = false →
      notes ⟨date, none, (ObservanceTable.ofEmissions emissions).on date⟩ = [] := by
    intro date _ unnamed
    rw [on_eq_nil (of_decide_eq_false unnamed)]
    rfl
  have entries : ObservanceTable.ofEmissions emissions = (ObservanceTable.dates emissions).map
      fun date => (date, (ObservanceTable.ofEmissions emissions).on date) :=
    List.map_congr_left fun date _ => by rw [ObservanceTable.on_ofEmissions]; rfl
  rw [← flatMap_filter_of_nil silent, named, monthNotes]
  conv_rhs => rw [entries]
  rw [List.filter_map, List.flatMap_map]
  rfl

end Notes

section Building

variable {year month : Int} {dates : List Date} {almanac : Almanac} {table : ObservanceTable}

theorem exists_season {given : Json} {anchors : Anchors} {catalogue : List Celebration}
    (built : ObservanceTable.build given anchors catalogue = .ok table) (date : Date) :
    ∃ season, Season.ofDate date anchors = .ok season := by
  obtain ⟨emissions, emits, -⟩ := ObservanceTable.build_eq_ok.mp built
  obtain ⟨markers, -, -, -, marked, -⟩ := Emission.ofYear_eq_ok.mp emits
  obtain ⟨advent, adventFound, christmas, christmasFound, baptism, baptismFound, -, -, lent,
      lentFound, easter, easterFound, pentecost, pentecostFound, -⟩ := by
    simpa only [Emission.seasonMarkers, Attempt.bind_eq_ok] using marked
  simp only [Season.ofDate, adventFound, christmasFound, baptismFound, lentFound, easterFound,
    pentecostFound, Attempt.ok_bind]
  split_ifs <;> exact ⟨_, rfl⟩

theorem exists_shown (table : ObservanceTable) {anchors : Anchors} {novenas : List NovenaInstance}
    {date : Date}
    (seasoned : ∃ season, Season.ofDate date anchors = .ok season)
    (titled : ∀ window ∈ novenas, window.Titled) :
    ∃ day running, Day.ofTable date anchors table = .ok day ∧
      NovenaCalendar.active novenas date = .ok running ∧
      notes day = notes ⟨date, none, table.on date⟩ ∧
      dayCell date day.mark running.length = dateCell table novenas date := by
  obtain ⟨season, told⟩ := seasoned
  obtain ⟨running, active, length⟩ := exists_active titled date
  refine ⟨⟨date, some season, table.on date⟩, running,
    Attempt.bind_eq_ok.mpr ⟨season, told, rfl⟩, active, rfl, ?_⟩
  rw [length]
  rfl

theorem lines_eq_ok (title : String) {anchors : Anchors} {novenas : List NovenaInstance}
    (seasoned : ∀ date, ∃ season, Season.ofDate date anchors = .ok season)
    (titled : ∀ window ∈ novenas, window.Titled)
    (followed : ∀ date ∈ dates, ∃ next, date.add? 1 = some next) :
    lines title dates anchors table novenas = .ok
      (gridLines title (weeks ((dates.head?.map Date.weekday).getD 0).toNat
        (dates.map (dateCell table novenas))) ++
        dates.flatMap fun date => notes ⟨date, none, table.on date⟩) := by
  have each : ∀ date ∈ dates, ∃ shown, (do
      let day ← Day.ofTable date anchors table
      let running ← NovenaCalendar.active novenas date
      let _ ← inRange (date.add? 1)
      return (day, dayCell date day.mark running.length)) = .ok shown ∧
      (notes shown.1, shown.2) =
        (notes ⟨date, none, table.on date⟩, dateCell table novenas date) := by
    intro date listed
    obtain ⟨day, running, told, active, noted, cell⟩ := exists_shown table (seasoned date) titled
    obtain ⟨next, moved⟩ := followed date listed
    refine ⟨(day, dayCell date day.mark running.length), ?_, by rw [noted, cell]⟩
    simp only [told, active, inRange_eq_ok.mpr moved, Attempt.ok_bind]
    rfl
  obtain ⟨days, made, seen⟩ := Attempt.exists_mapM_map each
  have cells : days.map Prod.snd = dates.map (dateCell table novenas) := by
    have both := congrArg (List.map Prod.snd) seen
    rw [List.map_map, List.map_map] at both
    exact both
  have noted : (days.flatMap fun day => notes day.1) =
      dates.flatMap fun date => notes ⟨date, none, table.on date⟩ := by
    simpa [List.flatMap_map] using congrArg (List.flatMap Prod.fst) seen
  refine Attempt.bind_eq_ok.mpr ⟨days, made, ?_⟩
  rw [cells, noted]
  rfl

theorem lines_eq_error (title : String) {anchors : Anchors} {novenas : List NovenaInstance}
    (seasoned : ∀ date, ∃ season, Season.ofDate date anchors = .ok season)
    (titled : ∀ window ∈ novenas, window.Titled) (reached : Date.last ∈ dates) :
    lines title dates anchors table novenas = .error (.date .beyondRange) := by
  have fails : Attempt.FailsOnly (· = Failure.date .beyondRange)
      (lines title dates anchors table novenas) := by
    refine Attempt.FailsOnly.bind (Attempt.FailsOnly.mapM fun date _ => ?_)
      fun days _ => Attempt.failsOnly_ok _
    obtain ⟨day, running, told, active, -⟩ := exists_shown table (seasoned date) titled
    simp only [told, active, Attempt.ok_bind]
    refine Attempt.FailsOnly.bind (failsOnly_inRange ?_ _) fun next _ => Attempt.failsOnly_ok _
    rfl
  have unshown : ¬∃ shown, lines title dates anchors table novenas = .ok shown := by
    rintro ⟨shown, made⟩
    obtain ⟨days, shownAll, -⟩ := Attempt.bind_eq_ok.mp made
    obtain ⟨shown, -, here⟩ := Attempt.exists_mem_of_mapM shownAll reached
    simp only [Attempt.bind_eq_ok, inRange_eq_ok] at here
    obtain ⟨-, -, -, -, next, moved, -⟩ := here
    rw [add?_one_eq_none_iff.mpr rfl] at moved
    cases moved
  obtain ⟨failure, refused⟩ := Attempt.exists_error_iff.mpr unshown
  rw [refused, fails failure refused]

variable {batch : NovenaBatch}

theorem exists_sources (held : 1 ≤ year ∧ year ≤ 9999) (months : 1 ≤ month ∧ month ≤ 12)
    (observed : almanac.observances (.int year) = .ok table)
    (batched : almanac.batch (.int year) NovenaIndex.bundled = .ok batch) :
    ∃ anchors dates emissions, ObservanceTable.ofEmissions emissions = table ∧
      IsMonth year month dates ∧ (∀ date, ∃ season, Season.ofDate date anchors = .ok season) ∧
      (∀ window ∈ batch.instances, window.Titled) ∧
      build almanac year month = lines (title year month) dates anchors table batch.instances := by
  obtain ⟨dates, dated, isMonth⟩ := exists_monthDates held months
  obtain ⟨anchors, tabled, built⟩ := Attempt.bind_eq_ok.mp observed
  obtain ⟨emissions, -, gathered⟩ := ObservanceTable.build_eq_ok.mp built
  have resolved : NovenaBatch.resolve NovenaIndex.bundled (.int year) (.table anchors) = .ok batch := by
    rw [Almanac.batch, tabled, Attempt.ok_bind] at batched
    exact batched
  refine ⟨.table anchors, dates, emissions, gathered, isMonth, exists_season built,
    NovenaBatch.titled_of_resolve NovenaIndex.titled_bundled resolved, ?_⟩
  simp only [build, dated, observed, batched, tabled, Attempt.ok_bind]

theorem build_lastMonth (observed : almanac.observances (.int 9999) = .ok table)
    (batched : almanac.batch (.int 9999) NovenaIndex.bundled = .ok batch) :
    build almanac 9999 12 = .error (.date .beyondRange) := by
  have december : 1 ≤ (12 : Int) ∧ (12 : Int) ≤ 12 := by decide
  obtain ⟨anchors, dates, emissions, -, isMonth, seasoned, titled, made⟩ :=
    exists_sources (by decide) december observed batched
  have reached : Date.last ∈ dates :=
    (isMonth.ascending.mem_iff Date.last).mpr ⟨by decide, by decide⟩
  rw [made, lines_eq_error _ seasoned titled reached]

/-- Whatever the registry, if the observances and the batch of a year are there then every month of
the year is shown with all its days and notes, but for the month in which the calendar ends: there
the step past its last day fails, and nothing is shown. -/
theorem build_shows (held : 1 ≤ year ∧ year ≤ 9999) (months : 1 ≤ month ∧ month ≤ 12)
    (observed : almanac.observances (.int year) = .ok table)
    (batched : almanac.batch (.int year) NovenaIndex.bundled = .ok batch) :
    (¬(year = 9999 ∧ month = 12) → ∃ rows,
      build almanac year month =
        .ok (gridLines (title year month) rows ++ monthNotes year month table) ∧
      Shows year month table batch.instances rows ∧ (table.map Prod.fst).Pairwise (· < ·)) ∧
    (year = 9999 ∧ month = 12 → build almanac year month = .error (.date .beyondRange)) := by
  constructor
  · intro early
    obtain ⟨anchors, dates, emissions, rfl, isMonth, seasoned, titled, made⟩ :=
      exists_sources held months observed batched
    obtain ⟨first, begins⟩ : ∃ first, Date.ofYmd year month 1 = .ok first := by
      have length : 1 ≤ Civil.monthLength year month := by
        unfold Civil.monthLength
        split_ifs <;> decide
      obtain ⟨first, begins, -⟩ := Date.exists_ofYmd held months ⟨Int.le_refl 1, length⟩
      exact ⟨first, begins⟩
    have followed : ∀ date ∈ dates, ∃ next, date.add? 1 = some next := by
      intro date listed
      obtain ⟨inYear, inMonth⟩ := (isMonth.ascending.mem_iff date).mp listed
      refine Option.ne_none_iff_exists'.mp fun beyond => early ?_
      rw [← inYear, ← inMonth, add?_one_eq_none_iff.mp beyond]
      decide
    have opens : dates.head? = some first := by
      rw [List.head?_eq_getElem?]
      exact isMonth.getElem? begins
    refine ⟨_, ?_, shows_weeks isMonth begins _ batch.instances, ?_⟩
    · rw [made, lines_eq_ok _ seasoned titled followed, flatMap_notes isMonth, opens]
      rfl
    · rw [ObservanceTable.ofEmissions, List.map_map]
      exact List.pairwise_map.mpr (ObservanceTable.pairwise_dates emissions)
  · rintro ⟨rfl, rfl⟩
    exact build_lastMonth observed batched

/-- In December 2025, 25 December is a Thursday. -/
theorem build_shows_december :
    ∃ date table batch, Date.ofYmd 2025 12 25 = .ok date ∧
      Almanac.initial.observances (.int 2025) = .ok table ∧
      Almanac.initial.batch (.int 2025) NovenaIndex.bundled = .ok batch ∧
      ∃ rows, build Almanac.initial 2025 12 =
          .ok (gridLines (title 2025 12) rows ++ monthNotes 2025 12 table) ∧
        Shows 2025 12 table batch.instances rows ∧
        ∃ row ∈ rows, row[4]? = some (dateCell table batch.instances date) := by
  have held : 1 ≤ (2025 : Int) ∧ (2025 : Int) ≤ 9999 := by decide
  have months : 1 ≤ (12 : Int) ∧ (12 : Int) ≤ 12 := by decide
  have named : Date.ofYmd 2025 12 25 = .ok ⟨739610, by decide, by decide⟩ := rfl
  obtain ⟨-, table, batch, -, -, -, observed, batched, -⟩ :=
    @exists_initial 2025 (by decide)
  obtain ⟨rows, made, shows, -⟩ := (build_shows held months observed batched).1 (by decide)
  obtain ⟨row, listed, here, -⟩ := shows.placed _ (Date.parts_of_ofYmd named).1
    (Date.parts_of_ofYmd named).2.1
  exact ⟨_, table, batch, named, observed, batched, rows, made, shows, row, listed, here⟩

/-- Not every month is shown of whose year the observances and the batch are there. -/
theorem not_every_month_shown :
    ¬∀ (almanac : Almanac) (year month : Int) (table : ObservanceTable) (batch : NovenaBatch),
        1 ≤ year ∧ year ≤ 9999 → 1 ≤ month ∧ month ≤ 12 →
        almanac.observances (.int year) = .ok table →
        almanac.batch (.int year) NovenaIndex.bundled = .ok batch →
        ∃ rows, build almanac year month =
            .ok (gridLines (title year month) rows ++ monthNotes year month table) ∧
          Shows year month table batch.instances rows := by
  intro every
  obtain ⟨-, table, batch, -, -, -, observed, batched, -⟩ :=
    @exists_initial 9999 (by decide)
  obtain ⟨rows, made, -⟩ :=
    every Almanac.initial 9999 12 table batch (by decide) (by decide) observed batched
  cases made.symm.trans (build_lastMonth observed batched)

end Building

end MonthGrid

end FeastCalendar
