import FeastCalendar.Proofs.Novena.Bundled
import FeastCalendar.Proofs.Novena.Calendar
import FeastCalendar.Proofs.Observance.Builtin
import FeastCalendar.Proofs.Observance.Sunday
import FeastCalendar.Proofs.Session
import FeastCalendar.Proofs.Text.Blank
import FeastCalendar.Report.MonthGrid

/-!
What a month's grid shows under a date. The cell of a date is found from its weekday and its week,
and the number in it is that of the novenas of the grid's own year that are under way. So it is too
small in the last days of a year, when windows of the year after have begun.
-/

namespace FeastCalendar.MonthGrid
open Civil (Date)

section Layout

theorem take_drop_joinWith {parts : List String} {width : Nat}
    (wide : ∀ part ∈ parts, part.toList.length = width) {i : Nat} {part : String}
    (here : parts[i]? = some part) :
    ((Text.joinWith " " parts).toList.drop ((width + 1) * i)).take width = part.toList := by
  -- On the parts. No blank follows the last of them, so it is a case of its own.
  induction parts generalizing i with
  | nil => cases here
  | cons first rest ih =>
    obtain ⟨own, later⟩ := List.forall_mem_cons.mp wide
    by_cases last : rest = []
    · subst last
      obtain ⟨rfl, rfl⟩ : i = 0 ∧ first = part := by
        cases i with
        | zero => exact ⟨rfl, Option.some.inj here⟩
        | succ i => cases here
      rw [Text.joinWith, Nat.mul_zero, List.drop_zero, ← own, List.take_length]
    · rw [Text.toList_joinWith_cons " " first last]
      cases i with
      | zero =>
        cases here
        rw [Nat.mul_zero, List.drop_zero, List.append_assoc, ← own, List.take_left]
      | succ i =>
        have past : (first.toList ++ " ".toList).length = width + 1 := by
          rw [List.length_append, own]
          rfl
        rw [Nat.mul_succ, Nat.add_comm, ← List.drop_drop, ← past, List.drop_left, past]
        exact ih later here

theorem getElem?_flatMap_weekLines {rows : List (List Cell)} {row : Nat} {week : List Cell}
    (here : rows[row]? = some week) :
    (rows.flatMap weekLines)[2 * row]? = some (Text.joinWith " " (week.map Prod.fst)) ∧
      (rows.flatMap weekLines)[2 * row + 1]? = some (Text.joinWith " " (week.map Prod.snd)) := by
  induction rows generalizing row with
  | nil => cases here
  | cons first rest ih =>
    cases row with
    | zero =>
      cases here
      exact ⟨rfl, rfl⟩
    | succ row => exact ih here

theorem exists_week (firstColumn : Nat) (days : List Cell) {place : Nat} {shown : Cell}
    (here : (List.replicate firstColumn blank ++ days)[place]? = some shown) :
    ∃ week, (weeks firstColumn days)[place / 7]? = some week ∧ week[place % 7]? = some shown ∧
      ∀ other ∈ week, other = blank ∨ other ∈ days := by
  obtain ⟨inside, same⟩ := List.getElem?_eq_some_iff.mp here
  have column := Nat.mod_lt place (by decide : 7 > 0)
  have whole := Nat.div_add_mod place 7
  unfold weeks
  simp only [List.getElem?_map]
  rw [List.getElem?_range (by omega)]
  refine ⟨_, rfl, ?_, ?_⟩
  · rw [List.getElem?_map, List.getElem?_range column, Option.map_some, whole,
      List.getD_eq_getElem?_getD, here]
    rfl
  · intro other member
    obtain ⟨column, -, rfl⟩ := List.mem_map.mp member
    rw [List.getD_eq_getElem?_getD]
    cases found : (List.replicate firstColumn blank ++ days)[7 * (place / 7) + column]? with
    | none => exact Or.inl rfl
    | some other =>
      rcases List.mem_append.mp (List.mem_of_getElem? found) with before | own
      · exact Or.inl (List.eq_of_mem_replicate before)
      · exact Or.inr own

def Fits (shown : Cell) : Prop := shown.1.toList.length = 6 ∧ shown.2.toList.length = 6

theorem toList_padRight_cut (text : String) :
    (Text.padRight cellWidth.toNat (cut text cellWidth)).toList =
      text.toList.take 6 ++ List.replicate (6 - text.toList.length) ' ' := by
  have size : cut text cellWidth = String.ofList (text.toList.take 6) := rfl
  have width : cellWidth.toNat = 6 := rfl
  rw [Text.padRight, size, width, String.toList_append, String.toList_ofList, String.toList_ofList,
    ← String.length_toList, String.toList_ofList, List.length_take]
  congr 2
  omega

theorem fits_cell (top bottom : String) : Fits (cell top bottom cellWidth) := by
  have width : ∀ text, (Text.padRight cellWidth.toNat (cut text cellWidth)).toList.length = 6 := by
    intro text
    rw [toList_padRight_cut, List.length_append, List.length_take, List.length_replicate]
    omega
  exact ⟨width top, width bottom⟩

def textAt (lines : List String) (line place : Nat) : String :=
  String.ofList (((lines.getD line "").toList.drop place).take 6)

def firstColumn (date : Date) : Nat := ((date.weekday - (date.day - 1)) % 7).toNat

/-- The place of a date among the cells of its month, of which seven make a week. -/
def placeOf (date : Date) : Nat := firstColumn date + (date.day - 1).toNat

theorem placeOf_mod (date : Date) : placeOf date % 7 = date.weekday.toNat := by
  have days := date.day_bounds
  have weekdays := date.weekday_bounds
  unfold placeOf firstColumn
  omega

/-- The cell of a date in the lines of its month: below the heads of the columns every week has two
lines, and every weekday seven characters. -/
def cellOf (lines : List String) (date : Date) : Cell :=
  (textAt lines (3 + 2 * (placeOf date / 7)) (7 * date.weekday.toNat),
    textAt lines (3 + (2 * (placeOf date / 7) + 1)) (7 * date.weekday.toNat))

theorem getD_gridLines {title line : String} {rows : List (List Cell)} {notes : List String}
    {n : Nat} (here : (rows.flatMap weekLines)[n]? = some line) :
    (gridLines title rows ++ notes).getD (3 + n) "" = line := by
  obtain ⟨inside, -⟩ := List.getElem?_eq_some_iff.mp here
  have shape : gridLines title rows ++ notes =
      [title, columnHeads, String.ofList (List.replicate columnHeads.length '-')] ++
        (rows.flatMap weekLines ++ ([""] ++ notes)) := by
    simp only [gridLines, List.append_assoc]
  rw [shape, List.getD_eq_getElem?_getD, List.getElem?_append_right (Nat.le_add_right 3 n),
    List.length_cons, List.length_cons, List.length_singleton, Nat.add_sub_cancel_left,
    List.getElem?_append_left inside, here]
  rfl

theorem textAt_week {lines : List String} {line column : Nat} {week : List Cell} {shown : Cell}
    {side : Cell → String} (wide : ∀ other ∈ week, (side other).toList.length = 6)
    (row : lines.getD line "" = Text.joinWith " " (week.map side))
    (here : week[column]? = some shown) : textAt lines line (7 * column) = side shown := by
  have parts : ∀ part ∈ week.map side, part.toList.length = 6 := by
    intro part member
    obtain ⟨other, listed, rfl⟩ := List.mem_map.mp member
    exact wide other listed
  have own : (week.map side)[column]? = some (side shown) := by
    rw [List.getElem?_map, here]
    rfl
  rw [textAt, row, take_drop_joinWith parts own, String.ofList_toList]

theorem exists_week_of_date {cells : List Cell} {date : Date} {shown : Cell}
    (here : cells[(date.day - 1).toNat]? = some shown) :
    ∃ week, (weeks (firstColumn date) cells)[placeOf date / 7]? = some week ∧
      week[date.weekday.toNat]? = some shown ∧ ∀ other ∈ week, other = blank ∨ other ∈ cells := by
  have placed : (List.replicate (firstColumn date) blank ++ cells)[placeOf date]? = some shown := by
    rw [List.getElem?_append_right (by simp [placeOf]), List.length_replicate, placeOf,
      Nat.add_sub_cancel_left]
    exact here
  obtain ⟨week, row, column, others⟩ := exists_week _ cells placed
  rw [placeOf_mod] at column
  exact ⟨week, row, column, others⟩

theorem cellOf_gridLines {title : String} {cells : List Cell} {notes : List String} {date : Date}
    {shown : Cell} (fit : ∀ shown ∈ cells, Fits shown)
    (here : cells[(date.day - 1).toNat]? = some shown) :
    cellOf (gridLines title (weeks (firstColumn date) cells) ++ notes) date = shown := by
  obtain ⟨week, row, column, others⟩ := exists_week_of_date here
  obtain ⟨top, bottom⟩ := getElem?_flatMap_weekLines row
  have wide : ∀ other ∈ week, Fits other := by
    intro other member
    rcases others other member with rfl | own
    · exact fits_cell "" ""
    · exact fit other own
  apply Prod.ext
  · exact textAt_week (fun other member => (wide other member).1) (getD_gridLines top) column
  · exact textAt_week (fun other member => (wide other member).2) (getD_gridLines bottom) column

theorem cellOf_lines {title : String} {dates : List Date} {anchors : Anchors}
    {table : ObservanceTable} {novenas : List NovenaInstance} {shown : List String}
    {date first : Date}
    (built : lines title dates anchors table novenas = .ok shown)
    (begins : dates.head? = some first) (column : first.weekday.toNat = firstColumn date)
    (here : dates[(date.day - 1).toNat]? = some date) :
    ∃ day running, Day.ofTable date anchors table = .ok day ∧
      NovenaCalendar.active novenas date = .ok running ∧
      cellOf shown date = dayCell date day.mark running.length := by
  simp only [lines, Attempt.bind_eq_ok, Attempt.pure_eq_ok, begins, Option.map_some,
    Option.getD_some, column] at built
  obtain ⟨days, made, rfl⟩ := built
  obtain ⟨length, each⟩ := List.forall₂_iff_get.mp (Attempt.mapM_eq_ok.mp made)
  obtain ⟨inside, same⟩ := List.getElem?_eq_some_iff.mp here
  have own := each _ inside (length ▸ inside)
  simp only [List.get_eq_getElem, same, Attempt.bind_eq_ok, Attempt.pure_eq_ok] at own
  obtain ⟨day, told, running, active, -, -, entry⟩ := own
  refine ⟨day, running, told, active, ?_⟩
  -- All cells fit, so that of the date can be read back from its place.
  have fit : ∀ shown ∈ days.map Prod.snd, Fits shown := by
    intro shown member
    obtain ⟨other, listed, rfl⟩ := List.mem_map.mp member
    obtain ⟨source, -, made⟩ := (Attempt.mem_of_mapM made).mp listed
    simp only [Attempt.bind_eq_ok, Attempt.pure_eq_ok] at made
    obtain ⟨_, -, _, -, _, -, rfl⟩ := made
    exact fits_cell _ _
  apply cellOf_gridLines fit
  rw [List.getElem?_map, List.getElem?_eq_getElem (length ▸ inside), ← entry]
  rfl

end Layout

section Dates

variable {year month day : Int} {date : Date}

def IsMonth (year month : Int) (dates : List Date) : Prop :=
  dates.map Except.ok =
    (List.range (Civil.monthLength year month).toNat).map fun (days : Nat) =>
      Date.ofYmd year month (days + 1)

theorem exists_monthDates (held : 1 ≤ year ∧ year ≤ 9999) (months : 1 ≤ month ∧ month ≤ 12) :
    ∃ dates, monthDates year month = .ok dates ∧ IsMonth year month dates := by
  have common : 1 ≤ Civil.monthLength 1 month := by
    unfold Civil.monthLength
    split_ifs <;> decide
  obtain ⟨first, begins, number⟩ :=
    Anchor.dayOf_eq_ok held month 1 months ⟨Int.le_refl 1, common⟩
  have each : ∀ days ∈ List.range (Civil.monthLength year month).toNat,
      ∃ moved, inRange (first.add? (days : Nat)) = .ok moved ∧
        Except.ok moved = Date.ofYmd year month (days + 1) := by
    intro days listed
    have few := List.mem_range.mp listed
    have within : 1 ≤ (days : Int) + 1 ∧ (days : Int) + 1 ≤ Civil.monthLength year month :=
      ⟨by omega, by omega⟩
    obtain ⟨moved, named, own⟩ := Date.exists_ofYmd held months within
    rw [Civil.dayNumber_eq_first] at own
    have counted : moved.number = first.number + (days : Nat) := by omega
    exact ⟨moved, inRange_eq_ok.mpr (Date.add?_eq_some_iff.mpr counted), named.symm⟩
  obtain ⟨dates, made, named⟩ := Attempt.exists_mapM_map each
  exact ⟨dates, Attempt.bind_eq_ok.mpr ⟨first, begins, made⟩, named⟩

theorem IsMonth.getElem? {dates : List Date} (isMonth : IsMonth year month dates)
    (named : Date.ofYmd year month day = .ok date) : dates[(day - 1).toNat]? = some date := by
  have days := (Date.number_of_ofYmd named).2.2
  have here := congrArg (fun dates => dates[(day - 1).toNat]?) isMonth
  have back : (((day - 1).toNat : Nat) : Int) + 1 = day := by omega
  simp only [List.getElem?_map] at here
  rw [List.getElem?_range (by omega), Option.map_some, back, named, Option.map_eq_some_iff] at here
  obtain ⟨found, isHere, same⟩ := here
  rw [isHere, Except.ok.inj same]

theorem IsMonth.exists_day {dates : List Date} (isMonth : IsMonth year month dates)
    (listed : date ∈ dates) : ∃ day, Date.ofYmd year month day = .ok date := by
  obtain ⟨days, -, named⟩ := List.mem_map.mp (isMonth ▸ List.mem_map_of_mem listed)
  exact ⟨_, named⟩

end Dates

section Running

variable {year : Int} {date : Date} {table : AnchorTable}

theorem exists_active {instances : List NovenaInstance}
    (titled : ∀ window ∈ instances, window.Titled) (date : Date) :
    ∃ running, NovenaCalendar.active instances date = .ok running ∧
      running.length = instances.countP fun window => window.contains date := by
  obtain ⟨running, found, stably⟩ := NovenaCalendar.active_eq_ok titled date
  refine ⟨running, found, ?_⟩
  rw [stably.perm.length_eq, NovenaCalendar.underWay, List.length_map,
    ← List.countP_eq_length_filter]
  apply List.countP_congr
  intro window _
  rw [NovenaInstance.contains_iff, decide_eq_true_eq]

theorem exists_batch (held : 2 ≤ year ∧ year ≤ 9999)
    (built : AnchorTable.builtin (.int year) = .ok table) :
    ∃ batch, NovenaBatch.resolve NovenaIndex.bundled (.int year) table = .ok batch ∧
      (∀ window ∈ batch.instances, window.Titled) ∧
      ∀ date : Date, date.year = year →
        (batch.instances.countP fun window => window.contains date) =
          NovenaIndex.bundled.countP (NovenaIndex.runsIn table date) := by
  have isolated : ∀ novena ∈ NovenaIndex.bundled,
      NovenaBatch.Isolated (.int year) table novena := by
    intro novena listed
    obtain ⟨duration, lasts⟩ := NovenaIndex.exists_lastsAbout listed
    obtain ⟨window, resolved⟩ :=
      (NovenaIndex.settled_bundled listed).exists_resolve held built lasts
    exact NovenaBatch.isolated_of_ok resolved
  obtain ⟨sorted, -, stably, resolved⟩ :=
    NovenaBatch.resolve_eq_ok NovenaIndex.titled_bundled isolated
  refine ⟨_, resolved, ?_, ?_⟩
  · intro window member
    exact NovenaBatch.titled_of_windowOf NovenaIndex.titled_bundled (stably.perm.mem_iff.mp member)
  · rintro date rfl
    -- Sorting moves the windows about, but leaves their number.
    rw [stably.perm.countP_eq, List.countP_filterMap]
    apply List.countP_congr
    intro novena _
    rw [NovenaIndex.runsIn]
    cases NovenaBatch.windowOf (.int date.year) table novena <;> simp

theorem exists_dayAfter (early : date.year ≤ 9998) : ∃ next, date.add? 1 = some next := by
  have before := Date.number_lt_newYear (Int.lt_of_le_of_lt early (by decide : (9998 : Int) < 9999))
  have last : Civil.dayNumber 9999 1 1 ≤ Civil.lastDay := by decide
  have low := date.one_le
  obtain ⟨next, moved, -⟩ := date.exists_add? 1 ⟨by omega, by omega⟩
  exact ⟨next, moved⟩

theorem exists_lines (title : String) {dates : List Date} {anchors : Anchors}
    (turns : SeasonTurns anchors) (table : ObservanceTable) {novenas : List NovenaInstance}
    (titled : ∀ window ∈ novenas, window.Titled) (early : ∀ date ∈ dates, date.year ≤ 9998) :
    ∃ shown, lines title dates anchors table novenas = .ok shown := by
  unfold lines
  apply Attempt.exists_bind
  · apply Attempt.exists_mapM
    intro date listed
    obtain ⟨running, active, -⟩ := exists_active titled date
    obtain ⟨next, moved⟩ := exists_dayAfter (early date listed)
    apply Attempt.exists_bind
    · exact ⟨_, Attempt.bind_eq_ok.mpr ⟨_, turns.ofDate_eq date, rfl⟩⟩
    · intro day
      apply Attempt.exists_bind ⟨running, active⟩
      intro _
      apply Attempt.exists_bind ⟨next, inRange_eq_ok.mpr moved⟩
      exact fun _ => ⟨_, rfl⟩
  · exact fun days => ⟨_, rfl⟩

theorem weekday_first {month day : Int} {first : Date}
    (begins : Date.ofYmd year month 1 = .ok first)
    (named : Date.ofYmd year month day = .ok date) : first.weekday.toNat = firstColumn date := by
  have number := (Date.number_of_ofYmd named).1
  rw [Civil.dayNumber_eq_first, ← (Date.number_of_ofYmd begins).1] at number
  rw [firstColumn, (Date.parts_of_ofYmd named).2.2, Date.weekday, Date.weekday]
  omega

/-- The first year has no batch, for some of its windows begin before the calendar does. -/
theorem exists_initial (years : 2 ≤ year ∧ year ≤ 9999) :
    ∃ table observances batch, AnchorTable.builtin (.int year) = .ok table ∧
      Almanac.initial.table (.int year) = .ok table ∧ Nonempty (SeasonTurns (.table table)) ∧
      Almanac.initial.observances (.int year) = .ok observances ∧
      Almanac.initial.batch (.int year) NovenaIndex.bundled = .ok batch ∧
      (∀ window ∈ batch.instances, window.Titled) ∧
      ∀ date : Date, date.year = year →
        (batch.instances.countP fun window => window.contains date) =
          NovenaIndex.bundled.countP (NovenaIndex.runsIn table date) := by
  have held : 1 ≤ year ∧ year ≤ 9999 := ⟨by omega, years.2⟩
  obtain ⟨table, built⟩ := AnchorTable.exists_builtin held
  obtain ⟨roman⟩ := exists_romanYear held built
  obtain ⟨emissions, emits, -⟩ := roman.exists_ofYear held built
  obtain ⟨batch, resolved, titled, counted⟩ := exists_batch years built
  have tabled : Almanac.initial.table (.int year) = .ok table := built
  exact ⟨table, .ofEmissions emissions, batch, built, tabled, ⟨roman.toSeasonTurns⟩,
    Attempt.bind_eq_ok.mpr ⟨table, tabled, ObservanceTable.build_eq_ok.mpr ⟨_, emits, rfl⟩⟩,
    Attempt.bind_eq_ok.mpr ⟨table, tabled, resolved⟩, titled, counted⟩

theorem exists_build {month : Int} (years : 2 ≤ year ∧ year ≤ 9998)
    (months : 1 ≤ month ∧ month ≤ 12) :
    ∃ shown table, build Almanac.initial year month = .ok shown ∧
      AnchorTable.builtin (.int year) = .ok table ∧
      ∀ day date, Date.ofYmd year month day = .ok date →
        ∃ mark, cellOf shown date =
          dayCell date mark (NovenaIndex.bundled.countP (NovenaIndex.runsIn table date)) := by
  have held : 1 ≤ year ∧ year ≤ 9999 := ⟨by omega, by omega⟩
  obtain ⟨dates, dated, isMonth⟩ := exists_monthDates held months
  obtain ⟨table, observances, batch, built, tabled, ⟨turns⟩, observed, batched, titled, counted⟩ :=
    exists_initial ⟨years.1, held.2⟩
  have early : ∀ date ∈ dates, date.year ≤ 9998 := by
    intro date listed
    obtain ⟨day, named⟩ := isMonth.exists_day listed
    rw [(Date.parts_of_ofYmd named).1]
    exact years.2
  obtain ⟨shown, made⟩ := exists_lines (title year month) turns observances titled early
  refine ⟨shown, table, ?_, built, ?_⟩
  · rw [build, dated, observed, batched, tabled]
    exact made
  · intro day date named
    obtain ⟨least, most⟩ := (Date.number_of_ofYmd named).2.2
    obtain ⟨first, begins, -⟩ :=
      Date.exists_ofYmd held months ⟨Int.le_refl 1, Int.le_trans least most⟩
    have here := isMonth.getElem? named
    rw [← (Date.parts_of_ofYmd named).2.2] at here
    have opens : dates.head? = some first := by
      rw [List.head?_eq_getElem?]
      exact isMonth.getElem? begins
    obtain ⟨told, running, -, active, cell⟩ :=
      cellOf_lines made opens (weekday_first begins named) here
    obtain ⟨other, otherActive, length⟩ := exists_active titled date
    cases active.symm.trans otherActive
    rw [length, counted date (Date.parts_of_ofYmd named).1] at cell
    exact ⟨told.mark, cell⟩

def runningText (running : Nat) : String := if running = 0 then "" else "n" ++ toString running

theorem snd_dayCell (date : Date) (mark : String) {running : Nat} (few : running ≤ 18) :
    (dayCell date mark running).2 = Text.padRight 6 (runningText running) := by
  have short : ∀ running < 19, (runningText running).toList.length ≤ 6 := by decide +kernel
  have length := short running (by omega)
  apply String.toList_inj.mp
  show (Text.padRight cellWidth.toNat (cut (runningText running) cellWidth)).toList = _
  rw [toList_padRight_cut, List.take_of_length_le length, Text.padRight, String.toList_append,
    String.toList_ofList, String.length_toList]

theorem take_fst_dayCell (date : Date) (mark : String) (running : Nat) :
    (dayCell date mark running).1.toList.take 2 =
      (Text.padLeft 2 (Text.intText date.day)).toList := by
  have two : ∀ day < 32, (Text.padLeft 2 (Text.intText (day : Nat))).toList.length = 2 := by
    decide +kernel
  have days := date.day_bounds
  have length := Civil.monthLength_le date.year date.month
  have width := two date.day.toNat (by omega)
  rw [Int.toNat_of_nonneg (by omega)] at width
  show (Text.padRight cellWidth.toNat
    (cut (Text.padLeft 2 (Text.intText date.day) ++ mark) cellWidth)).toList.take 2 = _
  have shown : 2 ≤ ((Text.padLeft 2 (Text.intText date.day) ++ mark).toList.take 6).length := by
    rw [List.length_take, String.toList_append, List.length_append, width]
    omega
  rw [toList_padRight_cut, List.take_append_of_le_length shown, List.take_take,
    String.toList_append]
  exact List.take_left' width

theorem countP_bundled_le (chosen : Novena → Bool) : NovenaIndex.bundled.countP chosen ≤ 18 :=
  List.countP_le_length

end Running

variable {year month day : Int} {date : Date}

/-- Under every day of a month stands its number and below it the number of the novenas under way,
counted by their windows, but for the windows of the year after. So the number is right except in
the last nine days of December: there it misses one window, and in the last four days two. -/
theorem build_running (years : 2 ≤ year ∧ year ≤ 9998)
    (named : Date.ofYmd year month day = .ok date) :
    ∃ shown running, build Almanac.initial year month = .ok shown ∧
      (cellOf shown date).1.toList.take 2 = (Text.padLeft 2 (Text.intText day)).toList ∧
      (cellOf shown date).2 = Text.padRight 6 (runningText running) ∧
      (NovenaIndex.windowsOn date).Finite ∧
      running + NovenaIndex.reachingBack month day = (NovenaIndex.windowsOn date).ncard ∧
      (running = (NovenaIndex.windowsOn date).ncard ↔ ¬(month = 12 ∧ 23 ≤ day)) := by
  obtain ⟨-, months, -⟩ := Date.number_of_ofYmd named
  obtain ⟨inYear, onMonth, onDay⟩ := Date.parts_of_ofYmd named
  obtain ⟨shown, table, made, built, cells⟩ := exists_build years months
  obtain ⟨mark, cell⟩ := cells day date named
  have early : date.year ≤ 9998 := by omega
  rw [← inYear] at built
  have counted := NovenaIndex.ncard_windowsOn early built
  rw [NovenaIndex.countP_runsNext, onMonth, onDay] at counted
  refine ⟨shown, _, made, ?_, ?_, NovenaIndex.finite_windowsOn early, counted.symm, ?_⟩
  · rw [cell, take_fst_dayCell, onDay]
  · rw [cell, snd_dayCell date mark (countP_bundled_le _)]
  · rw [counted]
    unfold NovenaIndex.reachingBack
    split_ifs <;> omega

/-- On 28 December 2025 two windows are missed. -/
theorem build_running_lateDecember :
    (2 ≤ (2025 : Int) ∧ (2025 : Int) ≤ 9998) ∧
      ∃ date shown running, Date.ofYmd 2025 12 28 = .ok date ∧ date.iso = "2025-12-28" ∧
        build Almanac.initial 2025 12 = .ok shown ∧
        (cellOf shown date).2 = Text.padRight 6 (runningText running) ∧
        running + 2 = (NovenaIndex.windowsOn date).ncard := by
  have years : 2 ≤ (2025 : Int) ∧ (2025 : Int) ≤ 9998 := by decide
  have named : Date.ofYmd 2025 12 28 = .ok ⟨739613, by decide, by decide⟩ := rfl
  obtain ⟨shown, running, made, -, below, -, count, -⟩ := build_running years named
  exact ⟨years, _, shown, running, named, by decide, made, below, count⟩

/-- The number below a day is not always that of the windows that hold it. -/
theorem not_every_window_counted :
    ¬∀ (year month day : Int) (date : Date) (shown : List String) (running : Nat),
        2 ≤ year ∧ year ≤ 9998 → Date.ofYmd year month day = .ok date →
        build Almanac.initial year month = .ok shown →
        (cellOf shown date).2 = Text.padRight 6 (runningText running) →
        running = (NovenaIndex.windowsOn date).ncard := by
  intro every
  have years : 2 ≤ (2025 : Int) ∧ (2025 : Int) ≤ 9998 := by decide
  have named : Date.ofYmd 2025 12 28 = .ok ⟨739613, by decide, by decide⟩ := rfl
  have december : 1 ≤ (12 : Int) ∧ (12 : Int) ≤ 12 := by decide
  obtain ⟨shown, table, made, built, cells⟩ := exists_build years december
  obtain ⟨mark, cell⟩ := cells 28 _ named
  have below := congrArg Prod.snd cell
  rw [snd_dayCell _ mark (countP_bundled_le _)] at below
  have early : (⟨739613, by decide, by decide⟩ : Date).year ≤ 9998 := by decide
  have counted := NovenaIndex.ncard_windowsOn early built
  have missed := NovenaIndex.countP_runsNext ⟨739613, by decide, by decide⟩
  have two : NovenaIndex.reachingBack (⟨739613, by decide, by decide⟩ : Date).month
      (⟨739613, by decide, by decide⟩ : Date).day = 2 := by decide
  have right := every 2025 12 28 _ shown _ years named made below
  omega

end FeastCalendar.MonthGrid
