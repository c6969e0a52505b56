import FeastCalendar.Proofs.Observance.Table
import FeastCalendar.Proofs.Observance.Turns

/-!
Season markers against the seasons of dates. The markers of a year's table stand on the six days
whose season is not that of the day before, one on each.
-/

namespace FeastCalendar
open Civil (Date dayNumber marchFirst)

namespace SeasonTurns

variable {anchors : Anchors} (turns : SeasonTurns anchors)

def winter : Date where
  number := turns.baptism.number + 1
  one_le := Int.le_add_one turns.baptism.one_le
  le_last := Int.le_trans (Int.le_of_lt turns.baptism_lent) turns.lent.le_last

def summer : Date where
  number := turns.pentecost.number + 1
  one_le := Int.le_add_one turns.pentecost.one_le
  le_last := Int.le_trans (Int.le_of_lt turns.pentecost_advent) turns.advent.le_last

def begins : List (Date × String) := [
  (turns.advent, "season_advent"),
  (turns.christmas, "season_christmas"),
  (turns.winter, "season_ordinary_time_1"),
  (turns.lent, "season_lent"),
  (turns.easter, "season_easter"),
  (turns.summer, "season_ordinary_time_2")]

theorem nodup_begins : (turns.begins.map Prod.fst).Nodup := by
  have order := turns.order
  simp [begins, winter, summer, Date.ext_iff]
  omega

theorem mem_begins {date : Date} :
    date ∈ turns.begins.map Prod.fst ↔ date.number ∈ turns.spans.map Prod.fst := by
  simp [begins, spans, winter, summer, Date.ext_iff]
  omega

theorem make_eq (date : Date) (id title : String) (rank : Rank) (color : Option String)
    (seasonMarker : Bool) :
    Emission.make anchors date id title rank color seasonMarker =
      .ok (date, ⟨id, title, rank, color <|> some (turns.season date).color,
        some (turns.season date), seasonMarker⟩) :=
  Emission.make_eq_ok.mpr ⟨_, turns.ofDate_eq date, rfl⟩

theorem exists_seasonMarkers :
    ∃ markers, Emission.seasonMarkers anchors = .ok markers ∧
      markers.map (fun marker => (marker.1, marker.2.id)) = turns.begins ∧
      ∀ marker ∈ markers, marker.2.season = some (turns.season marker.1) ∧
        marker.2.seasonMarker = true := by
  have winter : turns.baptism.add? 1 = some turns.winter := Date.add?_eq_some_iff.mpr rfl
  have summer : turns.pentecost.add? 1 = some turns.summer := Date.add?_eq_some_iff.mpr rfl
  simp only [Emission.seasonMarkers, Anchors.get_eq_ok.mpr turns.christmas_found,
    Anchors.get_eq_ok.mpr turns.advent_found, Anchors.get_eq_ok.mpr turns.pentecost_found,
    Anchors.get_eq_ok.mpr turns.easter_found, Anchors.get_eq_ok.mpr turns.lent_found,
    Anchors.get_eq_ok.mpr turns.baptism_found, bind, Except.bind, winter, summer,
    inRange, List.mapM_cons, List.mapM_nil, turns.make_eq]
  exact ⟨_, rfl, rfl, by simp⟩

/-- The season of a date is not that of the day before just where a season begins. -/
theorem season_changes_iff {before date : Date} (step : date.add? (-1) = some before) :
    turns.season date ≠ turns.season before ↔ date ∈ turns.begins.map Prod.fst := by
  have earlier : before.number = date.number - 1 := Date.add?_eq_some_iff.mp step
  rw [mem_begins, season, season, earlier]
  exact Season.among_changes_iff turns.spans_alternate date.number

theorem season_of_early {date : Date} (early : date.number ≤ turns.baptism.number) :
    turns.season date = .christmas := by
  have order := turns.order
  apply Season.among_of_early
  simp only [spans, List.forall_mem_cons, List.not_mem_nil, false_implies, implies_true, and_true]
  omega

theorem season_of_late {date : Date} (late : turns.christmas.number ≤ date.number) :
    turns.season date = .christmas := by
  have order := turns.order
  rw [season, spans]
  simp only [Season.among]
  split_ifs
  all_goals first | rfl | omega

theorem exists_dayBefore {date : Date} (begins : date ∈ turns.begins.map Prod.fst) :
    ∃ before, date.add? (-1) = some before := by
  have order := turns.order
  have low := turns.baptism.one_le
  have high := date.le_last
  rw [mem_begins] at begins
  simp only [spans, List.map_cons, List.map_nil, List.mem_cons, List.not_mem_nil, or_false] at begins
  obtain ⟨before, moved, -⟩ := date.exists_add? (-1) ⟨by omega, by omega⟩
  exact ⟨before, moved⟩

end SeasonTurns

namespace Emission

variable {anchors : Anchors}

theorem make_unmarked {date : Date} {id title : String} {rank : Rank} {color : Option String}
    {emission : Emission} (made : make anchors date id title rank color false = .ok emission) :
    emission.2.seasonMarker = false := by
  obtain ⟨season, -, rfl⟩ := make_eq_ok.mp made
  rfl

theorem seasonalSunday_unmarked {start : Date} {weeks n : Int} {id season color : String}
    {emission : Emission}
    (made : seasonalSunday anchors start weeks n id season color = .ok emission) :
    emission.2.seasonMarker = false := by
  obtain ⟨date, -, made⟩ := Attempt.bind_eq_ok.mp made
  exact make_unmarked made

theorem seasonalSundays_unmarked {seasonal : List Emission}
    (found : seasonalSundays anchors = .ok seasonal) :
    ∀ emission ∈ seasonal, emission.2.seasonMarker = false := by
  simp only [seasonalSundays, Attempt.bind_eq_ok, Attempt.pure_eq_ok] at found
  obtain ⟨advent, adventMade, _, -, _, -, lent, lentMade, easter, easterMade, rfl⟩ := found
  intro emission member
  rcases List.mem_append.mp member with early | inEaster
  · rcases List.mem_append.mp early with inAdvent | inLent
    · obtain ⟨n, -, made⟩ := (Attempt.mem_of_mapM adventMade).mp inAdvent
      obtain ⟨start, -, made⟩ := Attempt.bind_eq_ok.mp made
      exact seasonalSunday_unmarked made
    · obtain ⟨n, -, made⟩ := (Attempt.mem_of_mapM lentMade).mp inLent
      exact seasonalSunday_unmarked made
  · obtain ⟨n, -, made⟩ := (Attempt.mem_of_mapM easterMade).mp inEaster
    obtain ⟨start, -, made⟩ := Attempt.bind_eq_ok.mp made
    exact seasonalSunday_unmarked made

theorem ordinaryTime_unmarked {ordinary : List Emission}
    (found : ordinaryTime anchors = .ok ordinary) :
    ∀ emission ∈ ordinary, emission.2.seasonMarker = false := by
  obtain ⟨sundays, -, made⟩ := Attempt.bind_eq_ok.mp found
  intro emission member
  obtain ⟨sunday, -, made⟩ := (Attempt.mem_of_mapM made).mp member
  exact make_unmarked made

theorem celebrations_unmarked {year : Json} {catalogue : List Celebration} {named : List Emission}
    (found : celebrations year anchors catalogue = .ok named) :
    ∀ emission ∈ named, emission.2.seasonMarker = false := by
  intro emission member
  obtain ⟨celebration, -, celebrates⟩ := (mem_celebrations found).mp member
  exact make_unmarked celebrates.made

end Emission

namespace ObservanceTable

variable {anchors : Anchors} {year : Json} {catalogue : List Celebration} {table : ObservanceTable}

def markers (table : ObservanceTable) : List Emission :=
  table.entries.filter fun entry => entry.2.seasonMarker

theorem mem_markers {emissions : List Emission} {date : Date} {observance : Observance} :
    (date, observance) ∈ (ofEmissions emissions).markers ↔
      observance ∈ (ofEmissions emissions).on date ∧ observance.seasonMarker = true := by
  rw [markers, List.mem_filter, mem_entries]

/-- Season markers are emitted before all else and on days of their own, so each of them stands. -/
theorem exists_markers_perm (turns : SeasonTurns anchors)
    (built : build year anchors catalogue = .ok table) :
    ∃ emitted, table.markers.Perm emitted ∧ emitted.map Prod.fst = turns.begins.map Prod.fst ∧
      ∀ marker ∈ emitted, marker.2.season = some (turns.season marker.1) := by
  obtain ⟨emissions, emits, rfl⟩ := build_eq_ok.mp built
  obtain ⟨emitted, seasonal, ordinary, named, marked, seasonalMade, ordinaryMade, namedMade, rfl⟩ :=
    Emission.ofYear_eq_ok.mp emits
  obtain ⟨known, knownMarked, names, each⟩ := turns.exists_seasonMarkers
  cases marked.symm.trans knownMarked
  have dates : emitted.map Prod.fst = turns.begins.map Prod.fst := by
    rw [← names, List.map_map]
    rfl
  have apart : (emitted.map Prod.fst).Nodup := dates ▸ turns.nodup_begins
  refine ⟨emitted, ?_, dates, fun marker member => (each marker member).1⟩
  rw [markers, List.perm_ext_iff_of_nodup ((nodup_entries _).filter _) apart.of_map]
  intro (date, observance)
  rw [← markers, mem_markers]
  constructor
  · rintro ⟨stands, marker⟩
    have member := emitted_of_mem_on stands
    simp only [List.append_assoc, List.mem_append] at member
    rcases member with first | second | third | fourth
    · exact first
    · cases marker.symm.trans (Emission.seasonalSundays_unmarked seasonalMade _ second)
    · cases marker.symm.trans (Emission.ordinaryTime_unmarked ordinaryMade _ third)
    · cases marker.symm.trans (Emission.celebrations_unmarked namedMade _ fourth)
  · intro member
    refine ⟨?_, (each _ member).2⟩
    obtain ⟨before, after, rfl⟩ := List.append_of_mem member
    simp only [List.append_assoc, List.cons_append]
    refine mem_on_of_first fun earlier inBefore same => ?_
    simp only [List.map_append, List.map_cons, List.nodup_append] at apart
    exact absurd same (apart.2.2 _ (List.mem_map_of_mem inBefore) _ (List.mem_cons_self ..))

theorem christmas_over_newYear {year : Int} {anchors next : AnchorTable}
    (held : 1 ≤ year ∧ year ≤ 9998) (built : AnchorTable.builtin (.int year) = .ok anchors)
    (nextBuilt : AnchorTable.builtin (.int (year + 1)) = .ok next) :
    ∃ last first, Date.ofYmd year 12 31 = .ok last ∧ Date.ofYmd (year + 1) 1 1 = .ok first ∧
      last.add? 1 = some first ∧ Season.ofDate last anchors = .ok .christmas ∧
      Season.ofDate first next = .ok .christmas := by
  have own : 1 ≤ year ∧ year ≤ 9999 := ⟨held.1, by omega⟩
  have following : 1 ≤ year + 1 ∧ year + 1 ≤ 9999 := ⟨by omega, by omega⟩
  obtain ⟨last, lastNamed, lastNumber⟩ :
      ∃ last, Date.ofYmd year 12 31 = .ok last ∧ last.number = dayNumber year 12 31 :=
    Date.exists_ofYmd own (by decide) ⟨by decide, Int.le_refl 31⟩
  obtain ⟨first, firstNamed, firstNumber⟩ :
      ∃ first, Date.ofYmd (year + 1) 1 1 = .ok first ∧ first.number = dayNumber (year + 1) 1 1 :=
    Date.exists_ofYmd following (by decide) ⟨by decide, (by decide : (1 : Int) ≤ 31)⟩
  have newYear : dayNumber (year + 1) 1 1 = marchFirst (year + 1 - 1) + 306 + 1 - 1 := rfl
  have silvester : dayNumber year 12 31 = marchFirst year + 275 + 31 - 1 := rfl
  have december : dayNumber year 12 25 = marchFirst year + 275 + 25 - 1 := rfl
  have january : dayNumber (year + 1) 1 6 = marchFirst (year + 1 - 1) + 306 + 6 - 1 := rfl
  have back : year + 1 - 1 = year := by omega
  rw [back] at newYear january
  refine ⟨last, first, lastNamed, firstNamed, Date.add?_eq_some_iff.mpr (by omega), ?_, ?_⟩
  · obtain ⟨turns⟩ := exists_romanYear own built
    obtain ⟨_, _, _, _, -, -, fixed, -⟩ := AnchorTable.dates_of_builtin own built
    obtain ⟨christmas, found, number⟩ := fixed ("christmas", 12, 25) (by decide)
    cases turns.christmas_found.symm.trans found
    simp only at number
    rw [turns.ofDate_eq, turns.season_of_late (by omega)]
  · obtain ⟨turns⟩ := exists_romanYear following nextBuilt
    obtain ⟨_, baptism, _, _, -, -, -, ⟨found, late, -⟩, -⟩ :=
      AnchorTable.dates_of_builtin following nextBuilt
    cases turns.baptism_found.symm.trans found
    rw [turns.ofDate_eq, turns.season_of_early (by omega)]

/-- A table has a season marker on a date just where the season is not that of the day before. There
are six, on six dates, each with the season that begins. The built-in anchors are in the order that
this asks for, and with them no season ends with the year. -/
theorem season_changes_at_markers :
    (∀ anchors, SeasonTurns anchors → ∀ year catalogue table,
      build year anchors catalogue = .ok table →
      (∀ date before, date.add? (-1) = some before →
        ∃ season previous, Season.ofDate date anchors = .ok season ∧
          Season.ofDate before anchors = .ok previous ∧
          (season ≠ previous ↔ ∃ observance ∈ table.on date, observance.seasonMarker = true)) ∧
      table.markers.length = 6 ∧ (table.markers.map Prod.fst).Nodup ∧
      ∀ marker ∈ table.markers, ∃ before season previous, marker.1.add? (-1) = some before ∧
        Season.ofDate marker.1 anchors = .ok season ∧
        Season.ofDate before anchors = .ok previous ∧ season ≠ previous ∧
        marker.2.season = some season) ∧
    (∀ year, 1 ≤ year ∧ year ≤ 9999 →
      ∃ anchors, AnchorTable.builtin (.int year) = .ok anchors ∧ Nonempty (SeasonTurns anchors)) ∧
    ∀ year, 1 ≤ year ∧ year ≤ 9998 →
      ∃ anchors next last first season, AnchorTable.builtin (.int year) = .ok anchors ∧
        AnchorTable.builtin (.int (year + 1)) = .ok next ∧ Date.ofYmd year 12 31 = .ok last ∧
        Date.ofYmd (year + 1) 1 1 = .ok first ∧ last.add? 1 = some first ∧
        Season.ofDate last anchors = .ok season ∧ Season.ofDate first next = .ok season := by
  refine ⟨?_, ?_, ?_⟩
  · intro anchors turns year catalogue table built
    obtain ⟨emitted, perm, dates, each⟩ := exists_markers_perm turns built
    have beginsPerm : (table.markers.map Prod.fst).Perm (turns.begins.map Prod.fst) :=
      dates ▸ perm.map Prod.fst
    refine ⟨?_, ?_, ?_, ?_⟩
    · intro date before step
      refine ⟨_, _, turns.ofDate_eq date, turns.ofDate_eq before, ?_⟩
      rw [turns.season_changes_iff step, ← beginsPerm.mem_iff]
      obtain ⟨emissions, -, rfl⟩ := build_eq_ok.mp built
      simp only [List.mem_map, Prod.exists, exists_and_right, exists_eq_right, mem_markers]
    · rw [← List.length_map Prod.fst, beginsPerm.length_eq]
      rfl
    · exact beginsPerm.nodup_iff.mpr turns.nodup_begins
    · intro marker member
      have begins : marker.1 ∈ turns.begins.map Prod.fst :=
        beginsPerm.mem_iff.mp (List.mem_map_of_mem member)
      obtain ⟨before, step⟩ := turns.exists_dayBefore begins
      exact ⟨before, _, _, step, turns.ofDate_eq _, turns.ofDate_eq _,
        (turns.season_changes_iff step).mpr begins, each marker (perm.mem_iff.mp member)⟩
  · intro year held
    obtain ⟨anchors, built⟩ := AnchorTable.exists_builtin held
    obtain ⟨turns⟩ := exists_romanYear held built
    exact ⟨anchors, built, ⟨turns.toSeasonTurns⟩⟩
  · intro year held
    obtain ⟨anchors, built⟩ := AnchorTable.exists_builtin ⟨held.1, by omega⟩
    obtain ⟨next, nextBuilt⟩ := @AnchorTable.exists_builtin (year + 1) ⟨by omega, by omega⟩
    obtain ⟨last, first, lastNamed, firstNamed, step, lastSeason, firstSeason⟩ :=
      christmas_over_newYear held built nextBuilt
    exact ⟨anchors, next, last, first, _, built, nextBuilt, lastNamed, firstNamed, step, lastSeason,
      firstSeason⟩

def plainTurns : Anchors := .plain [
  ("baptism_of_the_lord", ⟨739263, by decide, by decide⟩),
  ("ash_wednesday", ⟨739315, by decide, by decide⟩),
  ("easter", ⟨739361, by decide, by decide⟩),
  ("pentecost", ⟨739410, by decide, by decide⟩),
  ("advent_1", ⟨739585, by decide, by decide⟩),
  ("christmas", ⟨739610, by decide, by decide⟩)]

def turnsOf2025 : SeasonTurns plainTurns where
  baptism := ⟨739263, by decide, by decide⟩
  lent := ⟨739315, by decide, by decide⟩
  easter := ⟨739361, by decide, by decide⟩
  pentecost := ⟨739410, by decide, by decide⟩
  advent := ⟨739585, by decide, by decide⟩
  christmas := ⟨739610, by decide, by decide⟩
  baptism_found := rfl
  lent_found := rfl
  easter_found := rfl
  pentecost_found := rfl
  advent_found := rfl
  christmas_found := rfl
  baptism_lent := by decide
  lent_easter := by decide
  easter_pentecost := by decide
  pentecost_advent := by decide
  advent_christmas := by decide

theorem exists_emissions_plainTurns :
    ∃ emissions, Emission.ofYear (.int 2025) plainTurns [] = .ok emissions := ⟨_, rfl⟩

/-- Lent of 2025 begins with a marker, which the day before has not. -/
theorem season_changes_at_markers_2025 :
    ∃ table tuesday monday, build (.int 2025) plainTurns [] = .ok table ∧
      turnsOf2025.lent.add? (-1) = some tuesday ∧ tuesday.add? (-1) = some monday ∧
      table.markers.length = 6 ∧
      (∃ observance ∈ table.on turnsOf2025.lent, observance.seasonMarker = true) ∧
      ¬∃ observance ∈ table.on tuesday, observance.seasonMarker = true := by
  obtain ⟨emissions, emits⟩ := exists_emissions_plainTurns
  have built := build_eq_ok.mpr ⟨emissions, emits, rfl⟩
  obtain ⟨tuesday, tuesdayBefore, tuesdaySeason⟩ : ∃ tuesday, turnsOf2025.lent.add? (-1) = some tuesday ∧
      Season.ofDate tuesday plainTurns = .ok .ordinaryTime := ⟨_, rfl, rfl⟩
  obtain ⟨monday, mondayBefore, mondaySeason⟩ : ∃ monday, tuesday.add? (-1) = some monday ∧
      Season.ofDate monday plainTurns = .ok .ordinaryTime := by
    cases tuesdayBefore
    exact ⟨_, rfl, rfl⟩
  have lentSeason : Season.ofDate turnsOf2025.lent plainTurns = .ok .lent := rfl
  obtain ⟨changes, six, -⟩ := season_changes_at_markers.1 _ turnsOf2025 _ _ _ built
  refine ⟨_, tuesday, monday, built, tuesdayBefore, mondayBefore, six, ?_, ?_⟩
  · obtain ⟨season, previous, own, before, changed⟩ := changes _ _ tuesdayBefore
    cases own.symm.trans lentSeason
    cases before.symm.trans tuesdaySeason
    exact changed.mp (by decide)
  · obtain ⟨season, previous, own, before, changed⟩ := changes _ _ mondayBefore
    cases own.symm.trans tuesdaySeason
    cases before.symm.trans mondaySeason
    exact fun marked => changed.mpr marked rfl

end ObservanceTable

end FeastCalendar
