import Mathlib.Data.List.Sort
import FeastCalendar.Proofs.Observance.Builtin
import FeastCalendar.Proofs.Observance.Season
import FeastCalendar.Proofs.Observance.SundayName

/-!
The Sundays in the table of a year. Each Sunday between the Baptism of the Lord and Christmas is
emitted under its name, whether it is numbered or stands in the catalogue, and nothing else is
emitted under the name of a Sunday; the table therefore holds them one by one.
-/

namespace FeastCalendar
open Civil (Date lastDay)
open Text (intText)

namespace Emission

def spot (emission : Emission) : Int × String := (emission.1.number, emission.2.id)

variable {anchors : Anchors}

theorem exists_make (turns : SeasonTurns anchors) (date : Date) (id title : String) (rank : Rank)
    (color : Option String) (seasonMarker : Bool) :
    ∃ emission, make anchors date id title rank color seasonMarker = .ok emission ∧
      emission.spot = (date.number, id) :=
  ⟨_, turns.make_eq date id title rank color seasonMarker, rfl⟩

theorem exists_seasonalSunday (turns : SeasonTurns anchors) (start : Date) (weeks : Int)
    (held : 1 ≤ start.number + 7 * weeks ∧ start.number + 7 * weeks ≤ lastDay) (n : Int)
    (id season color : String) :
    ∃ emission, seasonalSunday anchors start weeks n id season color = .ok emission ∧
      emission.spot = (start.number + 7 * weeks, id ++ "_" ++ intText n) := by
  obtain ⟨date, moved, number⟩ := start.exists_add? (7 * weeks) held
  obtain ⟨emission, made, spot⟩ := exists_make turns date (id ++ "_" ++ intText n)
    (ordinal n ++ " Sunday of " ++ season) .sunday (some color) false
  refine ⟨emission, Attempt.bind_eq_ok.mpr ⟨date, inRange_eq_ok.mpr moved, made⟩, ?_⟩
  rw [spot, number]

theorem exists_sundaysBetween {after before : String} {start stop : Date}
    (afterFound : anchors.find? after = some start)
    (beforeFound : anchors.find? before = some stop) (sunday : start.number % 7 = 0)
    {weeks limit : Nat} (room : weeks < limit)
    (spans : start.number + 7 * (weeks : Int) < stop.number ∧
      stop.number ≤ start.number + 7 * (weeks : Int) + 7)
    (held : start.number + 7 * (weeks : Int) + 7 ≤ lastDay) :
    ∃ dates, sundaysBetween anchors after before limit = .ok dates ∧
      dates.map Date.number =
        (List.range weeks).map fun (week : Nat) => start.number + 7 + 7 * (week : Int) := by
  have low := start.one_le
  obtain ⟨next, moved, nextNumber⟩ := start.exists_add? 1 ⟨by omega, by omega⟩
  obtain ⟨first, firstFound, firstNumber⟩ : ∃ first, next.nextWeekday? 0 true = some first ∧
      first.number = start.number + 7 := by
    have number : next.number + (0 - next.number) % 7 = start.number + 7 := by omega
    rw [Date.nextWeekday?_sameDay, number]
    exact Date.exists_ofNumber? ⟨by omega, by omega⟩
  have weekly : ∃ dates, Date.weeklyUntil? stop limit first = some dates ∧
      dates.map Date.number =
        (List.range weeks).map fun (week : Nat) => first.number + 7 * (week : Int) := by
    apply Date.exists_weeklyUntil? room
    · intro week fits
      omega
    · omega
    · omega
  obtain ⟨dates, found, numbers⟩ := weekly
  refine ⟨dates, ?_, ?_⟩
  · have sundays : next.firstSundaysUntil? stop limit = some dates := by
      rw [Date.firstSundaysUntil?, firstFound]
      exact found
    simp only [sundaysBetween, Anchors.get_eq_ok.mpr afterFound, Anchors.get_eq_ok.mpr beforeFound,
      bind, Except.bind, moved, inRange, sundays]
    rfl
  · rw [numbers, firstNumber]

theorem Celebrates.fst_eq {given : Json} {celebration : Celebration} {emission : Emission}
    (celebrates : Celebrates given anchors celebration emission) {key : Key} {date : Date}
    (rule : celebration.rule = .rule (.anchor key)) (found : anchors.find? key.val = some date) :
    emission.1 = date := by
  have dated := celebrates.date
  rw [rule] at dated
  have reached : anchors.find? key.val = some emission.1 :=
    Anchors.getForRule_eq_ok.mp (Attempt.mapError_eq_ok.mp dated)
  exact Option.some.inj (reached.symm.trans found)

end Emission

namespace RomanYear

variable {anchors : Anchors} (year : RomanYear anchors)

def named (day : Int) : Int × String := (day, year.sundayName day)

section Spots

variable {year : RomanYear anchors} {emissions : List Emission} {days : List Int}

theorem spot_of_mem (spots : emissions.map Emission.spot = days.map year.named)
    {emission : Emission} (member : emission ∈ emissions) :
    emission.1.number ∈ days ∧ emission.spot = year.named emission.1.number := by
  obtain ⟨day, here, same⟩ := List.mem_map.mp (spots ▸ List.mem_map_of_mem member)
  have number : day = emission.1.number := congrArg Prod.fst same
  subst number
  exact ⟨here, same.symm⟩

theorem exists_spot (spots : emissions.map Emission.spot = days.map year.named) {day : Int}
    (member : day ∈ days) : ∃ emission ∈ emissions, emission.spot = year.named day :=
  List.mem_map.mp (spots.symm ▸ List.mem_map_of_mem member)

end Spots

theorem exists_numbered (start : Date) (id season : String) (color : Int → String)
    (numbers : List Int)
    (each : ∀ n ∈ numbers, year.sundayName (start.number + 7 * (n - 1)) = id ++ "_" ++ intText n ∧
      year.IsSunday (start.number + 7 * (n - 1))) :
    ∃ emissions,
      (numbers.mapM fun n =>
        Emission.seasonalSunday anchors start (n - 1) n id season (color n)) = .ok emissions ∧
      emissions.map Emission.spot = numbers.map fun n => year.named (start.number + 7 * (n - 1)) := by
  apply Attempt.exists_mapM_map
  intro n member
  obtain ⟨name, sunday⟩ := each n member
  have low := year.baptism.one_le
  have high := year.christmas.le_last
  have after := sunday.after
  have before := sunday.before
  obtain ⟨emission, made, spot⟩ := Emission.exists_seasonalSunday year.toSeasonTurns
    start (n - 1) ⟨by omega, by omega⟩ n id season (color n)
  refine ⟨emission, made, ?_⟩
  rw [spot, named, name]

theorem exists_seasonalSundays :
    ∃ seasonal, Emission.seasonalSundays anchors = .ok seasonal ∧
      seasonal.map Emission.spot = year.seasonalDays.map year.named := by
  have reckoning := year.reckoning
  have high := year.christmas.le_last
  have low := year.baptism.one_le
  obtain ⟨first, firstFound, firstNumber⟩ : ∃ first, year.lent.nextWeekday? 0 false = some first ∧
      first.number = year.easter.number - 42 := by
    have number : year.lent.number + 1 + (0 - year.lent.number - 1) % 7 = year.easter.number - 42 := by
      omega
    rw [Date.nextWeekday?_later, number]
    exact Date.exists_ofNumber? ⟨by omega, by omega⟩
  have sunday : ∀ day ∈ year.seasonalDays, year.IsSunday day := fun _ => isSunday_of_seasonalDays
  obtain ⟨advent, adventMade, adventSpots⟩ := year.exists_numbered year.advent "advent_sunday"
    "Advent" (fun n => if n = 3 then "rose" else "violet") [1, 2, 3, 4] <| by
      intro n member
      refine ⟨sundayName_advent (by simp at member; omega), sunday _ ?_⟩
      exact List.mem_append_left _ (List.mem_append_left _ (List.mem_map_of_mem member))
  obtain ⟨lent, lentMade, lentSpots⟩ := year.exists_numbered first "lent_sunday"
    "Lent" (fun n => if n = 4 then "rose" else "violet") [1, 2, 3, 4, 5] <| by
      intro n member
      rw [firstNumber]
      refine ⟨sundayName_lent (by simp at member; omega), sunday _ ?_⟩
      exact List.mem_append_left _ (List.mem_append_right _ (List.mem_map_of_mem member))
  obtain ⟨easter, easterMade, easterSpots⟩ := year.exists_numbered year.easter "easter_sunday"
    "Easter" (fun _ => "white") [2, 3, 4, 5, 6, 7] <| by
      intro n member
      refine ⟨sundayName_afterEaster (by simp at member; omega), sunday _ ?_⟩
      exact List.mem_append_right _ (List.mem_map_of_mem member)
  refine ⟨advent ++ lent ++ easter, ?_, ?_⟩
  · simp only [Emission.seasonalSundays, Anchors.get_eq_ok.mpr year.advent_found,
      Anchors.get_eq_ok.mpr year.lent_found, Anchors.get_eq_ok.mpr year.easter_found, bind,
      Except.bind, firstFound, inRange]
    simp only [adventMade, lentMade, easterMade]
    rfl
  · rw [List.map_append, List.map_append, adventSpots, lentSpots, easterSpots, firstNumber,
      seasonalDays, List.map_append, List.map_append, List.map_map, List.map_map, List.map_map]
    rfl

/-- No Sunday in Ordinary Time goes without a number. -/
theorem exists_ordinarySundays :
    ∃ sundays : List Date, sundays.map Date.number = year.ordinaryDays ∧
      Emission.ordinarySundays anchors =
        .ok (sundays.zipIdx.map fun (date, index) => (date, (index : Int) + 2)) := by
  have reckoning := year.reckoning
  have winterWeeks := year.winterWeeks_eq
  have summerWeeks := year.summerWeeks_eq
  have weeks := year.weeks_eq
  have high := year.advent.le_last
  obtain ⟨winter, winterFound, winterDays⟩ : ∃ dates,
      Emission.sundaysBetween anchors "baptism_of_the_lord" "ash_wednesday" 34 = .ok dates ∧
        dates.map Date.number = (List.range year.winterWeeks).map fun (week : Nat) =>
          year.baptism.number + 7 + 7 * (week : Int) := by
    apply Emission.exists_sundaysBetween year.baptism_found year.lent_found year.baptism_sunday
    · omega
    · constructor <;> omega
    · omega
  have winterLength : winter.length = year.winterWeeks := by
    simpa using congrArg List.length winterDays
  obtain ⟨summer, summerFound, summerDays⟩ : ∃ dates,
      Emission.sundaysBetween anchors "pentecost" "advent_1" (33 - winter.length + 1) = .ok dates ∧
        dates.map Date.number = (List.range year.summerWeeks).map fun (week : Nat) =>
          year.pentecost.number + 7 + 7 * (week : Int) := by
    apply Emission.exists_sundaysBetween year.pentecost_found year.advent_found
    · omega
    · omega
    · constructor <;> omega
    · omega
  have days : (winter ++ summer).map Date.number = year.ordinaryDays := by
    rw [List.map_append, winterDays, summerDays, ordinaryDays]
  have room : (winter ++ summer).length ≤ Emission.lastOrdinarySunday - 1 := by
    have numbers : Emission.lastOrdinarySunday - 1 = 33 := rfl
    have length := congrArg List.length days
    rw [List.length_map, length_ordinaryDays] at length
    omega
  refine ⟨winter ++ summer, days, ?_⟩
  simp only [Emission.ordinarySundays, Attempt.bind_eq_ok, Attempt.pure_eq_ok]
  exact ⟨winter, winterFound, summer, summerFound, by rw [List.take_of_length_le room]⟩

theorem exists_ordinaryTime :
    ∃ ordinary, Emission.ordinaryTime anchors = .ok ordinary ∧
      ordinary.map Emission.spot = year.ordinaryDays.map year.named := by
  obtain ⟨sundays, days, found⟩ := year.exists_ordinarySundays
  have emits : ∃ ordinary,
      ((sundays.zipIdx.map fun entry => (entry.1, (entry.2 : Int) + 2)).mapM fun entry =>
        Emission.make anchors entry.1 ("ordinary_sunday_" ++ intText entry.2)
          (ordinal entry.2 ++ " Sunday in Ordinary Time") .sunday (some "green") false) =
        .ok ordinary ∧
      ordinary.map Emission.spot =
        (sundays.zipIdx.map fun entry => (entry.1, (entry.2 : Int) + 2)).map
          fun entry => year.named entry.1.number := by
    apply Attempt.exists_mapM_map
    intro entry member
    obtain ⟨⟨date, index⟩, numbered, rfl⟩ := List.mem_map.mp member
    have placed : year.ordinaryDays[index]? = some date.number := by
      rw [← days, List.getElem?_map, List.mem_zipIdx_iff_getElem?.mp numbered]
      rfl
    obtain ⟨emission, made, spot⟩ := Emission.exists_make year.toSeasonTurns date
      ("ordinary_sunday_" ++ intText ((index : Int) + 2))
      (ordinal ((index : Int) + 2) ++ " Sunday in Ordinary Time") .sunday (some "green") false
    refine ⟨emission, made, ?_⟩
    rw [spot, named, sundayName_ordinaryDays placed]
  obtain ⟨ordinary, made, spots⟩ := emits
  refine ⟨ordinary, Attempt.bind_eq_ok.mpr ⟨_, found, made⟩, ?_⟩
  calc ordinary.map Emission.spot
      = (sundays.zipIdx.map Prod.fst).map fun date => year.named date.number := by
        rw [spots, List.map_map, List.map_map]
        rfl
    _ = year.ordinaryDays.map year.named := by
        rw [List.zipIdx_map_fst, ← days, List.map_map]
        rfl

theorem spot_of_inCatalogue (year : RomanYear anchors) {given : Json} {celebration : Celebration}
    {emission : Emission} (listed : (celebration.id, celebration.rule) ∈ SundayId.inCatalogue)
    (celebrates : Emission.Celebrates given anchors celebration emission) :
    emission.1.number ∈ year.catalogueDays ∧ emission.spot = year.named emission.1.number := by
  simp only [SundayId.inCatalogue, List.mem_cons, List.not_mem_nil, or_false, Prod.mk.injEq] at listed
  rw [Emission.spot, named, celebrates.id_eq]
  rcases listed with ⟨own, rule⟩ | ⟨own, rule⟩ | ⟨own, rule⟩
  · rw [celebrates.fst_eq rule year.palm_found, own, sundayName_palm]
    exact ⟨by simp [catalogueDays], rfl⟩
  · rw [celebrates.fst_eq rule year.easter_found, own, sundayName_easter]
    exact ⟨by simp [catalogueDays], rfl⟩
  · rw [celebrates.fst_eq rule year.pentecost_found, own, sundayName_pentecost]
    exact ⟨by simp [catalogueDays], rfl⟩

theorem exists_catalogueDay (year : RomanYear anchors) {given : Json} {emissions : List Emission}
    (celebrated : ∀ celebration ∈ Catalogue.builtin,
      ∃ emission ∈ emissions, Emission.Celebrates given anchors celebration emission) {day : Int}
    (member : day ∈ year.catalogueDays) : ∃ emission ∈ emissions, emission.spot = year.named day := by
  have emitted : ∀ (id : String) (key : Key) (date : Date),
      (id, .rule (.anchor key)) ∈ SundayId.inCatalogue → anchors.find? key.val = some date →
      year.sundayName date.number = id →
      ∃ emission ∈ emissions, emission.spot = year.named date.number := by
    intro id key date entry dated name
    obtain ⟨celebration, listed, same⟩ := SundayId.exists_inCatalogue _ entry
    obtain ⟨own, rule⟩ := Prod.mk.inj same
    obtain ⟨emission, member, celebrates⟩ := celebrated celebration listed
    refine ⟨emission, member, ?_⟩
    rw [Emission.spot, RomanYear.named, celebrates.id_eq, own, name,
      celebrates.fst_eq rule dated]
  simp only [catalogueDays, List.mem_cons, List.not_mem_nil, or_false] at member
  rcases member with rfl | rfl | rfl
  · exact emitted _ _ _ (.head _) year.palm_found sundayName_palm
  · exact emitted _ _ _ (.tail _ (.head _)) year.easter_found sundayName_easter
  · exact emitted _ _ _ (.tail _ (.tail _ (.head _))) year.pentecost_found sundayName_pentecost

theorem seasonOf?_begins (turns : SeasonTurns anchors) :
    ∀ entry ∈ turns.begins, SundayId.seasonOf? entry.2 = none := by
  simp only [SeasonTurns.begins, List.forall_mem_cons, List.not_mem_nil, false_implies,
    implies_true, and_true]
  decide

end RomanYear

/-- Where an emission of a year comes from. -/
inductive RomanYear.Source {anchors : Anchors} (year : RomanYear anchors) (given : Json)
    (emission : Emission) : Prop
  | marker (begins : (emission.1, emission.2.id) ∈ year.begins)
  | numbered
    (day : emission.1.number ∈ year.ordinaryDays ∨ emission.1.number ∈ year.seasonalDays)
    (spot : emission.spot = year.named emission.1.number)
  | celebration {celebration : Celebration} (listed : celebration ∈ Catalogue.builtin)
    (celebrates : Emission.Celebrates given anchors celebration emission)

/-- The numbered Sundays and the catalogue are emitted, and besides them only the markers. -/
structure RomanYear.Emits {anchors : Anchors} (year : RomanYear anchors) (given : Json)
    (emissions : List Emission) : Prop where
  source : ∀ emission ∈ emissions, year.Source given emission
  numbered : ∀ day, day ∈ year.ordinaryDays ∨ day ∈ year.seasonalDays →
    ∃ emission ∈ emissions, emission.spot = year.named day
  celebrated : ∀ celebration ∈ Catalogue.builtin,
    ∃ emission ∈ emissions, Emission.Celebrates given anchors celebration emission

theorem RomanYear.exists_emits {year : Int} {anchors : AnchorTable}
    (held : 1 ≤ year ∧ year ≤ 9999) (built : AnchorTable.builtin (.int year) = .ok anchors)
    (roman : RomanYear anchors) :
    ∃ emissions, Emission.ofYear (.int year) anchors Catalogue.builtin = .ok emissions ∧
      roman.Emits (.int year) emissions := by
  obtain ⟨markers, marked, names, -⟩ := roman.exists_seasonMarkers
  obtain ⟨seasonal, seasonalMade, seasonalSpots⟩ := roman.exists_seasonalSundays
  obtain ⟨ordinary, ordinaryMade, ordinarySpots⟩ := roman.exists_ordinaryTime
  obtain ⟨named, namedMade⟩ := Catalogue.exists_celebrations held built
  refine ⟨_, Emission.ofYear_eq_ok.mpr ⟨markers, seasonal, ordinary, named, marked, seasonalMade,
    ordinaryMade, namedMade, rfl⟩, ?_, ?_, ?_⟩
  · intro emission member
    simp only [List.append_assoc, List.mem_append] at member
    rcases member with marker | inSeason | inOrdinary | celebrated
    · exact .marker (names ▸ List.mem_map_of_mem marker)
    · obtain ⟨day, spotted⟩ := RomanYear.spot_of_mem seasonalSpots inSeason
      exact .numbered (Or.inr day) spotted
    · obtain ⟨day, spotted⟩ := RomanYear.spot_of_mem ordinarySpots inOrdinary
      exact .numbered (Or.inl day) spotted
    · obtain ⟨celebration, listed, celebrates⟩ := (Emission.mem_celebrations namedMade).mp celebrated
      exact .celebration listed celebrates
  · simp only [List.append_assoc, List.mem_append]
    rintro day (inOrdinary | inSeason)
    · obtain ⟨emission, member, spotted⟩ := RomanYear.exists_spot ordinarySpots inOrdinary
      exact ⟨emission, Or.inr (Or.inr (Or.inl member)), spotted⟩
    · obtain ⟨emission, member, spotted⟩ := RomanYear.exists_spot seasonalSpots inSeason
      exact ⟨emission, Or.inr (Or.inl member), spotted⟩
  · intro celebration listed
    obtain ⟨emission, member, celebrates⟩ := Emission.exists_mem_celebrations namedMade listed
    exact ⟨emission, List.mem_append_right _ member, celebrates⟩

/-- Every Sunday is emitted under its name, and ids of Sundays are emitted no other way. -/
structure RomanYear.NamesSundays {anchors : Anchors} (year : RomanYear anchors)
    (emissions : List Emission) : Prop where
  named : ∀ emission ∈ emissions, SundayId.seasonOf? emission.2.id = none ∨
    year.IsSunday emission.1.number ∧ emission.spot = year.named emission.1.number
  each : ∀ day, year.IsSunday day → ∃ emission ∈ emissions, emission.spot = year.named day

theorem RomanYear.Emits.namesSundays {anchors : Anchors} {year : RomanYear anchors} {given : Json}
    {emissions : List Emission} (emits : year.Emits given emissions) :
    year.NamesSundays emissions := by
  constructor
  · intro emission member
    cases emits.source emission member with
    | marker begins => exact Or.inl (seasonOf?_begins year.toSeasonTurns _ begins)
    | numbered day spot =>
      refine Or.inr ⟨?_, spot⟩
      rcases day with inOrdinary | inSeason
      · exact isSunday_of_ordinaryDays inOrdinary
      · exact isSunday_of_seasonalDays inSeason
    | celebration listed celebrates =>
      rcases SundayId.seasonOf?_builtin _ listed with other | sunday
      · left
        rw [celebrates.id_eq, other]
      · right
        obtain ⟨day, spot⟩ := year.spot_of_inCatalogue sunday celebrates
        exact ⟨isSunday_of_catalogueDays day, spot⟩
  · intro day sunday
    rcases sunday_cases sunday with inOrdinary | inSeason | inCatalogue
    · exact emits.numbered day (Or.inl inOrdinary)
    · exact emits.numbered day (Or.inr inSeason)
    · exact year.exists_catalogueDay emits.celebrated inCatalogue

theorem RomanYear.exists_ofYear {year : Int} {anchors : AnchorTable}
    (held : 1 ≤ year ∧ year ≤ 9999) (built : AnchorTable.builtin (.int year) = .ok anchors)
    (roman : RomanYear anchors) :
    ∃ emissions, Emission.ofYear (.int year) anchors Catalogue.builtin = .ok emissions ∧
      roman.NamesSundays emissions := by
  obtain ⟨emissions, emitted, emits⟩ := roman.exists_emits held built
  exact ⟨emissions, emitted, emits.namesSundays⟩

namespace ObservanceTable

variable {anchors : Anchors} {year : RomanYear anchors} {emissions : List Emission} {date : Date}

theorem sunday_of_mem_on (names : year.NamesSundays emissions) {observance : Observance}
    {season : Season} (stands : observance ∈ (ofEmissions emissions).on date)
    (known : SundayId.seasonOf? observance.id = some season) :
    year.IsSunday date.number ∧ observance.id = year.sundayName date.number := by
  rcases names.named _ (emitted_of_mem_on stands) with other | ⟨sunday, spot⟩
  · cases known.symm.trans other
  · exact ⟨sunday, congrArg Prod.snd spot⟩

theorem exists_sunday_on (names : year.NamesSundays emissions) (sunday : year.IsSunday date.number) :
    ∃ observance ∈ (ofEmissions emissions).on date,
      observance.id = year.sundayName date.number := by
  obtain ⟨emission, member, spot⟩ := names.each _ sunday
  have sameDate : emission.1 = date := Date.eq_of_number (congrArg Prod.fst spot)
  have emitted : (emission.1, emission.2) ∈ emissions := member
  obtain ⟨observance, stands, same⟩ := exists_on_of_mem emitted
  exact ⟨observance, sameDate ▸ stands, same.trans (congrArg Prod.snd spot)⟩

theorem existsUnique_sunday_on (names : year.NamesSundays emissions)
    (sunday : year.IsSunday date.number) :
    ∃! observance, observance ∈ (ofEmissions emissions).on date ∧
      ∃ season, SundayId observance.id season := by
  obtain ⟨observance, stands, name⟩ := exists_sunday_on names sunday
  refine ⟨observance, ⟨stands, year.season date, ?_⟩, ?_⟩
  · rw [name]
    exact RomanYear.sundayId_sundayName sunday
  · rintro other ⟨otherStands, season, otherNames⟩
    obtain ⟨-, otherName⟩ := sunday_of_mem_on names otherStands otherNames.seasonOf?_eq
    exact List.inj_on_of_nodup_map (nodup_ids_on emissions date) otherStands stands
      (otherName.trans name.symm)

def ordinarySundays (table : ObservanceTable) : List Emission :=
  table.entries.filter fun entry => "ordinary_sunday_".toList.isPrefixOf entry.2.id.toList

theorem mem_ordinarySundays (names : year.NamesSundays emissions) {observance : Observance} :
    (date, observance) ∈ (ofEmissions emissions).ordinarySundays ↔
      observance ∈ (ofEmissions emissions).on date ∧ date.number ∈ year.ordinaryDays ∧
        observance.id = year.sundayName date.number := by
  rw [ordinarySundays, List.mem_filter, mem_entries]
  refine and_congr_right fun stands => ?_
  constructor
  · intro numbered
    have known := SundayId.seasonOf?_ordinary numbered
    obtain ⟨sunday, name⟩ := sunday_of_mem_on names stands known
    have named := (RomanYear.sundayId_sundayName sunday).seasonOf?_eq
    rw [← name, known] at named
    exact ⟨RomanYear.mem_ordinaryDays sunday (Option.some.inj named).symm, name⟩
  · rintro ⟨member, name⟩
    obtain ⟨index, fits, found⟩ := List.getElem_of_mem member
    have placed : year.ordinaryDays[index]? = some date.number :=
      List.getElem?_eq_some_iff.mpr ⟨fits, found⟩
    rw [name, RomanYear.sundayName_ordinaryDays placed]
    exact SundayId.isPrefixOf_append_self _ _

theorem pairwise_ordinarySundays (names : year.NamesSundays emissions) :
    (ofEmissions emissions).ordinarySundays.Pairwise fun left right => left.1 < right.1 := by
  have distinct : (ofEmissions emissions).ordinarySundays.Pairwise fun left right =>
      left.1 < right.1 ∨ left.1 = right.1 ∧ left.2.id ≠ right.2.id :=
    (pairwise_entries emissions).filter _
  refine distinct.imp_of_mem fun leftMember rightMember placed => ?_
  rcases placed with before | ⟨same, different⟩
  · exact before
  · obtain ⟨-, -, leftName⟩ := (mem_ordinarySundays names).mp leftMember
    obtain ⟨-, -, rightName⟩ := (mem_ordinarySundays names).mp rightMember
    rw [leftName, rightName, same] at different
    exact absurd rfl different

theorem days_ordinarySundays (names : year.NamesSundays emissions) :
    (ofEmissions emissions).ordinarySundays.map (fun entry => entry.1.number) =
      year.ordinaryDays := by
  have ascending : ((ofEmissions emissions).ordinarySundays.map
      fun entry => entry.1.number).Pairwise (· < ·) :=
    List.pairwise_map.mpr (pairwise_ordinarySundays names)
  apply ascending.eq_of_mem_iff year.pairwise_ordinaryDays
  intro day
  constructor
  · intro member
    obtain ⟨entry, listed, rfl⟩ := List.mem_map.mp member
    exact ((mem_ordinarySundays names).mp listed).2.1
  · intro member
    obtain ⟨emission, -, spot⟩ := names.each day (RomanYear.isSunday_of_ordinaryDays member)
    have number : emission.1.number = day := congrArg Prod.fst spot
    subst number
    obtain ⟨observance, stands, name⟩ :=
      exists_sunday_on names (RomanYear.isSunday_of_ordinaryDays member)
    exact List.mem_map.mpr
      ⟨(emission.1, observance), (mem_ordinarySundays names).mpr ⟨stands, member, name⟩, rfl⟩

theorem ids_ordinarySundays (names : year.NamesSundays emissions) :
    (ofEmissions emissions).ordinarySundays.map (fun entry => entry.2.id) =
      (List.range' 2 (year.winterWeeks + year.summerWeeks)).map fun (n : Nat) =>
        "ordinary_sunday_" ++ intText n := by
  rw [← year.names_ordinaryDays, ← days_ordinarySundays names, List.map_map]
  refine List.map_congr_left fun entry member => ?_
  exact ((mem_ordinarySundays names).mp member).2.2

theorem king_ordinarySundays (names : year.NamesSundays emissions) :
    ∃ observance ∈ (ofEmissions emissions).on year.king, observance.id =
      "ordinary_sunday_" ++ intText ((year.winterWeeks + year.summerWeeks + 1 : Nat) : Int) := by
  have reckoning := year.reckoning
  have summer := year.summerWeeks_eq
  have placed : year.ordinaryDays[year.winterWeeks + (year.summerWeeks - 1)]? =
      some year.king.number := by
    rw [RomanYear.ordinaryDays, List.getElem?_append_right (by simp), List.length_map,
      List.length_range, Nat.add_sub_cancel_left, List.getElem?_map,
      List.getElem?_range (by omega), Option.map_some]
    congr 1
    omega
  have sunday : year.IsSunday year.king.number := ⟨by omega, by omega, by omega⟩
  obtain ⟨observance, stands, name⟩ := exists_sunday_on names sunday
  refine ⟨observance, stands, ?_⟩
  rw [name, RomanYear.sundayName_ordinaryDays placed]
  congr 2
  omega

/-- Between the Baptism of the Lord and Christmas every Sunday has one observance with the id of a
Sunday, and such ids stand on Sundays of the season that they name. The Sundays in Ordinary Time are
numbered in the order of their dates from two to 32 or 33, the last being that of Christ the King. -/
theorem sundays_of_builtin {given : Int} (held : 1 ≤ given ∧ given ≤ 9999) :
    ∃ anchors table baptism christmas king, AnchorTable.builtin (.int given) = .ok anchors ∧
      build (.int given) anchors Catalogue.builtin = .ok table ∧
      anchors.find? "baptism_of_the_lord" = some baptism ∧
      anchors.find? "christmas" = some christmas ∧ anchors.find? "christ_king" = some king ∧
      (∀ date, date.weekday = 0 → baptism < date → date < christmas →
        ((table.on date).map Observance.id).Nodup ∧
        ∃! observance, observance ∈ table.on date ∧ ∃ season, SundayId observance.id season) ∧
      (∀ date, ∀ observance ∈ table.on date, ∀ season, SundayId observance.id season →
        date.weekday = 0 ∧ Season.ofDate date anchors = .ok season) ∧
      ∃ last : Nat, (last = 32 ∨ last = 33) ∧
        table.ordinarySundays.map (fun entry => entry.2.id) =
          (List.range' 2 (last - 1)).map (fun (n : Nat) => "ordinary_sunday_" ++ intText n) ∧
        table.ordinarySundays.Pairwise (fun left right => left.1 < right.1) ∧
        ∃ observance ∈ table.on king, observance.id = "ordinary_sunday_" ++ intText last := by
  obtain ⟨anchors, built⟩ := AnchorTable.exists_builtin held
  obtain ⟨year⟩ := exists_romanYear held built
  obtain ⟨emissions, emits, names⟩ := year.exists_ofYear held built
  have weeks := year.weeks_eq
  refine ⟨anchors, _, year.baptism, year.christmas, year.king, built,
    build_eq_ok.mpr ⟨emissions, emits, rfl⟩, year.baptism_found, year.christmas_found,
    year.king_found, ?_, ?_, year.winterWeeks + year.summerWeeks + 1, by omega, ?_,
    pairwise_ordinarySundays names, king_ordinarySundays names⟩
  · intro date sunday after before
    exact ⟨nodup_ids_on emissions date, existsUnique_sunday_on names ⟨sunday, after, before⟩⟩
  · intro date observance stands season known
    obtain ⟨sunday, name⟩ := sunday_of_mem_on names stands known.seasonOf?_eq
    have named := (RomanYear.sundayId_sundayName sunday).seasonOf?_eq
    rw [← name, known.seasonOf?_eq] at named
    rw [year.ofDate_eq, Option.some.inj named]
    exact ⟨sunday.sunday, rfl⟩
  · exact ids_ordinarySundays names

theorem sundays_of_builtin_2025 :
    (1 ≤ (2025 : Int) ∧ (2025 : Int) ≤ 9999) ∧
      ∃ anchors table king, AnchorTable.builtin (.int 2025) = .ok anchors ∧
        build (.int 2025) anchors Catalogue.builtin = .ok table ∧
        anchors.find? "christ_king" = some king ∧
        ∃ last : Nat, (last = 32 ∨ last = 33) ∧ table.ordinarySundays.length = last - 1 ∧
          ∃ observance ∈ table.on king, observance.id = "ordinary_sunday_" ++ intText last := by
  have held : 1 ≤ (2025 : Int) ∧ (2025 : Int) ≤ 9999 := by decide
  obtain ⟨anchors, table, -, -, king, anchored, built, -, -, kingFound, -, -, last, bounds, ids, -,
    onKing⟩ := sundays_of_builtin held
  refine ⟨held, anchors, table, king, anchored, built, kingFound, last, bounds, ?_, onKing⟩
  simpa using congrArg List.length ids

end ObservanceTable

end FeastCalendar
