import FeastCalendar.Proofs.Civil.Iso
import FeastCalendar.Proofs.Observance.Season
import FeastCalendar.Proofs.Sorting

/-!
How a year's table gathers what is emitted. What is to be shown is drafted first, in the order of
emission and without regard to seasons. The table has the dates of the drafts in ascending order and
under each date the drafts for it, less those whose id an earlier one has, by rank and title.
-/

namespace FeastCalendar
open Civil (Date)

/-- What is to be shown on a date, whatever season the date is in. -/
structure Draft where
  date : Date
  id : String
  title : String
  rank : Rank
  color : Option String
  seasonMarker : Bool
deriving DecidableEq

namespace Draft

def shown (draft : Draft) (season : Season) : Observance where
  id := draft.id
  title := draft.title
  rank := draft.rank
  color := some (draft.color.getD season.color)
  season := some season
  seasonMarker := draft.seasonMarker

/-- The season markers: an anchor, the days from it to the marker, id and title. -/
def beginnings : List (String × Int × String × String) := [
  ("advent_1", 0, "season_advent", "Season of Advent begins"),
  ("christmas", 0, "season_christmas", "Christmas Season begins"),
  ("baptism_of_the_lord", 1, "season_ordinary_time_1", "Ordinary Time resumes"),
  ("ash_wednesday", 0, "season_lent", "Season of Lent begins"),
  ("easter", 0, "season_easter", "Easter Season begins"),
  ("pentecost", 1, "season_ordinary_time_2", "Ordinary Time resumes")]

def seasonMarkers (anchors : Anchors) : Option (List Draft) :=
  beginnings.mapM fun (key, days, id, title) => do
    let date ← (← anchors.find? key).add? days
    return ⟨date, id, title, .weekday, none, true⟩

def sunday? (first : Date) (id season : String) (color : Int → String) (n : Int) : Option Draft := do
  let date ← first.add? (7 * (n - 1))
  return ⟨date, id ++ "_" ++ Text.intText n, ordinal n ++ " Sunday of " ++ season, .sunday,
    some (color n), false⟩

def seasonalSundays (anchors : Anchors) : Option (List Draft) := do
  let advent ← anchors.find? "advent_1"
  let lent ← (← anchors.find? "ash_wednesday").nextWeekday? 0 false
  let easter ← anchors.find? "easter"
  let ofAdvent ← [1, 2, 3, 4].mapM
    (sunday? advent "advent_sunday" "Advent" fun n => if n = 3 then "rose" else "violet")
  let ofLent ← [1, 2, 3, 4, 5].mapM
    (sunday? lent "lent_sunday" "Lent" fun n => if n = 4 then "rose" else "violet")
  let ofEaster ← [2, 3, 4, 5, 6, 7].mapM (sunday? easter "easter_sunday" "Easter" fun _ => "white")
  return ofAdvent ++ ofLent ++ ofEaster

def ordinarySunday (sunday : Date × Int) : Draft :=
  ⟨sunday.1, "ordinary_sunday_" ++ Text.intText sunday.2,
    ordinal sunday.2 ++ " Sunday in Ordinary Time", .sunday, some "green", false⟩

def celebration? (year : Json) (anchors : Anchors) (celebration : Celebration) : Option Draft := do
  let date ← (celebration.rule.resolve year anchors none).toOption
  return ⟨date, celebration.id, celebration.title, celebration.rank, celebration.color, false⟩

def ofYear (year : Json) (anchors : Anchors) (catalogue : List Celebration) :
    Option (List Draft) := do
  let markers ← seasonMarkers anchors
  let seasonal ← seasonalSundays anchors
  let ordinary ← (Emission.ordinarySundays anchors).toOption
  let named ← catalogue.mapM (celebration? year anchors)
  return markers ++ seasonal ++ ordinary.map ordinarySunday ++ named

def unseen (seen : List String) : List Draft → List Draft
  | [] => []
  | draft :: rest =>
    if draft.id ∈ seen then unseen seen rest else draft :: unseen (draft.id :: seen) rest

def Shows (anchors : Anchors) (draft : Draft) (emission : Emission) : Prop :=
  ∃ season, Season.ofDate draft.date anchors = .ok season ∧
    emission = (draft.date, draft.shown season)

variable {anchors : Anchors} {year : Json} {catalogue : List Celebration}

@[simp] theorem shown_id (draft : Draft) (season : Season) : (draft.shown season).id = draft.id := rfl

theorem make_eq_ok_iff_shows {date : Date} {id title : String} {rank : Rank}
    {color : Option String} {seasonMarker : Bool} {emission : Emission} :
    Emission.make anchors date id title rank color seasonMarker = .ok emission ↔
      Shows anchors ⟨date, id, title, rank, color, seasonMarker⟩ emission := by
  rw [Emission.make_eq_ok, Shows]
  refine exists_congr fun season => and_congr_right fun _ => ?_
  rw [eq_comm]
  cases color <;> rfl

theorem exists_drafts_of_mapM {α : Type} {given : List α} {emit : α → Except Failure Emission}
    {draft? : α → Option Draft} {emissions : List Emission}
    (each : ∀ value emission, emit value = .ok emission →
      ∃ draft, draft? value = some draft ∧ Shows anchors draft emission)
    (emitted : given.mapM emit = .ok emissions) :
    ∃ drafts, given.mapM draft? = some drafts ∧ List.Forall₂ (Shows anchors) drafts emissions := by
  induction Attempt.mapM_eq_ok.mp emitted with
  | nil => exact ⟨[], rfl, .nil⟩
  | @cons value emission rest others here later ih =>
    obtain ⟨draft, drafted, shows⟩ := each value emission here
    obtain ⟨drafts, found, further⟩ := ih (Attempt.mapM_eq_ok.mpr later)
    refine ⟨draft :: drafts, ?_, .cons shows further⟩
    simp [List.mapM_cons, drafted, found]

theorem exists_seasonMarkers {emissions : List Emission}
    (emitted : Emission.seasonMarkers anchors = .ok emissions) :
    ∃ drafts, seasonMarkers anchors = some drafts ∧
      List.Forall₂ (Shows anchors) drafts emissions := by
  simp only [Emission.seasonMarkers, Attempt.bind_eq_ok, inRange_eq_ok, Anchors.get_eq_ok] at emitted
  obtain ⟨advent, adventFound, christmas, christmasFound, baptism, baptismFound, winter, winterFound,
    lent, lentFound, easter, easterFound, pentecost, pentecostFound, summer, summerFound, made⟩ :=
    emitted
  have still : ∀ date : Date, date.add? 0 = some date := fun date =>
    Date.add?_eq_some_iff.mpr (Int.add_zero _).symm
  have drafted : seasonMarkers anchors = some [
      ⟨advent, "season_advent", "Season of Advent begins", .weekday, none, true⟩,
      ⟨christmas, "season_christmas", "Christmas Season begins", .weekday, none, true⟩,
      ⟨winter, "season_ordinary_time_1", "Ordinary Time resumes", .weekday, none, true⟩,
      ⟨lent, "season_lent", "Season of Lent begins", .weekday, none, true⟩,
      ⟨easter, "season_easter", "Easter Season begins", .weekday, none, true⟩,
      ⟨summer, "season_ordinary_time_2", "Ordinary Time resumes", .weekday, none, true⟩] := by
    simp [seasonMarkers, beginnings, adventFound, christmasFound, baptismFound, lentFound,
      easterFound, pentecostFound, winterFound, summerFound, still]
  refine ⟨_, drafted, ?_⟩
  have each := Attempt.mapM_eq_ok.mp made
  simp only [List.forall₂_cons_left_iff, List.forall₂_nil_left_iff, make_eq_ok_iff_shows] at each ⊢
  exact each

theorem exists_sundays {first : Date} {id season : String} {color : Int → String}
    {numbers : List Int} {emissions : List Emission}
    (emitted : (numbers.mapM fun n =>
      Emission.seasonalSunday anchors first (n - 1) n id season (color n)) = .ok emissions) :
    ∃ drafts, numbers.mapM (sunday? first id season color) = some drafts ∧
      List.Forall₂ (Shows anchors) drafts emissions := by
  refine exists_drafts_of_mapM (fun n emission made => ?_) emitted
  simp only [Emission.seasonalSunday, Attempt.bind_eq_ok, inRange_eq_ok] at made
  obtain ⟨date, moved, made⟩ := made
  exact ⟨_, by simp [sunday?, moved], make_eq_ok_iff_shows.mp made⟩

theorem exists_start {key : Text} {number : Int} {numbers : List Int} {emissions : List Emission}
    {emit : Date → Int → Except Failure Emission}
    (emitted : ((number :: numbers).mapM fun n => do emit (← anchors.get key) n) = .ok emissions) :
    ∃ start, anchors.find? key = some start ∧ (number :: numbers).mapM (emit start) = .ok emissions := by
  cases found : anchors.get key with
  | error failure =>
    rw [found, List.mapM_cons] at emitted
    cases emitted
  | ok start =>
    rw [found] at emitted
    exact ⟨start, Anchors.get_eq_ok.mp found, emitted⟩

theorem exists_seasonalSundays {emissions : List Emission}
    (emitted : Emission.seasonalSundays anchors = .ok emissions) :
    ∃ drafts, seasonalSundays anchors = some drafts ∧
      List.Forall₂ (Shows anchors) drafts emissions := by
  simp only [Emission.seasonalSundays, Attempt.bind_eq_ok, Attempt.pure_eq_ok, inRange_eq_ok,
    Anchors.get_eq_ok] at emitted
  obtain ⟨ofAdvent, adventMade, ash, ashFound, lent, lentFound, ofLent, lentMade, ofEaster,
    easterMade, rfl⟩ := emitted
  obtain ⟨advent, adventFound, adventMade⟩ := exists_start adventMade
  obtain ⟨easter, easterFound, easterMade⟩ := exists_start easterMade
  obtain ⟨adventDrafts, adventDrafted, adventShown⟩ := exists_sundays adventMade
  obtain ⟨lentDrafts, lentDrafted, lentShown⟩ := exists_sundays lentMade
  obtain ⟨easterDrafts, easterDrafted, easterShown⟩ := exists_sundays easterMade
  refine ⟨adventDrafts ++ lentDrafts ++ easterDrafts, ?_, ?_⟩
  · simp only [seasonalSundays, adventFound, ashFound, lentFound, easterFound, adventDrafted,
      lentDrafted, easterDrafted, Option.pure_def, Option.bind_eq_bind, Option.bind_some]
  · exact List.rel_append (List.rel_append adventShown lentShown) easterShown

theorem exists_ordinaryTime {emissions : List Emission}
    (emitted : Emission.ordinaryTime anchors = .ok emissions) :
    ∃ sundays, Emission.ordinarySundays anchors = .ok sundays ∧
      List.Forall₂ (Shows anchors) (sundays.map ordinarySunday) emissions := by
  obtain ⟨sundays, found, made⟩ := Attempt.bind_eq_ok.mp emitted
  refine ⟨sundays, found, ?_⟩
  rw [List.forall₂_map_left_iff]
  exact (Attempt.mapM_eq_ok.mp made).imp fun sunday emission own => make_eq_ok_iff_shows.mp own

theorem exists_celebrations {emissions : List Emission}
    (emitted : Emission.celebrations year anchors catalogue = .ok emissions) :
    ∃ drafts, catalogue.mapM (celebration? year anchors) = some drafts ∧
      List.Forall₂ (Shows anchors) drafts emissions := by
  refine exists_drafts_of_mapM (fun celebration emission made => ?_) emitted
  obtain ⟨date, dated, made⟩ := Attempt.bind_eq_ok.mp made
  exact ⟨_, by simp [celebration?, dated, Except.toOption], make_eq_ok_iff_shows.mp made⟩

theorem exists_ofYear {emissions : List Emission}
    (emitted : Emission.ofYear year anchors catalogue = .ok emissions) :
    ∃ drafts, ofYear year anchors catalogue = some drafts ∧
      List.Forall₂ (Shows anchors) drafts emissions := by
  obtain ⟨markers, seasonal, ordinary, named, marked, seasonalMade, ordinaryMade, namedMade, rfl⟩ :=
    Emission.ofYear_eq_ok.mp emitted
  obtain ⟨markerDrafts, markersDrafted, markersShown⟩ := exists_seasonMarkers marked
  obtain ⟨seasonalDrafts, seasonalDrafted, seasonalShown⟩ := exists_seasonalSundays seasonalMade
  obtain ⟨sundays, counted, ordinaryShown⟩ := exists_ordinaryTime ordinaryMade
  obtain ⟨namedDrafts, namedDrafted, namedShown⟩ := exists_celebrations namedMade
  refine ⟨markerDrafts ++ seasonalDrafts ++ sundays.map ordinarySunday ++ namedDrafts, ?_, ?_⟩
  · simp [ofYear, markersDrafted, seasonalDrafted, counted, namedDrafted, Except.toOption]
  · exact List.rel_append (List.rel_append (List.rel_append markersShown seasonalShown) ordinaryShown)
      namedShown

/-- Dropping seen ids before or after seasons are known is the same. -/
theorem firstOfEachId_shown (season : Season) (seen : List String) (drafts : List Draft) :
    (ObservanceTable.firstOfEachId (drafts.map fun draft => draft.shown season)).filter
        (fun observance => !seen.contains observance.id) =
      (unseen seen drafts).map fun draft => draft.shown season := by
  -- The table drops later ones of an id once it is kept; here the id joins those seen before.
  induction drafts generalizing seen with
  | nil => rfl
  | cons draft rest ih =>
    rw [List.map_cons, ObservanceTable.firstOfEachId, unseen, List.filter_cons, List.filter_filter]
    by_cases known : draft.id ∈ seen
    · have absorbed : ∀ observance : Observance, (!seen.contains observance.id &&
          decide (observance.id ≠ draft.id)) = !seen.contains observance.id := by
        intro observance
        by_cases same : observance.id = draft.id
        · simp [same, known]
        · simp [same]
      simp only [shown_id, if_pos known, List.contains_iff_mem.mpr known, Bool.not_true,
        Bool.false_eq_true, if_false]
      exact (List.filter_congr fun observance _ => absorbed observance).trans (ih seen)
    · have joined : ∀ observance : Observance, (!seen.contains observance.id &&
          decide (observance.id ≠ draft.id)) = !(draft.id :: seen).contains observance.id := by
        intro observance
        by_cases same : observance.id = draft.id
        · simp [same]
        · simp [same]
      have unknown : seen.contains draft.id = false := by simpa using known
      simp only [shown_id, if_neg known, unknown, Bool.not_false, if_true, List.map_cons]
      have later := (List.filter_congr fun observance _ => joined observance).trans
        (ih (draft.id :: seen))
      exact congrArg _ later

end Draft

namespace Observance

def RankedBefore (left right : Observance) : Prop :=
  right.rank.level < left.rank.level ∨ left.rank = right.rank ∧ left.title ≤ right.title

structure StablyRanked (given sorted : List Observance) : Prop where
  perm : sorted.Perm given
  ordered : sorted.Pairwise RankedBefore
  stable : ∀ rank title,
    sorted.filter (fun observance => observance.rank = rank && observance.title = title) =
      given.filter fun observance => observance.rank = rank && observance.title = title

theorem level_inj {left right : Rank} : left.level = right.level ↔ left = right := by
  cases left <;> cases right <;> decide

theorem noLater_iff {left right : Observance} :
    left.noLater right = true ↔ left.RankedBefore right := by
  simp only [noLater, RankedBefore, Bool.or_eq_true, Bool.and_eq_true, decide_eq_true_eq,
    Bool.not_eq_true', decide_eq_false_iff_not, level_inj, String.not_lt]

theorem RankedBefore.trans {first second third : Observance} (before : first.RankedBefore second)
    (after : second.RankedBefore third) : first.RankedBefore third := by
  unfold RankedBefore at *
  rcases before with higher | ⟨rank, title⟩
  · left
    rcases after with further | ⟨same, -⟩
    · omega
    · rwa [← same]
  · rcases after with further | ⟨same, later⟩
    · left
      rwa [rank]
    · exact Or.inr ⟨rank.trans same, String.le_trans title later⟩

theorem RankedBefore.total (left right : Observance) :
    left.RankedBefore right ∨ right.RankedBefore left := by
  unfold RankedBefore
  rcases Nat.lt_trichotomy left.rank.level right.rank.level with lower | same | higher
  · exact Or.inr (Or.inl lower)
  · have rank := level_inj.mp same
    rcases String.le_total left.title right.title with below | above
    · exact Or.inl (Or.inr ⟨rank, below⟩)
    · exact Or.inr (Or.inr ⟨rank.symm, above⟩)
  · exact Or.inl (Or.inl higher)

theorem stablyRanked_mergeSort (given : List Observance) :
    StablyRanked given (given.mergeSort noLater) := by
  have trans : ∀ first second third : Observance, first.noLater second = true →
      second.noLater third = true → first.noLater third = true := by
    intro first second third before after
    exact noLater_iff.mpr ((noLater_iff.mp before).trans (noLater_iff.mp after))
  have total : ∀ left right : Observance, (left.noLater right || right.noLater left) = true := by
    intro left right
    rw [Bool.or_eq_true, noLater_iff, noLater_iff]
    exact RankedBefore.total left right
  refine ⟨List.mergeSort_perm _ _, ?_, ?_⟩
  · exact (List.pairwise_mergeSort trans total given).imp fun before => noLater_iff.mp before
  · intro rank title
    apply Sorting.filter_mergeSort trans total
    intro left right leftAlike rightAlike
    simp only [Bool.and_eq_true, decide_eq_true_eq] at leftAlike rightAlike
    apply noLater_iff.mpr
    right
    rw [leftAlike.1, rightAlike.1, leftAlike.2, rightAlike.2]
    exact ⟨rfl, String.le_refl title⟩

end Observance

namespace ObservanceTable

/-- What a table makes of drafts: their dates in ascending order, and under each date the drafts for
it with the first of each id alone, in the season of the date, by rank and title. -/
structure Gathers (anchors : Anchors) (drafts : List Draft) (table : ObservanceTable) : Prop where
  mem_dates : ∀ date, date ∈ table.map Prod.fst ↔ ∃ draft ∈ drafts, draft.date = date
  ascending : (table.map Prod.fst).Pairwise (· < ·)
  isoAscending : (table.map fun entry => entry.1.iso).Pairwise (· < ·)
  each : ∀ entry ∈ table, ∃ season, Season.ofDate entry.1 anchors = .ok season ∧
    Observance.StablyRanked
      ((Draft.unseen [] (drafts.filter fun draft => draft.date = entry.1)).map fun draft =>
        draft.shown season)
      entry.2

variable {anchors : Anchors} {drafts : List Draft} {emissions : List Emission}

theorem mem_dates_iff_of_shows (shows : List.Forall₂ (Draft.Shows anchors) drafts emissions)
    (date : Date) : date ∈ dates emissions ↔ ∃ draft ∈ drafts, draft.date = date := by
  rw [mem_dates]
  induction shows with
  | nil => simp
  | @cons draft emission drafts emissions own later ih =>
    obtain ⟨season, -, rfl⟩ := own
    simp only [List.mem_cons, Prod.mk.injEq, exists_or, ih, exists_eq_or_imp]
    exact or_congr_left ⟨fun ⟨_, same, _⟩ => same.symm, fun same => ⟨_, same.symm, rfl⟩⟩

theorem emittedOn_of_shows (shows : List.Forall₂ (Draft.Shows anchors) drafts emissions)
    {date : Date} {season : Season} (found : Season.ofDate date anchors = .ok season) :
    emittedOn emissions date =
      (drafts.filter fun draft => draft.date = date).map fun draft => draft.shown season := by
  induction shows with
  | nil => rfl
  | @cons draft emission drafts emissions own later ih =>
    obtain ⟨own, ownFound, rfl⟩ := own
    rw [emittedOn] at ih ⊢
    by_cases same : draft.date = date
    · have seasons : own = season := by
        rw [same, found] at ownFound
        exact (Except.ok.inj ownFound).symm
      simp [same, seasons, ih]
    · simp [same, ih]

theorem exists_season_of_shows (shows : List.Forall₂ (Draft.Shows anchors) drafts emissions)
    {draft : Draft} (member : draft ∈ drafts) :
    ∃ season, Season.ofDate draft.date anchors = .ok season := by
  induction shows with
  | nil => cases member
  | cons own later ih =>
    rcases List.mem_cons.mp member with rfl | further
    · obtain ⟨season, found, -⟩ := own
      exact ⟨season, found⟩
    · exact ih further

theorem ofEmissions_gathers (shows : List.Forall₂ (Draft.Shows anchors) drafts emissions) :
    Gathers anchors drafts (ofEmissions emissions) := by
  have keys : (ofEmissions emissions).map Prod.fst = dates emissions := by
    rw [ofEmissions, List.map_map]
    exact List.map_id _
  refine ⟨?_, ?_, ?_, ?_⟩
  · intro date
    rw [keys]
    exact mem_dates_iff_of_shows shows date
  · rw [keys]
    exact pairwise_dates emissions
  · have isoKeys : (ofEmissions emissions).map (fun entry => entry.1.iso) =
        (dates emissions).map Date.iso := by
      rw [← keys, List.map_map]
      rfl
    rw [isoKeys, List.pairwise_map]
    exact (pairwise_dates emissions).imp Date.iso_lt_of_lt
  · intro entry member
    obtain ⟨date, listed, rfl⟩ := List.mem_map.mp member
    obtain ⟨draft, drafted, rfl⟩ := (mem_dates_iff_of_shows shows date).mp listed
    obtain ⟨season, found⟩ := exists_season_of_shows shows drafted
    refine ⟨season, found, ?_⟩
    have first := Draft.firstOfEachId_shown season [] (drafts.filter fun other => other.date = draft.date)
    simp only [List.contains_nil, Bool.not_false, List.filter_true] at first
    rw [← first, ← emittedOn_of_shows shows found]
    exact Observance.stablyRanked_mergeSort _

/-- A year's table gathers what is drafted for the year. -/
theorem build_gathers {year : Json} {catalogue : List Celebration} {table : ObservanceTable}
    (built : build year anchors catalogue = .ok table) :
    ∃ drafts, Draft.ofYear year anchors catalogue = some drafts ∧ table.Gathers anchors drafts := by
  obtain ⟨emissions, emitted, rfl⟩ := build_eq_ok.mp built
  obtain ⟨drafts, drafted, shows⟩ := Draft.exists_ofYear emitted
  exact ⟨drafts, drafted, ofEmissions_gathers shows⟩

def doubled : List Celebration := [
  ⟨"season_christmas", "Christmas once more", .feast, .rule (.fixed (.of 12) (.of 25)), some "red"⟩,
  ⟨"nativity", "Nativity of the Lord", .solemnity, .rule (.fixed (.of 12) (.of 25)), none⟩]

theorem build_gathers_doubled :
    ∃ table drafts, build (.int 2025) plainTurns doubled = .ok table ∧
      Draft.ofYear (.int 2025) plainTurns doubled = some drafts ∧
      (drafts.filter fun draft => draft.date = turnsOf2025.christmas).map Draft.id =
        ["season_christmas", "season_christmas", "nativity"] ∧
      (Draft.unseen [] (drafts.filter fun draft => draft.date = turnsOf2025.christmas)).map Draft.id =
        ["season_christmas", "nativity"] ∧
      table.Gathers plainTurns drafts := by
  obtain ⟨emissions, emits⟩ :
      ∃ emissions, Emission.ofYear (.int 2025) plainTurns doubled = .ok emissions := ⟨_, rfl⟩
  have built := build_eq_ok.mpr ⟨emissions, emits, rfl⟩
  obtain ⟨drafts, drafted, gathers⟩ := build_gathers built
  refine ⟨_, drafts, built, drafted, ?_, ?_, gathers⟩
  · cases drafted
    decide
  · cases drafted
    decide

end ObservanceTable

end FeastCalendar
