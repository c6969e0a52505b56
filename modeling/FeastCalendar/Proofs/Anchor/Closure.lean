import Mathlib.Data.List.Nodup
import Mathlib.Data.List.Range
import FeastCalendar.Proofs.Anchor.Table

/-!
What a date depends on. The date of an anchor is told by its definition and those it leads to, not
by how the definitions are listed or by what else is defined. Whether there is a table depends on
the listing only through the depth to which dependencies are followed.
-/

namespace FeastCalendar
open Civil (Date)
open Relation (ReflTransGen)

namespace Definitions

variable {first second : Definitions}

/-- Definitions that agree on a key and on all that it leads to. -/
def AgreeFrom (first second : Definitions) (key : Text) : Prop :=
  ∀ other, ReflTransGen first.Depends key other → Keyed.find? first other = Keyed.find? second other

theorem AgreeFrom.base {key base : Text} (agree : AgreeFrom first second key)
    (depends : first.Depends key base) : AgreeFrom first second base :=
  fun other reached => agree other (reached.head depends)

theorem depends_eq (same : ∀ key, Keyed.find? first key = Keyed.find? second key) :
    first.Depends = second.Depends := by
  funext key base
  simp only [Depends, same]

theorem mem_keys_congr (same : ∀ key, Keyed.find? first key = Keyed.find? second key) (key : Text) :
    key ∈ Keyed.keys first ↔ key ∈ Keyed.keys second := by
  rw [Keyed.mem_keys_iff, Keyed.mem_keys_iff, same]

theorem closed_congr (same : ∀ key, Keyed.find? first key = Keyed.find? second key) :
    first.Closed ↔ second.Closed := by
  simp only [Closed, depends_eq same, mem_keys_congr same]

theorem acyclic_congr (same : ∀ key, Keyed.find? first key = Keyed.find? second key) :
    first.Acyclic ↔ second.Acyclic := by
  simp only [Acyclic, depends_eq same]

def rung (n : Nat) : Text := [.ofNumber (0x4E00 + n)]

def rungBases : Nat → List Text
  | 0 => []
  | lower + 1 => [rung lower]

/-- Easter under many names, each based on the one before it. -/
def ladder (count : Nat) : Definitions :=
  (List.range count).map fun n => (rung n, .easterOffset 0 (rungBases n))

theorem rung_inj {left right : Nat} (leftBound : left < 0x100000) (rightBound : right < 0x100000)
    (same : rung left = rung right) : left = right := by
  have points : CodePoint.ofNumber (0x4E00 + left) = CodePoint.ofNumber (0x4E00 + right) :=
    (List.cons.inj same).1
  have numbers := congrArg CodePoint.number points
  rw [CodePoint.number_ofNumber (by omega), CodePoint.number_ofNumber (by omega)] at numbers
  omega

theorem keys_ladder (count : Nat) : Keyed.keys (ladder count) = (List.range count).map rung := by
  simp [ladder, Keyed.keys]

theorem nodup_keys_ladder {count : Nat} (few : count ≤ 0x100000) :
    (Keyed.keys (ladder count)).Nodup := by
  rw [keys_ladder]
  refine List.Nodup.map_on (fun left low right high same => ?_) List.nodup_range
  rw [List.mem_range] at low high
  exact rung_inj (by omega) (by omega) same

theorem find?_ladder {count n : Nat} (few : count ≤ 0x100000) (below : n < count) :
    Keyed.find? (ladder count) (rung n) = some (.easterOffset 0 (rungBases n)) :=
  (Keyed.find?_eq_some_iff (nodup_keys_ladder few)).mpr
    (List.mem_map_of_mem (f := fun n => (rung n, Anchor.easterOffset 0 (rungBases n)))
      (List.mem_range.mpr below))

theorem ordered_ladder {count n : Nat} (few : count ≤ 0x100000) (within : n ≤ count) :
    Ordered (ladder count) ((List.range n).map rung) := by
  induction n with
  | zero => exact .nil
  | succ n ih =>
    rw [List.range_succ, List.map_append]
    refine .snoc (ih (by omega)) ?_ (find?_ladder few (by omega)) ?_
    · intro member
      obtain ⟨other, below, same⟩ := List.mem_map.mp member
      rw [List.mem_range] at below
      have := rung_inj (by omega) (by omega) same
      omega
    · intro base names
      cases n with
      | zero => cases names
      | succ lower =>
        rw [List.mem_singleton.mp names]
        exact List.mem_map_of_mem (List.mem_range.mpr (by omega))

theorem orderWithin_ladder_reverse {count room : Nat} (few : count ≤ 0x100000) (long : room < count) :
    orderWithin room (ladder count).reverse = .error .tooDeep := by
  have same := Keyed.find?_eq_of_perm (List.reverse_perm (ladder count)).symm (nodup_keys_ladder few)
  have keys : Keyed.keys (ladder count).reverse = ((List.range count).map rung).reverse := by
    rw [← keys_ladder]
    simp [Keyed.keys]
  have walk : ((List.range count).map rung).reverse.IsChain
      (DependsFirst (ladder count).reverse) := by
    rw [List.isChain_reverse, List.isChain_map, List.isChain_range]
    intro n below
    exact ⟨_, [], (same _).symm.trans (find?_ladder few (by omega)), rfl⟩
  have distinct : ((List.range count).map rung).reverse.Nodup := by
    rw [List.nodup_reverse, ← keys_ladder]
    exact nodup_keys_ladder few
  have length : ((List.range count).map rung).reverse.length = count := by simp
  rw [orderWithin, keys]
  generalize ((List.range count).map rung).reverse = names at walk distinct length
  cases names with
  | nil => simp at length; omega
  | cons top rest =>
    rw [List.length_cons] at length
    rw [List.foldlM_cons, visit_tooDeep walk (by simpa using distinct) (by omega)]
    rfl

end Definitions

namespace AnchorTable

variable {first second definitions : Definitions} {year : Int} {easter : Date}

theorem find?_eq_of_agreeFrom {order otherOrder : List Text} {dates others : Keyed Text Date}
    (ordered : Definitions.Ordered first order)
    (all : ∀ key, key ∈ otherOrder ↔ key ∈ Keyed.keys second)
    (solves : Solves first year easter order dates)
    (otherSolves : Solves second year easter otherOrder others) :
    ∀ key ∈ order, first.AgreeFrom second key → Keyed.find? dates key = Keyed.find? others key := by
  refine ordered.dependency_induction fun key member ih agree => ?_
  obtain ⟨anchor, defined⟩ := Keyed.mem_keys_iff.mp (ordered.mem_keys member)
  have otherDefined := (agree key .refl).symm.trans defined
  have otherMember := (all key).mpr (Keyed.mem_keys_of_find? otherDefined)
  obtain ⟨date, found, resolved⟩ := solves.resolved key member anchor defined
  obtain ⟨otherDate, otherFound, otherResolved⟩ :=
    otherSolves.resolved key otherMember anchor otherDefined
  have bases : ∀ base ∈ anchor.dependsOn, Keyed.find? dates base = Keyed.find? others base := by
    intro base names
    have depends : first.Depends key base := ⟨anchor, defined, names⟩
    exact ih base depends (agree.base depends)
  rw [anchor.resolve_congr year easter bases, otherResolved] at resolved
  cases resolved
  rw [found, otherFound]

theorem find?_eq_of_baseless {table other : AnchorTable} {key : Text} {anchor : Anchor}
    (built : build (.int year) first = .ok table) (otherBuilt : build (.int year) second = .ok other)
    (defined : Keyed.find? first key = some anchor)
    (otherDefined : Keyed.find? second key = some anchor) (baseless : anchor.dependsOn = []) :
    table.find? key = other.find? key := by
  obtain ⟨easter, order, sunday, -, all, solves⟩ := buildWithin_ok built
  obtain ⟨otherEaster, otherOrder, otherSunday, -, otherAll, otherSolves⟩ := buildWithin_ok otherBuilt
  cases sunday.symm.trans otherSunday
  have member := (all key).mpr (Keyed.mem_keys_of_find? defined)
  have otherMember := (otherAll key).mpr (Keyed.mem_keys_of_find? otherDefined)
  obtain ⟨date, found, resolved⟩ := solves.resolved key member anchor defined
  obtain ⟨otherDate, otherFound, otherResolved⟩ :=
    otherSolves.resolved key otherMember anchor otherDefined
  have same : ∀ base ∈ anchor.dependsOn,
      Keyed.find? table.dates base = Keyed.find? other.dates base := by
    rw [baseless]
    exact nofun
  rw [anchor.resolve_congr year easter same, otherResolved] at resolved
  cases resolved
  exact found.trans otherFound.symm

/-- Where dates are known that hold against any placing of the bases on them, the placing succeeds
with these dates. -/
theorem exists_place {order : List Text} (solution : Text → Date)
    (ordered : Definitions.Ordered definitions order)
    (solves : ∀ key anchor placed, key ∈ order → Keyed.find? definitions key = some anchor →
      (∀ base ∈ anchor.dependsOn, Keyed.find? placed base = some (solution base)) →
      anchor.resolve year easter placed = .ok (solution key)) :
    ∃ placed, place definitions year easter order = .ok placed ∧
      ∀ key ∈ order, Keyed.find? placed key = some (solution key) := by
  induction ordered with
  | nil => exact ⟨[], rfl, by simp⟩
  | @snoc earlier last anchor ordered fresh defined bases ih =>
    obtain ⟨placed, found, dates⟩ := ih fun key anchor placed member =>
      solves key anchor placed (List.mem_append_left _ member)
    have resolved := solves last anchor placed (by simp) defined
      fun base names => dates base (bases base names)
    refine ⟨Keyed.put placed last (solution last), ?_, ?_⟩
    · rw [place_snoc, found]
      exact (placeNext_eq_ok defined).mpr ⟨_, resolved, rfl⟩
    · intro key member
      rcases List.mem_append.mp member with before | here
      · have different : key ≠ last := fun same => fresh (same ▸ before)
        rw [Keyed.find?_put_of_ne placed _ different]
        exact dates key before
      · rw [List.mem_singleton.mp here, Keyed.find?_put_self]

theorem exists_place_of_solves {order otherOrder : List Text} {dates : Keyed Text Date}
    (same : ∀ key, Keyed.find? first key = Keyed.find? second key)
    (all : ∀ key, key ∈ order ↔ key ∈ Keyed.keys first)
    (solves : Solves first year easter order dates)
    (ordered : Definitions.Ordered second otherOrder) :
    ∃ placed, place second year easter otherOrder = .ok placed := by
  let solution : Text → Date := fun key => (Keyed.find? dates key).getD easter
  have known : ∀ key ∈ Keyed.keys second, Keyed.find? dates key = some (solution key) := by
    intro key member
    obtain ⟨date, found⟩ :=
      solves.find?_of_mem ((all key).mpr ((Definitions.mem_keys_congr same key).mpr member))
    simp only [solution, found, Option.getD_some]
  have solution_resolves : ∀ key anchor placed, key ∈ otherOrder →
      Keyed.find? second key = some anchor →
      (∀ base ∈ anchor.dependsOn, Keyed.find? placed base = some (solution base)) →
      anchor.resolve year easter placed = .ok (solution key) := by
    intro key anchor placed member defined bases
    have firstDefined := (same key).trans defined
    obtain ⟨date, found, resolved⟩ := solves.resolved key
      ((all key).mpr (Keyed.mem_keys_of_find? firstDefined)) anchor firstDefined
    rw [known key (ordered.mem_keys member)] at found
    cases found
    rw [← resolved]
    refine anchor.resolve_congr year easter fun base names => ?_
    rw [bases base names, known base]
    exact ordered.mem_keys (ordered.base_mem member ⟨anchor, defined, names⟩)
  obtain ⟨placed, found, -⟩ := exists_place solution ordered solution_resolves
  exact ⟨placed, found⟩

theorem buildWithin_tooDeep {room : Nat} (sunday : Easter.sunday year = .ok easter)
    (deep : definitions.orderWithin room = .error .tooDeep) :
    buildWithin room (.int year) definitions = .error .tooDeep := by
  have refused : placingOrder room year definitions = .error .tooDeep :=
    Attempt.mapError_eq_error.mpr ⟨.tooDeep, deep, rfl⟩
  refine Attempt.bind_eq_error.mpr (Or.inr ⟨year, rfl, ?_⟩)
  refine Attempt.bind_eq_error.mpr (Or.inr ⟨easter, sunday, ?_⟩)
  exact Attempt.bind_eq_error.mpr (Or.inl refused)

/-- Definitions that agree on every key have a table all or none, if there is room to see it. -/
theorem exists_buildWithin_congr {room : Nat} (otherRoom : Nat) {given : Json} {table : AnchorTable}
    (same : ∀ key, Keyed.find? first key = Keyed.find? second key)
    (built : buildWithin room given first = .ok table) :
    (∃ other, buildWithin otherRoom given second = .ok other) ∨
      buildWithin otherRoom given second = .error .tooDeep ∧ otherRoom ≤ second.length := by
  obtain ⟨year, easter, order, rfl, sunday, found, dates, placed, rfl⟩ := buildWithin_eq_ok.mp built
  obtain ⟨closed, acyclic⟩ := Definitions.closed_and_acyclic found
  obtain ⟨ordered, all⟩ := Definitions.orderWithin_ok found
  rcases Definitions.orderWithin_cases otherRoom ((Definitions.closed_congr same).mp closed)
      ((Definitions.acyclic_congr same).mp acyclic) with ⟨otherOrder, otherFound⟩ | ⟨deep, narrow⟩
  · left
    obtain ⟨others, otherPlaced⟩ := exists_place_of_solves same all (place_ok ordered placed)
      (Definitions.orderWithin_ok otherFound).1
    exact ⟨_, buildWithin_eq_ok.mpr
      ⟨year, easter, otherOrder, rfl, sunday, otherFound, others, otherPlaced, rfl⟩⟩
  · exact Or.inr ⟨buildWithin_tooDeep sunday deep, narrow⟩

theorem exists_buildWithin_ladder {count room : Nat} (few : count ≤ 0x100000)
    (sunday : Easter.sunday year = .ok easter) :
    ∃ table, buildWithin (room + 2) (.int year) (Definitions.ladder count) = .ok table := by
  have ordered := Definitions.ordered_ladder few (Nat.le_refl count)
  rw [← Definitions.keys_ladder] at ordered
  have resolves : ∀ key anchor placed, key ∈ Keyed.keys (Definitions.ladder count) →
      Keyed.find? (Definitions.ladder count) key = some anchor →
      (∀ base ∈ anchor.dependsOn, Keyed.find? placed base = some easter) →
      anchor.resolve year easter placed = .ok easter := by
    intro key anchor placed member defined _
    rw [Keyed.find?_eq_some_iff (Definitions.nodup_keys_ladder few)] at defined
    obtain ⟨n, -, entry⟩ := List.mem_map.mp defined
    cases entry
    exact inRange_eq_ok.mpr (by rw [Date.add?, Int.add_zero, Date.ofNumber?_number])
  obtain ⟨dates, placed, -⟩ := exists_place (fun _ => easter) ordered resolves
  exact ⟨_, buildWithin_eq_ok.mpr ⟨year, easter, _, rfl, sunday,
    Definitions.orderWithin_of_ordered ordered, dates, placed, rfl⟩⟩

/-- The date of a key is told by its definition and those it leads to. Listed in another order, the
same definitions have a table as well, unless dependencies are followed too deep in that order. -/
theorem date_determined_by_closure (year : Json) (first second : Definitions) :
    (∀ room otherRoom table other key, buildWithin room year first = .ok table →
      buildWithin otherRoom year second = .ok other → first.AgreeFrom second key →
      table.find? key = other.find? key) ∧
    (first.Perm second → (Keyed.keys first).Nodup →
      (∀ room, first.length < room →
        ((∃ table, buildWithin room year first = .ok table) ↔
          ∃ other, buildWithin room year second = .ok other)) ∧
      ∀ room otherRoom table, buildWithin room year first = .ok table →
        (∃ other, buildWithin otherRoom year second = .ok other) ∨
          buildWithin otherRoom year second = .error .tooDeep ∧ otherRoom ≤ second.length) := by
  refine ⟨?_, ?_⟩
  · intro room otherRoom table other key built otherBuilt agree
    obtain ⟨year, easter, order, rfl, sunday, found, dates, placed, rfl⟩ :=
      buildWithin_eq_ok.mp built
    obtain ⟨sameEaster, otherOrder, otherSunday, -, otherAll, otherSolves⟩ :=
      buildWithin_ok otherBuilt
    cases sunday.symm.trans otherSunday
    obtain ⟨ordered, all⟩ := Definitions.orderWithin_ok found
    have solves := place_ok ordered placed
    by_cases member : key ∈ order
    · exact find?_eq_of_agreeFrom ordered otherAll solves otherSolves key member agree
    · have absent : key ∉ Keyed.keys first := fun defined => member ((all key).mpr defined)
      rw [← Keyed.find?_eq_none_iff, agree key .refl, Keyed.find?_eq_none_iff] at absent
      have otherMember : key ∉ otherOrder := fun listed => absent ((otherAll key).mp listed)
      exact (solves.find?_of_not_mem member).trans (otherSolves.find?_of_not_mem otherMember).symm
  · intro perm distinct
    have same := Keyed.find?_eq_of_perm perm distinct
    have back := fun key => (same key).symm
    refine ⟨?_, fun room otherRoom table built => exists_buildWithin_congr otherRoom same built⟩
    · intro room spacious
      constructor
      · rintro ⟨table, built⟩
        rcases exists_buildWithin_congr room same built with other | ⟨-, narrow⟩
        · exact other
        · rw [← perm.length_eq] at narrow
          exact absurd narrow (Nat.not_le.mpr spacious)
      · rintro ⟨other, built⟩
        rcases exists_buildWithin_congr room back built with table | ⟨-, narrow⟩
        · exact table
        · exact absurd narrow (Nat.not_le.mpr spacious)

/-- Two thousand anchors have a table when each is listed after its base, and none the other way
round. -/
theorem ladder_listing :
    (Definitions.ladder 2000).Perm (Definitions.ladder 2000).reverse ∧
      (Keyed.keys (Definitions.ladder 2000)).Nodup ∧
      build (.int 2025) (Definitions.ladder 2000).reverse = .error .tooDeep ∧
      ¬((∃ table, build (.int 2025) (Definitions.ladder 2000) = .ok table) ↔
        ∃ table, build (.int 2025) (Definitions.ladder 2000).reverse = .ok table) := by
  obtain ⟨easter, sunday⟩ : ∃ easter, Easter.sunday 2025 = .ok easter := ⟨_, rfl⟩
  have few : 2000 ≤ 0x100000 := by decide
  have deep : build (.int 2025) (Definitions.ladder 2000).reverse = .error .tooDeep :=
    buildWithin_tooDeep sunday (Definitions.orderWithin_ladder_reverse few (by decide))
  refine ⟨(List.reverse_perm _).symm, Definitions.nodup_keys_ladder few, deep, ?_⟩
  intro both
  obtain ⟨table, built⟩ := both.mp (exists_buildWithin_ladder few sunday)
  rw [deep] at built
  cases built

def feastAmongOthers : Definitions :=
  [([.char 'n'], .fixed 1 1 []), ([.char 'e'], .easterOffset 0 []),
    ([.char 'f'], .anchorOffset [.char 'e'] 3), ([.char 'p'], .anchorOffset [.char 'n'] 5)]

theorem feastFirst_agreeFrom : feastFirst.AgreeFrom feastAmongOthers [.char 'f'] := by
  have feastBases : ∀ base, feastFirst.Depends [.char 'f'] base ↔
      base ∈ (Anchor.anchorOffset [.char 'e'] 3).dependsOn := fun base => Definitions.depends_iff rfl
  have easterBases : ∀ base, feastFirst.Depends [.char 'e'] base ↔
      base ∈ (Anchor.easterOffset 0 []).dependsOn := fun base => Definitions.depends_iff rfl
  have reached : ∀ other, ReflTransGen feastFirst.Depends [.char 'f'] other →
      other = [.char 'f'] ∨ other = [.char 'e'] := by
    intro other walk
    induction walk with
    | refl => exact Or.inl rfl
    | tail _ depends ih =>
      rcases ih with rfl | rfl
      · exact Or.inr (List.mem_singleton.mp ((feastBases _).mp depends))
      · cases (easterBases _).mp depends
  intro other walk
  rcases reached other walk with rfl | rfl <;> rfl

theorem feastFirst_date :
    ∃ table other, build (.int 2025) feastFirst = .ok table ∧
      build (.int 2025) feastAmongOthers = .ok other ∧
      feastFirst.AgreeFrom feastAmongOthers [.char 'f'] ∧
      table.find? [.char 'f'] = other.find? [.char 'f'] ∧
      feastFirst.Perm feastFirst.reverse ∧ (Keyed.keys feastFirst).Nodup ∧ feastFirst.length < 3 ∧
      (∃ reversed, buildWithin 3 (.int 2025) feastFirst.reverse = .ok reversed) ∧
      ((∃ reversed, build (.int 2025) feastFirst.reverse = .ok reversed) ∨
        build (.int 2025) feastFirst.reverse = .error .tooDeep) := by
  obtain ⟨table, built⟩ : ∃ table, build (.int 2025) feastFirst = .ok table := ⟨_, rfl⟩
  obtain ⟨other, otherBuilt⟩ : ∃ other, build (.int 2025) feastAmongOthers = .ok other := ⟨_, rfl⟩
  have perm : feastFirst.Perm feastFirst.reverse := (List.reverse_perm _).symm
  have distinct : (Keyed.keys feastFirst).Nodup := by decide
  have sameDate := (date_determined_by_closure (.int 2025) feastFirst feastAmongOthers).1
    _ _ table other _ built otherBuilt feastFirst_agreeFrom
  obtain ⟨spacious, limited⟩ :=
    (date_determined_by_closure (.int 2025) feastFirst feastFirst.reverse).2 perm distinct
  exact ⟨table, other, built, otherBuilt, feastFirst_agreeFrom, sameDate, perm, distinct, by decide,
    (spacious 3 (by decide)).mp ⟨_, rfl⟩, (limited _ _ table built).imp_right And.left⟩

end AnchorTable

end FeastCalendar
