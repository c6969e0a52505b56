import FeastCalendar.Almanac
import FeastCalendar.Proofs.Anchor.Builtin
import FeastCalendar.Proofs.Anchor.Table
import FeastCalendar.Proofs.Text.Order

/-!
Sessions: requests made of an almanac one after another. What the requests that succeed did is kept
in a log, from which the registry can be told at any time. A dictionary changes by what is registered
while it is the registry's, and by nothing else, so that the built-in definitions stay as they were
unless a registry shares their dictionary.
-/

namespace FeastCalendar

theorem Registry.register_eq_ok {registry next : Registry} {name : Text} {anchor : Anchor}
    {overwrite : Bool} : registry.register name anchor overwrite = .ok next ↔
      (overwrite = true ∨ name ∉ Keyed.keys registry.definitions) ∧
        (⟨Keyed.put registry.definitions name anchor⟩ : Registry) = next := by
  rw [← Keyed.contains_iff, register]
  cases overwrite <;> cases Keyed.contains registry.definitions name <;> simp

namespace Almanac

section Requests

def definitions? (almanac : Almanac) : Option Definitions :=
  almanac.registry.map fun place => (almanac.registryAt place).definitions

def Request.IsProper : Request → Prop
  | .setRegistry (some registry) => (Keyed.keys registry.definitions).Nodup
  | _ => True

def Request.IsQuery : Request → Prop
  | .register _ _ _ => False
  | .setRegistry _ => False
  | .resetRegistry => False
  | .shareRegistry _ => False
  | .registerAttribute _ _ => False
  | _ => True

inductive Effect where
  | nothing
  | set (definitions : Option Definitions)
  | put (name : Text) (anchor : Anchor)

def Effect.apply (current : Option Definitions) : Effect → Option Definitions
  | nothing => current
  | set definitions => definitions
  | put name anchor => current.map fun definitions => Keyed.put definitions name anchor

def Request.effect (standing : Nat → Definitions) : Request → Effect
  | .register name anchor _ => .put name anchor
  | .setRegistry given => .set (given.map Registry.definitions)
  | .resetRegistry => .set (some (standing builtinPlace))
  | .shareRegistry place => .set (some (standing place))
  | _ => .nothing

variable {almanac changed : Almanac} {request : Request}

theorem change_of_isQuery (query : request.IsQuery) : almanac.change request = .ok almanac := by
  cases request <;> first | rfl | exact query.elim

theorem inquire_of_not_isQuery (other : ¬request.IsQuery) :
    almanac.inquire request = .ok .done := by
  cases request <;> first | rfl | exact (other trivial).elim

/-- A request changes the almanac or fails; one that only asks changes nothing. -/
theorem handle_cases (almanac : Almanac) (request : Request) :
    (∃ failure, almanac.change request = .error failure ∧
      almanac.handle request = (almanac, .error failure)) ∨
    (request.IsQuery ∧ almanac.handle request = (almanac, almanac.inquire request)) ∨
    ∃ changed, almanac.change request = .ok changed ∧
      almanac.handle request = (changed, .ok .done) := by
  unfold handle
  cases outcome : almanac.change request with
  | error failure => exact Or.inl ⟨failure, rfl, rfl⟩
  | ok changed =>
    by_cases query : request.IsQuery
    · rw [change_of_isQuery query] at outcome
      cases outcome
      exact Or.inr (Or.inl ⟨query, rfl⟩)
    · exact Or.inr (Or.inr ⟨changed, rfl, by rw [inquire_of_not_isQuery query]⟩)

theorem handle_holds {holds : Almanac → Prop} (now : holds almanac)
    (later : ∀ changed, almanac.change request = .ok changed → holds changed) :
    holds (almanac.handle request).1 := by
  rcases handle_cases almanac request with
    ⟨failure, -, refused⟩ | ⟨-, asked⟩ | ⟨changed, outcome, done⟩
  · rwa [refused]
  · rwa [asked]
  · rw [done]
    exact later changed outcome

end Requests

section Places

/-- The built-in dictionary stands, and so does the registry's, if one is set; and no dictionary
holds a key twice. -/
structure Orderly (almanac : Almanac) : Prop where
  builtin : builtinPlace < almanac.dictionaries.length
  standing : ∀ place, almanac.registry = some place → place < almanac.dictionaries.length
  distinct : ∀ definitions ∈ almanac.dictionaries, (Keyed.keys definitions).Nodup

variable {almanac changed : Almanac} {request : Request} {place : Nat} {name : Text}
  {anchor : Anchor} {overwrite : Bool}

theorem Orderly.nodup_registryAt (orderly : Orderly almanac) (place : Nat) :
    (Keyed.keys (almanac.registryAt place).definitions).Nodup := by
  rw [registryAt, List.getD_eq_getElem?_getD]
  cases found : almanac.dictionaries[place]? with
  | none => exact List.nodup_nil
  | some definitions => exact orderly.distinct _ (List.mem_of_getElem? found)

theorem Orderly.nodup_definitions? (orderly : Orderly almanac) {definitions : Definitions}
    (found : almanac.definitions? = some definitions) : (Keyed.keys definitions).Nodup := by
  obtain ⟨place, -, rfl⟩ := Option.map_eq_some_iff.mp found
  exact orderly.nodup_registryAt place

theorem length_install (almanac : Almanac) (registry : Registry) :
    (almanac.install registry).dictionaries.length = almanac.dictionaries.length + 1 :=
  List.length_append

theorem definitions?_install (almanac : Almanac) (registry : Registry) :
    (almanac.install registry).definitions? = some registry.definitions := by
  simp [definitions?, install, registryAt, List.getD_eq_getElem?_getD]

theorem registryAt_install (registry : Registry) (stands : place < almanac.dictionaries.length) :
    (almanac.install registry).registryAt place = almanac.registryAt place := by
  simp [install, registryAt, List.getD_eq_getElem?_getD, List.getElem?_append_left stands]

theorem definitions?_share (almanac : Almanac) (place : Nat) :
    (almanac.share place).definitions? = some (almanac.registryAt place).definitions := by
  unfold share
  split
  next => rfl
  next none =>
    rw [definitions?_install, registryAt, List.getD_eq_getElem?_getD,
      List.getElem?_eq_none (Nat.not_lt.mp none)]
    rfl

theorem definitions?_set (set : almanac.registry = some place)
    (stands : place < almanac.dictionaries.length) (definitions : Definitions) :
    ({ almanac with dictionaries := almanac.dictionaries.set place definitions } :
      Almanac).definitions? = some definitions := by
  simp [definitions?, set, registryAt, List.getD_eq_getElem?_getD, stands]

theorem Orderly.install (orderly : Orderly almanac) {registry : Registry}
    (distinct : (Keyed.keys registry.definitions).Nodup) : Orderly (almanac.install registry) := by
  refine ⟨?_, ?_, ?_⟩
  · rw [length_install]
    exact Nat.lt_succ_of_lt orderly.builtin
  · rintro place ⟨⟩
    rw [length_install]
    exact Nat.lt_succ_self _
  · intro definitions member
    rcases List.mem_append.mp member with old | new
    · exact orderly.distinct definitions old
    · rwa [List.mem_singleton.mp new]

theorem Orderly.share (orderly : Orderly almanac) (place : Nat) : Orderly (almanac.share place) := by
  unfold Almanac.share
  split
  next stands =>
    refine ⟨orderly.builtin, ?_, orderly.distinct⟩
    rintro _ ⟨⟩
    exact stands
  next => exact orderly.install List.nodup_nil

theorem Orderly.set (orderly : Orderly almanac) {definitions : Definitions}
    (distinct : (Keyed.keys definitions).Nodup) :
    Orderly { almanac with dictionaries := almanac.dictionaries.set place definitions } := by
  refine ⟨?_, ?_, ?_⟩
  · simpa using orderly.builtin
  · simpa using orderly.standing
  · intro other member
    rcases List.mem_or_eq_of_mem_set member with old | rfl
    · exact orderly.distinct other old
    · exact distinct

theorem change_register_eq_ok : almanac.change (.register name anchor overwrite) = .ok changed ↔
    ∃ place definitions, almanac.registry = some place ∧
      almanac.definitions? = some definitions ∧
      (overwrite = true ∨ name ∉ Keyed.keys definitions) ∧
      { almanac with dictionaries :=
          almanac.dictionaries.set place (Keyed.put definitions name anchor) } = changed := by
  unfold change registryPlace definitions?
  cases set : almanac.registry with
  | none => simp [Attempt.bind_eq_ok]
  | some place =>
    simp only [Attempt.ok_bind, Attempt.bind_eq_ok, Registry.register_eq_ok, Attempt.pure_eq_ok,
      Option.map_some]
    constructor
    · rintro ⟨_, ⟨free, rfl⟩, rfl⟩
      exact ⟨place, _, rfl, rfl, free, rfl⟩
    · rintro ⟨_, _, ⟨⟩, ⟨⟩, free, rfl⟩
      exact ⟨_, ⟨free, rfl⟩, rfl⟩

theorem Orderly.change (orderly : Orderly almanac) (proper : request.IsProper)
    (outcome : almanac.change request = .ok changed) :
    Orderly changed ∧ changed.definitions? = (request.effect fun place =>
      (almanac.registryAt place).definitions).apply almanac.definitions? := by
  cases request with
  | register name anchor overwrite =>
    obtain ⟨place, definitions, set, found, -, rfl⟩ := change_register_eq_ok.mp outcome
    refine ⟨orderly.set (Keyed.nodup_keys_put (orderly.nodup_definitions? found) name anchor), ?_⟩
    rw [definitions?_set set (orderly.standing place set), found]
    rfl
  | setRegistry given =>
    cases given with
    | none =>
      cases outcome
      exact ⟨⟨orderly.builtin, nofun, orderly.distinct⟩, rfl⟩
    | some registry =>
      cases outcome
      exact ⟨orderly.install proper, definitions?_install almanac registry⟩
  | resetRegistry =>
    cases outcome
    exact ⟨orderly.install (orderly.nodup_registryAt builtinPlace),
      definitions?_install almanac almanac.builtRegistry⟩
  | shareRegistry place =>
    cases outcome
    exact ⟨orderly.share place, definitions?_share almanac place⟩
  | registerAttribute name kind =>
    cases outcome
    exact ⟨⟨orderly.builtin, orderly.standing, orderly.distinct⟩, rfl⟩
  | _ =>
    cases outcome
    exact ⟨orderly, rfl⟩

def registration (almanac : Almanac) (place : Nat) : Request → Definitions
  | .register name anchor _ => if almanac.registry = some place then [(name, anchor)] else []
  | _ => []

theorem registryAt_change (stands : place < almanac.dictionaries.length)
    (outcome : almanac.change request = .ok changed) :
    place < changed.dictionaries.length ∧ (changed.registryAt place).definitions =
      Keyed.putAll (almanac.registryAt place).definitions (almanac.registration place request) := by
  have installed : ∀ registry : Registry,
      place < (almanac.install registry).dictionaries.length ∧
        ((almanac.install registry).registryAt place).definitions =
          (almanac.registryAt place).definitions := by
    intro registry
    refine ⟨?_, congrArg Registry.definitions (registryAt_install registry stands)⟩
    rw [length_install]
    exact Nat.lt_succ_of_lt stands
  cases request with
  | register name anchor overwrite =>
    obtain ⟨own, definitions, set, found, -, rfl⟩ := change_register_eq_ok.mp outcome
    obtain rfl : (almanac.registryAt own).definitions = definitions := by
      simpa [definitions?, set] using found
    refine ⟨by simpa using stands, ?_⟩
    rw [registration, set]
    by_cases same : own = place
    · subst same
      simp [registryAt, List.getD_eq_getElem?_getD, stands, Keyed.putAll]
    · simp [registryAt, List.getD_eq_getElem?_getD, List.getElem?_set_ne same, same, Keyed.putAll]
  | setRegistry given =>
    cases given with
    | none =>
      cases outcome
      exact ⟨stands, rfl⟩
    | some registry =>
      cases outcome
      exact installed registry
  | resetRegistry =>
    cases outcome
    exact installed almanac.builtRegistry
  | shareRegistry other =>
    cases outcome
    rw [share]
    split
    · exact ⟨stands, rfl⟩
    · exact installed ⟨[]⟩
  | _ =>
    cases outcome
    exact ⟨stands, rfl⟩

/-- A place that has a dictionary, but not the registry's. -/
structure Apart (place : Nat) (almanac : Almanac) : Prop where
  stands : place < almanac.dictionaries.length
  other : almanac.registry ≠ some place

theorem Apart.change (apart : Apart place almanac) (unshared : request ≠ .shareRegistry place)
    (outcome : almanac.change request = .ok changed) :
    Apart place changed ∧ changed.registryAt place = almanac.registryAt place := by
  obtain ⟨stands, written⟩ := registryAt_change apart.stands outcome
  have unwritten : almanac.registration place request = [] := by
    cases request <;> first | rfl | exact if_neg apart.other
  rw [unwritten] at written
  refine ⟨⟨stands, ?_⟩, congrArg Registry.mk written⟩
  have new : ∀ registry : Registry, (almanac.install registry).registry ≠ some place := by
    rintro registry ⟨⟩
    exact lt_irrefl _ apart.stands
  cases request with
  | register name anchor overwrite =>
    obtain ⟨own, definitions, -, -, -, rfl⟩ := change_register_eq_ok.mp outcome
    exact apart.other
  | setRegistry given =>
    cases given with
    | none =>
      cases outcome
      nofun
    | some registry =>
      cases outcome
      exact new registry
  | resetRegistry =>
    cases outcome
    exact new almanac.builtRegistry
  | shareRegistry other =>
    cases outcome
    rw [share]
    split
    · rintro ⟨⟩
      exact unshared rfl
    · exact new ⟨[]⟩
  | _ =>
    cases outcome
    exact apart.other

end Places

section Runs

def run (almanac : Almanac) (requests : List Request) : Almanac :=
  requests.foldl (fun current request => (current.handle request).1) almanac

def successes (almanac : Almanac) : List Request → List (Almanac × Request)
  | [] => []
  | request :: rest =>
    let (next, answer) := almanac.handle request
    if answer.isOk then (almanac, request) :: successes next rest else successes next rest

/-- The log of a session: what the requests that succeed do to the registry, one after another. -/
def effects (almanac : Almanac) (requests : List Request) : List Effect :=
  (almanac.successes requests).map fun made =>
    made.2.effect fun place => (made.1.registryAt place).definitions

def registrations (almanac : Almanac) (place : Nat) (requests : List Request) : Definitions :=
  (almanac.successes requests).flatMap fun made => made.1.registration place made.2

variable {almanac : Almanac} {request : Request} {requests : List Request} {place : Nat}

theorem successes_cons (almanac : Almanac) (request : Request) (rest : List Request) :
    (almanac.run (request :: rest) = almanac.run rest ∧
      almanac.successes (request :: rest) = almanac.successes rest) ∨
    ∃ changed, almanac.change request = .ok changed ∧
      almanac.run (request :: rest) = changed.run rest ∧
      almanac.successes (request :: rest) = (almanac, request) :: changed.successes rest := by
  have next : almanac.run (request :: rest) = (almanac.handle request).1.run rest :=
    List.foldl_cons ..
  rw [next, successes]
  rcases handle_cases almanac request with
    ⟨failure, -, refused⟩ | ⟨query, asked⟩ | ⟨changed, outcome, done⟩
  · rw [refused]
    exact Or.inl ⟨rfl, rfl⟩
  · rw [asked]
    cases almanac.inquire request with
    | error failure => exact Or.inl ⟨rfl, rfl⟩
    | ok answer => exact Or.inr ⟨almanac, change_of_isQuery query, rfl, rfl⟩
  · rw [done]
    exact Or.inr ⟨changed, outcome, rfl, rfl⟩

theorem Orderly.run (orderly : Orderly almanac) (proper : ∀ request ∈ requests, request.IsProper) :
    Orderly (almanac.run requests) ∧ (almanac.run requests).definitions? =
      (almanac.effects requests).foldl Effect.apply almanac.definitions? := by
  -- On the requests, from any almanac in order: each request leaves the next one such.
  induction requests generalizing almanac with
  | nil => exact ⟨orderly, rfl⟩
  | cons request rest ih =>
    obtain ⟨first, later⟩ := List.forall_mem_cons.mp proper
    rcases successes_cons almanac request rest with ⟨ran, made⟩ | ⟨changed, outcome, ran, made⟩
    · rw [ran, effects, made]
      exact ih orderly later
    · obtain ⟨next, registered⟩ := orderly.change first outcome
      rw [ran, effects, made, List.map_cons, List.foldl_cons, ← registered]
      exact ih next later

theorem registryAt_run (stands : place < almanac.dictionaries.length) :
    ((almanac.run requests).registryAt place).definitions =
      Keyed.putAll (almanac.registryAt place).definitions (almanac.registrations place requests) := by
  induction requests generalizing almanac with
  | nil => rfl
  | cons request rest ih =>
    rcases successes_cons almanac request rest with ⟨ran, made⟩ | ⟨changed, outcome, ran, made⟩
    · rw [ran, registrations, made]
      exact ih stands
    · obtain ⟨stays, written⟩ := registryAt_change stands outcome
      rw [ran, ih stays, written, registrations, registrations, made, List.flatMap_cons,
        Keyed.putAll, Keyed.putAll, Keyed.putAll, List.foldl_append]

theorem Apart.run (apart : Apart place almanac) (unshared : .shareRegistry place ∉ requests) :
    Apart place (almanac.run requests) ∧
      (almanac.run requests).registryAt place = almanac.registryAt place := by
  induction requests generalizing almanac with
  | nil => exact ⟨apart, rfl⟩
  | cons request rest ih =>
    obtain ⟨first, later⟩ := not_or.mp (mt List.mem_cons.mpr unshared)
    rcases successes_cons almanac request rest with ⟨ran, -⟩ | ⟨changed, outcome, ran, -⟩
    · rw [ran]
      exact ih apart later
    · obtain ⟨next, same⟩ := apart.change (Ne.symm first) outcome
      rw [ran, ← same]
      exact ih next later

theorem apart_initial : Apart builtinPlace initial := ⟨by decide, by decide⟩

end Runs

section Answers

variable {almanac : Almanac} {definitions : Definitions}

theorem theRegistry_eq_ok {registry : Registry} :
    almanac.theRegistry = .ok registry ↔ almanac.definitions? = some registry.definitions := by
  unfold theRegistry registryPlace definitions?
  cases almanac.registry with
  | none => simp
  | some place =>
    simp only [Attempt.ok_bind, Attempt.pure_eq_ok, Option.map_some, Option.some.injEq]
    exact ⟨fun same => congrArg Registry.definitions same, fun same => by
      cases registry
      exact congrArg Registry.mk same⟩

end Answers

def sharing : List Request := [.shareRegistry builtinPlace, .register "lammas" (.fixed 8 1 []) false]

theorem builtRegistry_sharing :
    (initial.run sharing).builtRegistry.definitions =
      Keyed.put Definitions.builtin "lammas" (.fixed 8 1 []) := by
  rw [builtRegistry, registryAt_run apart_initial.stands]
  rfl

end Almanac

end FeastCalendar
