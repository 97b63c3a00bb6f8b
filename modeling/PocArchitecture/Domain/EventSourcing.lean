/-
Loading an aggregate of `BaseEventSourcingAggregate`: the cache first, then the log.

An entity found in the log is put back into the cache by a callback that `load` hands to
`process.nextTick`.  The callback reads the root entity when it runs, which is at the
first call that really waits for a reply.  `refill` is that callback; the command
handlers say where it runs.
-/
import PocArchitecture.Infrastructure.StateRepo
import PocArchitecture.Infrastructure.EventSourcingRepo

namespace PocArchitecture
namespace Domain

open Infrastructure

/-- What one aggregate keeps outside its process: the cache and the log. -/
structure World (E S : Type) where
  repo : RepoState S
  log : EventStore E S

inductive Loaded (S : Type) where
  /-- The replay threw. -/
  | failed
  | notFound
  | found (s : S)
  deriving DecidableEq

/-- The end of a replay, `none` when it threw. -/
def Loaded.ofReplay {S : Type} : Option S → Loaded S
  | none => failed
  | some s => found s

theorem Loaded.ofReplay_eq_found {S : Type} {o : Option S} {s : S} :
    ofReplay o = found s ↔ o = some s := by
  cases o <;> simp [ofReplay]

def Loaded.isFound {S : Type} : Loaded S → Bool
  | found _ => true
  | _ => false

structure Load (E S : Type) where
  world : World E S
  root : Loaded S
  refillDue : Bool

namespace BaseEventSourcingAggregate

variable {E S : Type}

/-- Apply the state events in order.  The entity is `none` while it has nothing but its
id, and the result is `none` when a handler threw. -/
def applyManyStateEvents (apply : Option S → E → Option S) : Option S → List E → Option S
  | root, [] => root
  | root, e :: es =>
    match apply root e with
    | none => none
    | some s => applyManyStateEvents apply (some s) es

theorem applyManyStateEvents_append (apply : Option S → E → Option S) {root : Option S}
    {es : List E} {s : S} (h : applyManyStateEvents apply root es = some s) (es' : List E) :
    applyManyStateEvents apply root (es ++ es') = applyManyStateEvents apply (some s) es' := by
  induction es generalizing root with
  | nil =>
    rw [applyManyStateEvents] at h
    rw [h, List.nil_append]
  | cons e es ih =>
    rw [List.cons_append, applyManyStateEvents]
    rw [applyManyStateEvents] at h
    cases he : apply root e with
    | none => simp [he] at h
    | some s' =>
      simp only [he] at h
      exact ih h

/-- What the snapshot and the events of one key rebuild. -/
def rebuild (apply : Option S → E → Option S) (es : TESourcingState E S) : Loaded S :=
  match es.snapshot, es.events with
  | none, [] => .notFound
  | snapshot, events => .ofReplay (applyManyStateEvents apply (snapshot.map (·.payload)) events)

theorem rebuild_notFound {apply : Option S → E → Option S} {es : TESourcingState E S}
    (h : rebuild apply es = .notFound) : es.snapshot = none ∧ es.events = [] := by
  unfold rebuild at h
  split at h
  · exact ⟨‹_›, ‹_›⟩
  · cases hs : applyManyStateEvents apply (es.snapshot.map (·.payload)) es.events <;>
      simp [hs, Loaded.ofReplay] at h

theorem rebuild_found {apply : Option S → E → Option S} {es : TESourcingState E S} {s : S}
    (h : rebuild apply es = .found s) :
    applyManyStateEvents apply (es.snapshot.map (·.payload)) es.events = some s := by
  unfold rebuild at h
  split at h
  · cases h
  · cases hs : applyManyStateEvents apply (es.snapshot.map (·.payload)) es.events with
    | none => simp [hs, Loaded.ofReplay] at h
    | some s' =>
      rw [hs] at h
      rw [Loaded.found.inj h]

/-- One more event is applied to what the others rebuild. -/
theorem rebuild_append {apply : Option S → E → Option S} {es : TESourcingState E S} {s : S}
    (h : rebuild apply es = .found s) (e : E) :
    rebuild apply { snapshot := es.snapshot, events := es.events ++ [e] } =
      .ofReplay (apply (some s) e) := by
  have hmany := applyManyStateEvents_append apply (rebuild_found h) [e]
  rw [applyManyStateEvents] at hmany
  unfold rebuild
  split
  · rename_i hnil
    exact absurd hnil (by simp)
  · rw [hmany]
    cases apply (some s) e <;> rfl

/-- What `load` finds for an id. -/
def lookup (R : StateRepo S) (apply : Option S → E → Option S) (w : World E S) (id : String) :
    Loaded S :=
  match R.view w.repo id with
  | some s => .found s
  | none => rebuild apply (w.log.sourced id)

/-- `BaseEventSourcingAggregate.load` with `throwOnNotFound` false. -/
def load (R : StateRepo S) (apply : Option S → E → Option S) (offsetsOk : Bool) (w : World E S)
    (id : String) : Load E S :=
  match R.load w.repo id with
  | (repo, some s) =>
    { world := { w with repo := repo }, root := .found s, refillDue := false }
  | (repo, none) =>
    let fetched := w.log.load offsetsOk id
    let root := rebuild apply fetched.2
    { world := { repo := repo, log := fetched.1 }, root := root, refillDue := root.isFound }

/-- The deferred callback: store what the root entity has become. -/
def refill (R : StateRepo S) (ok due : Bool) (w : World E S) (s : S) : World E S :=
  if due then { w with repo := (R.store ok w.repo s).1 } else w

section

variable {R : StateRepo S} {apply : Option S → E → Option S} {offsetsOk : Bool}
  {w : World E S} {id : String}

@[simp] theorem load_root : (load R apply offsetsOk w id).root = lookup R apply w id := by
  unfold load lookup StateRepo.view
  split
  · rename_i h
    rw [h]
  · rename_i h
    rw [h]
    rfl

@[simp] theorem load_repo : (load R apply offsetsOk w id).world.repo = (R.load w.repo id).1 := by
  unfold load
  split
  all_goals
    rename_i h
    rw [h]

theorem load_log_eq :
    (load R apply offsetsOk w id).world.log =
      if (R.view w.repo id).isSome then w.log else (w.log.load offsetsOk id).1 := by
  unfold load StateRepo.view
  split <;> rename_i h <;> rw [h] <;> rfl

variable (R apply offsetsOk w id) in
theorem load_log :
    (load R apply offsetsOk w id).world.log = w.log ∨
      (load R apply offsetsOk w id).world.log = (w.log.load offsetsOk id).1 := by
  rw [load_log_eq]
  split
  · exact Or.inl rfl
  · exact Or.inr rfl

/-- A refill is due exactly when the entity came from the log. -/
theorem load_refillDue :
    (load R apply offsetsOk w id).refillDue =
      ((R.view w.repo id).isNone && (lookup R apply w id).isFound) := by
  unfold load lookup StateRepo.view
  split
  · rename_i h
    rw [h]
    rfl
  · rename_i h
    rw [h]
    rfl

variable (R apply offsetsOk w id) in
theorem sourced_load_log (id' : String) :
    (load R apply offsetsOk w id).world.log.sourced id' = w.log.sourced id' := by
  rcases load_log R apply offsetsOk w id with h | h
  · rw [h]
  · rw [h, EventStore.sourced_load]

@[simp] theorem load_stateEvents :
    (load R apply offsetsOk w id).world.log.stateEvents = w.log.stateEvents := by
  rcases load_log R apply offsetsOk w id with h | h
  · rw [h]
  · rw [h, EventStore.load_stateEvents]

@[simp] theorem refill_log (ok due : Bool) (s : S) : (refill R ok due w s).log = w.log := by
  unfold refill
  split <;> rfl

/-- Two worlds that show the same states and hold the same log answer every load alike. -/
theorem lookup_congr {w' : World E S} {id' : String}
    (hview : R.view w'.repo id' = R.view w.repo id')
    (hlog : w'.log.sourced id' = w.log.sourced id') :
    lookup R apply w' id' = lookup R apply w id' := by
  rw [lookup, lookup, hview, hlog]

theorem view_none_of_lookup (h : (lookup R apply w id).isFound = false) :
    R.view w.repo id = none := by
  cases hv : R.view w.repo id with
  | none => rfl
  | some s =>
    rw [lookup, hv] at h
    cases h

theorem lookup_of_view {s : S} (h : R.view w.repo id = some s) :
    lookup R apply w id = .found s := by
  rw [lookup, h]

end

end BaseEventSourcingAggregate

end Domain
end PocArchitecture
