/-
A load whose two fetches are polled.

`EventSourcingStateRepo.load` fetches one snapshot and then the state events, each with a
consumer of its own.  A fetch that has not resolved keeps the load waiting.  The load of
`EventSourcing` is the one whose fetches are undisturbed.
-/
import PocArchitecture.Infrastructure.Fetcher
import PocArchitecture.Domain.EventSourcing

namespace PocArchitecture

namespace Infrastructure

/-- The polls of the two fetches of one load. -/
structure FetchPolls where
  snapshot : List Poll
  stateEvents : List Poll

namespace EventStore

variable {M S : Type}

/-- Where `load` looks for the snapshot. -/
def snapshotAssignment (es : EventStore M S) (id : String) : Assignment :=
  match es.offsets.get id with
  | none => { partition := none, firstOffset := some 0 }
  | some o => { partition := some o.partition, firstOffset := o.offset }

/-- Where it looks for the state events once it has a snapshot or none. -/
def eventsAssignment (es : EventStore M S) (id : String) :
    Option (Record (StateSnapshotMsg S)) → Assignment
  | some r => { partition := r.value.eventsPartition, firstOffset := r.value.lastEventOffset }
  | none => es.snapshotAssignment id

/-- The offset of a snapshot that was not cached is stored afterwards. -/
def cacheOffset (cacheOk : Bool) (es : EventStore M S) (id : String)
    (snapshot : Option (Record (StateSnapshotMsg S))) : EventStore M S :=
  match es.offsets.get id, snapshot with
  | none, some r =>
    if cacheOk then
      { es with offsets := es.offsets.set id { partition := r.partition, offset := none } }
    else es
  | _, _ => es

def polledSnapshot (es : EventStore M S) (id : String) (polls : FetchPolls) :
    Option (Option (Record (StateSnapshotMsg S))) :=
  es.snapshots.fetchLastPolled id (es.snapshotAssignment id) polls.snapshot

/-- `EventSourcingStateRepo.load`, `none` while a fetch has not resolved. -/
def polledLoad (cacheOk : Bool) (es : EventStore M S) (id : String) (polls : FetchPolls) :
    Option (EventStore M S × TESourcingState M S) :=
  match es.polledSnapshot id polls with
  | none => none
  | some snapshot =>
    match es.stateEvents.fetchAllPolled id (es.eventsAssignment id snapshot) polls.stateEvents with
    | none => none
    | some events =>
      some (es.cacheOffset cacheOk id snapshot,
        { snapshot := snapshot.map (·.value), events := events })

/-- Whatever the fetch of the snapshot returns, the fetch of the state events is not cut
short. -/
def readsWhole (es : EventStore M S) (id : String) (polls : FetchPolls) : Bool :=
  match es.polledSnapshot id polls with
  | none => true
  | some snapshot =>
    Topic.readsWhole id (es.eventsAssignment id snapshot) .nothing es.stateEvents
      polls.stateEvents

/-! ## Undisturbed fetches -/

section Undisturbed

variable (cacheOk : Bool) (es : EventStore M S) (id : String)

def readThrough : FetchPolls :=
  { snapshot := Topic.readThrough (es.snapshotAssignment id) es.snapshots,
    stateEvents :=
      Topic.readThrough (es.eventsAssignment id (es.fetchSnapshot id)) es.stateEvents }

theorem fetchSnapshot_eq : es.fetchSnapshot id =
    es.snapshots.fetchLast id (es.snapshotAssignment id).partition
      (es.snapshotAssignment id).firstOffset := by
  rw [fetchSnapshot, snapshotAssignment]
  cases es.offsets.get id <;> rfl

theorem sourced_eq : es.sourced id =
    { snapshot := (es.fetchSnapshot id).map (·.value),
      events := es.stateEvents.fetchAll id (es.eventsAssignment id (es.fetchSnapshot id)).partition
        (es.eventsAssignment id (es.fetchSnapshot id)).firstOffset } := by
  rw [sourced]
  cases es.fetchSnapshot id with
  | some r => rfl
  | none =>
    rw [eventsAssignment, snapshotAssignment]
    cases es.offsets.get id <;> rfl

theorem polledSnapshot_readThrough :
    es.polledSnapshot id (es.readThrough id) = some (es.fetchSnapshot id) := by
  rw [fetchSnapshot_eq]
  exact Topic.fetchLastPolled_readThrough es.snapshots id (es.snapshotAssignment id)

/-- The load without polls is the load of undisturbed polls. -/
theorem polledLoad_readThrough :
    es.polledLoad cacheOk id (es.readThrough id) = some (es.load cacheOk id) := by
  have hevents : es.stateEvents.fetchAllPolled id (es.eventsAssignment id (es.fetchSnapshot id))
      (es.readThrough id).stateEvents = some (es.stateEvents.fetchAll id _ _) :=
    Topic.fetchAllPolled_readThrough es.stateEvents id (es.eventsAssignment id (es.fetchSnapshot id))
  rw [polledLoad, polledSnapshot_readThrough]
  dsimp only
  rw [hevents]
  dsimp only
  rw [← sourced_eq]
  rfl

end Undisturbed

theorem fetchAll_eq_mine (t : Topic M) (id : String) :
    t.fetchAll id none none = (t.mine id).map (·.value) := by
  rw [Topic.fetchAll, Topic.mine]
  congr 2
  funext r
  simp [Topic.wanted]

end EventStore

end Infrastructure

namespace Domain

open Infrastructure

namespace BaseEventSourcingAggregate

variable {E S : Type} (R : StateRepo S) (apply : Option S → E → Option S) (offsetsOk : Bool)
  (w : World E S) (id : String)

/-- `BaseEventSourcingAggregate.load` with `throwOnNotFound` false, `none` while it waits
for a fetch. -/
def polledLoad (polls : FetchPolls) : Option (Load E S) :=
  match R.load w.repo id with
  | (repo, some s) =>
    some { world := { w with repo := repo }, root := .found s, refillDue := false }
  | (repo, none) =>
    match w.log.polledLoad offsetsOk id polls with
    | none => none
    | some fetched =>
      let root := rebuild apply fetched.2
      some { world := { repo := repo, log := fetched.1 }, root := root, refillDue := root.isFound }

theorem polledLoad_readThrough :
    polledLoad R apply offsetsOk w id (w.log.readThrough id) = some (load R apply offsetsOk w id) := by
  rw [polledLoad, load, EventStore.polledLoad_readThrough]
  obtain ⟨repo, cached⟩ := R.load w.repo id
  cases cached <;> rfl

/-- On a miss the root entity is what the fetched snapshot and events rebuild. -/
theorem polledLoad_root (hmiss : R.view w.repo id = none) (polls : FetchPolls) :
    (polledLoad R apply offsetsOk w id polls).map (·.root) =
      (w.log.polledLoad offsetsOk id polls).map fun fetched => rebuild apply fetched.2 := by
  rw [StateRepo.view] at hmiss
  rw [polledLoad]
  split
  · rename_i h
    rw [h] at hmiss
    cases hmiss
  · cases w.log.polledLoad offsetsOk id polls <;> rfl

end BaseEventSourcingAggregate

end Domain
end PocArchitecture
