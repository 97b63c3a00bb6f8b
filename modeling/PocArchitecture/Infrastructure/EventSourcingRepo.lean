/-
Topics, the fetcher, and `EventSourcingStateRepo`.

A topic is the list of its records in publication order.  A record keeps the partition it
was produced to and its offset there.  `fetchAll` and `fetchLast` are the fetcher when
every poll succeeds and the whole topic is read.

`EventSourcingStateRepo.load` reads the last known snapshot offset, one snapshot, and
the state events from the place the snapshot names.  Two details of the source matter.
The snapshot messages are published without `lastEventOffset` and `eventsPartition`, and a
missing argument of the fetcher means every partition from offset zero.  The fetcher
fills in the partition of a message but not its offset, so the offset cache holds a
partition only.
-/
import PocArchitecture.Lib.KeyValue

namespace PocArchitecture
namespace Infrastructure

structure Record (M : Type) where
  key : String
  partition : Nat
  offset : Nat
  value : M

abbrev Topic (M : Type) := List (Record M)

namespace Topic

variable {M : Type}

/-- Append a message to a partition. -/
def produce (t : Topic M) (partition : Nat) (key : String) (m : M) : Topic M :=
  t ++ [{ key := key, partition := partition,
          offset := t.countP fun r => r.partition == partition, value := m }]

/-- The test the fetcher makes on a record: its key, its partition unless all are
assigned, and its offset. -/
def wanted (aggregateId : String) (partition : Option Nat) (firstOffset : Option Nat)
    (r : Record M) : Bool :=
  r.key == aggregateId && partition.all (· == r.partition) && firstOffset.getD 0 ≤ r.offset

def fetchLast (t : Topic M) (aggregateId : String) (partition firstOffset : Option Nat) :
    Option (Record M) :=
  t.find? (wanted aggregateId partition firstOffset)

def fetchAll (t : Topic M) (aggregateId : String) (partition firstOffset : Option Nat) : List M :=
  (t.filter (wanted aggregateId partition firstOffset)).map (·.value)

theorem fetchAll_produce_none (t : Topic M) (partition : Nat) (key : String) (m : M)
    (id : String) :
    (t.produce partition key m).fetchAll id none none =
      t.fetchAll id none none ++ if key = id then [m] else [] := by
  by_cases h : key = id <;> simp [fetchAll, produce, wanted, h]

/-- What a fetch over all partitions finds first is what a fetch of its partition finds
first. -/
theorem fetchLast_partition {t : Topic M} {id : String} {r : Record M}
    (h : t.fetchLast id none none = some r) :
    t.fetchLast id (some r.partition) none = some r := by
  induction t with
  | nil => cases h
  | cons a t ih =>
    rw [fetchLast] at h ih ⊢
    by_cases ha : a.key = id
    · rw [List.find?_cons_of_pos (by simp [wanted, ha])] at h
      obtain rfl : a = r := by simpa using h
      exact List.find?_cons_of_pos (by simp [wanted, ha])
    · rw [List.find?_cons_of_neg (by simp [wanted, ha])] at h ⊢
      exact ih h

end Topic

structure StateSnapshotMsg (S : Type) where
  payload : S
  lastEventOffset : Option Nat
  eventsPartition : Option Nat

structure TEventStoreMessageOffset where
  partition : Nat
  offset : Option Nat

structure TESourcingState (M S : Type) where
  snapshot : Option (StateSnapshotMsg S)
  events : List M

/-- The two topics of an aggregate and the offset cache of `RedisMessageOffsetRepo`.
`partitioner` is the producer's choice for a message that names no partition. -/
structure EventStore (M S : Type) where
  partitioner : String → Nat
  stateEvents : Topic M
  snapshots : Topic (StateSnapshotMsg S)
  offsets : KeyValue String TEventStoreMessageOffset

namespace EventStore

variable {M S : Type}

def empty (partitioner : String → Nat) : EventStore M S :=
  { partitioner := partitioner, stateEvents := [], snapshots := [], offsets := ∅ }

def produceStateEvent (es : EventStore M S) (partition : Option Nat) (key : String) (m : M) :
    EventStore M S :=
  { es with
    stateEvents := es.stateEvents.produce (partition.getD (es.partitioner key)) key m }

/-- Snapshot messages name no partition, no event offset and no event partition. -/
def produceSnapshot (es : EventStore M S) (key : String) (s : S) : EventStore M S :=
  { es with
    snapshots := es.snapshots.produce (es.partitioner key) key
      { payload := s, lastEventOffset := none, eventsPartition := none } }

/-- The snapshot `load` fetches. -/
def fetchSnapshot (es : EventStore M S) (id : String) : Option (Record (StateSnapshotMsg S)) :=
  match es.offsets.get id with
  | none => es.snapshots.fetchLast id none (some 0)
  | some o => es.snapshots.fetchLast id (some o.partition) o.offset

/-- What `load` returns. -/
def sourced (es : EventStore M S) (id : String) : TESourcingState M S :=
  match es.fetchSnapshot id with
  | some r =>
    { snapshot := some r.value,
      events := es.stateEvents.fetchAll id r.value.eventsPartition r.value.lastEventOffset }
  | none =>
    match es.offsets.get id with
    | none => { snapshot := none, events := es.stateEvents.fetchAll id none (some 0) }
    | some o => { snapshot := none, events := es.stateEvents.fetchAll id (some o.partition) o.offset }

/-- `EventSourcingStateRepo.load`.  The flag says whether the offset cache accepts the
partition of a snapshot it did not have. -/
def load (cacheOk : Bool) (es : EventStore M S) (id : String) :
    EventStore M S × TESourcingState M S :=
  let es' :=
    match es.offsets.get id, es.fetchSnapshot id with
    | none, some r =>
      if cacheOk then
        { es with offsets := es.offsets.set id { partition := r.partition, offset := none } }
      else es
    | _, _ => es
  (es', es.sourced id)

theorem load_cases (cacheOk : Bool) (es : EventStore M S) (id : String) :
    (es.load cacheOk id).1 = es ∨
      ∃ r, es.offsets.get id = none ∧ es.fetchSnapshot id = some r ∧
        (es.load cacheOk id).1 =
          { es with offsets := es.offsets.set id { partition := r.partition, offset := none } } := by
  simp only [load]
  cases ho : es.offsets.get id with
  | some o => exact Or.inl rfl
  | none =>
    cases hs : es.fetchSnapshot id with
    | none => exact Or.inl rfl
    | some r =>
      cases cacheOk with
      | false => exact Or.inl rfl
      | true => exact Or.inr ⟨r, rfl, rfl, rfl⟩

@[simp] theorem load_stateEvents (cacheOk : Bool) (es : EventStore M S) (id : String) :
    (es.load cacheOk id).1.stateEvents = es.stateEvents := by
  rcases load_cases cacheOk es id with h | ⟨r, -, -, h⟩ <;> rw [h]

@[simp] theorem load_snapshots (cacheOk : Bool) (es : EventStore M S) (id : String) :
    (es.load cacheOk id).1.snapshots = es.snapshots := by
  rcases load_cases cacheOk es id with h | ⟨r, -, -, h⟩ <;> rw [h]

/-- Filling the offset cache does not change what later loads return. -/
theorem sourced_load (cacheOk : Bool) (es : EventStore M S) (id id' : String) :
    (es.load cacheOk id).1.sourced id' = es.sourced id' := by
  rcases load_cases cacheOk es id with h | ⟨r, ho, hs, h⟩
  · rw [h]
  · rw [h]
    by_cases hid : id' = id
    · subst hid
      simp only [fetchSnapshot, ho] at hs
      have hp : es.snapshots.fetchLast id' (some r.partition) none = some r :=
        Topic.fetchLast_partition hs
      simp only [sourced, fetchSnapshot, ho, hs, hp, KeyValue.get_set_self]
    · simp only [sourced, fetchSnapshot, KeyValue.get_set_ne _ _ hid]

theorem snapshot_sourced (es : EventStore M S) (id : String) :
    (es.sourced id).snapshot = (es.fetchSnapshot id).map (·.value) := by
  rw [sourced]
  cases es.fetchSnapshot id with
  | some r => rfl
  | none => cases es.offsets.get id <;> rfl

/-- A snapshot of another key is not fetched. -/
theorem sourced_produceSnapshot_ne (es : EventStore M S) {key id : String} (s : S) (h : key ≠ id) :
    (es.produceSnapshot key s).sourced id = es.sourced id := by
  have hlast : ∀ p o, (es.produceSnapshot key s).snapshots.fetchLast id p o =
      es.snapshots.fetchLast id p o := by
    intro p o
    rw [Topic.fetchLast, Topic.fetchLast, produceSnapshot, Topic.produce, List.find?_append,
      List.find?_cons_of_neg (by simp [Topic.wanted, h]), List.find?_nil, Option.or_none]
  have hsnap : (es.produceSnapshot key s).fetchSnapshot id = es.fetchSnapshot id := by
    rw [fetchSnapshot, fetchSnapshot, hlast, show (es.produceSnapshot key s).offsets = es.offsets
      from rfl]
    cases es.offsets.get id with
    | none => rfl
    | some o => exact hlast _ _
  rw [sourced, sourced, hsnap]
  rfl

/-- A later snapshot does not replace one that is fetched already. -/
theorem fetchSnapshot_produceSnapshot (es : EventStore M S) {id : String} (key : String) (s : S)
    {r : Record (StateSnapshotMsg S)} (h : es.fetchSnapshot id = some r) :
    (es.produceSnapshot key s).fetchSnapshot id = some r := by
  have hlast : ∀ p o, es.snapshots.fetchLast id p o = some r →
      (es.produceSnapshot key s).snapshots.fetchLast id p o = some r := by
    intro p o hr
    rw [Topic.fetchLast] at hr
    rw [Topic.fetchLast, produceSnapshot, Topic.produce, List.find?_append, hr, Option.some_or]
  rw [fetchSnapshot] at h ⊢
  rw [show (es.produceSnapshot key s).offsets = es.offsets from rfl]
  cases ho : es.offsets.get id with
  | none =>
    rw [ho] at h
    exact hlast _ _ h
  | some o =>
    rw [ho] at h
    exact hlast _ _ h

theorem snapshot_produceSnapshot (es : EventStore M S) {id : String} (key : String) (s : S)
    {m : StateSnapshotMsg S} (h : (es.sourced id).snapshot = some m) :
    ((es.produceSnapshot key s).sourced id).snapshot = some m := by
  rw [snapshot_sourced] at h ⊢
  obtain ⟨r, hr, rfl⟩ := Option.map_eq_some_iff.mp h
  rw [es.fetchSnapshot_produceSnapshot key s hr]
  rfl

/-! ## Topics only the aggregate writes -/

/-- No snapshot says where its events begin, and the offset cache names partitions that
do hold a snapshot. -/
structure Consistent (es : EventStore M S) : Prop where
  snapshots : ∀ r ∈ es.snapshots,
    r.value.lastEventOffset = none ∧ r.value.eventsPartition = none
  offsets : ∀ id o, es.offsets.get id = some o →
    o.offset = none ∧ ∃ r, es.snapshots.fetchLast id (some o.partition) none = some r

namespace Consistent

variable {es : EventStore M S}

theorem empty (partitioner : String → Nat) :
    (EventStore.empty partitioner : EventStore M S).Consistent where
  snapshots r hr := by cases hr
  offsets id o ho := by simp [EventStore.empty] at ho

theorem produceStateEvent (h : es.Consistent) (partition : Option Nat) (key : String) (m : M) :
    (es.produceStateEvent partition key m).Consistent :=
  { snapshots := h.snapshots, offsets := h.offsets }

theorem produceSnapshot (h : es.Consistent) (key : String) (s : S) :
    (es.produceSnapshot key s).Consistent where
  snapshots r hr := by
    rcases List.mem_append.mp hr with hr | hr
    · exact h.snapshots r hr
    · obtain rfl := List.mem_singleton.mp hr
      exact ⟨rfl, rfl⟩
  offsets id o ho := by
    obtain ⟨hnone, r, hr⟩ := h.offsets id o ho
    refine ⟨hnone, r, ?_⟩
    change List.find? _ (es.snapshots ++ _) = some r
    rw [List.find?_append, show es.snapshots.find? _ = some r from hr, Option.some_or]

theorem load (h : es.Consistent) (cacheOk : Bool) (id : String) :
    (es.load cacheOk id).1.Consistent := by
  rcases load_cases cacheOk es id with he | ⟨r, ho, hs, he⟩
  · rwa [he]
  · rw [he]
    refine { snapshots := h.snapshots, offsets := fun id' o ho' => ?_ }
    by_cases hid : id' = id
    · subst hid
      obtain rfl := Option.some.inj ((KeyValue.get_set_self _ _ _).symm.trans ho')
      simp only [fetchSnapshot, ho] at hs
      exact ⟨rfl, r, Topic.fetchLast_partition hs⟩
    · rw [KeyValue.get_set_ne _ _ hid] at ho'
      exact h.offsets id' o ho'

/-- Whatever the snapshot and the offset cache hold, the whole log of the key is read. -/
theorem sourced_events (h : es.Consistent) (id : String) :
    (es.sourced id).events = es.stateEvents.fetchAll id none none := by
  simp only [sourced]
  cases hs : es.fetchSnapshot id with
  | some r =>
    have hr : r ∈ es.snapshots := by
      simp only [fetchSnapshot] at hs
      cases ho : es.offsets.get id with
      | none => exact List.mem_of_find?_eq_some (by rw [ho] at hs; exact hs)
      | some o => exact List.mem_of_find?_eq_some (by rw [ho] at hs; exact hs)
    obtain ⟨hoff, hpart⟩ := h.snapshots r hr
    dsimp only
    rw [hoff, hpart]
  | none =>
    cases ho : es.offsets.get id with
    | none => rfl
    | some o =>
      -- a cached partition always yields a snapshot
      obtain ⟨hnone, r, hr⟩ := h.offsets id o ho
      simp only [fetchSnapshot, ho, hnone, hr] at hs
      cases hs

/-- A published state event is the last one its key is rebuilt from. -/
theorem sourced_produceStateEvent (h : es.Consistent) (partition : Option Nat) (key : String)
    (m : M) (id : String) :
    (es.produceStateEvent partition key m).sourced id =
      { snapshot := (es.sourced id).snapshot,
        events := (es.sourced id).events ++ if key = id then [m] else [] } := by
  have hevents := (h.produceStateEvent partition key m).sourced_events id
  rw [show (es.produceStateEvent partition key m).stateEvents = es.stateEvents.produce _ key m
    from rfl, Topic.fetchAll_produce_none, ← h.sourced_events] at hevents
  have hsnap : ((es.produceStateEvent partition key m).sourced id).snapshot =
      (es.sourced id).snapshot := by
    rw [snapshot_sourced, snapshot_sourced]
    rfl
  rw [← hsnap, ← hevents]

/-- The first snapshot of a key is fetched from then on. -/
theorem snapshot_produceSnapshot_of_none (h : es.Consistent) {id : String} (s : S)
    (hnone : (es.sourced id).snapshot = none) :
    ((es.produceSnapshot id s).sourced id).snapshot =
      some { payload := s, lastEventOffset := none, eventsPartition := none } := by
  rw [snapshot_sourced, Option.map_eq_none_iff] at hnone
  have hoffsets : es.offsets.get id = none := by
    cases ho : es.offsets.get id with
    | none => rfl
    | some o =>
      -- a cached partition always yields a snapshot
      obtain ⟨hoff, r, hr⟩ := h.offsets id o ho
      simp only [fetchSnapshot, ho, hoff, hr] at hnone
      cases hnone
  rw [fetchSnapshot, hoffsets] at hnone
  have hfirst : es.snapshots.find? (Topic.wanted id none (some 0)) = none := hnone
  rw [snapshot_sourced, fetchSnapshot, show (es.produceSnapshot id s).offsets = es.offsets from rfl,
    hoffsets]
  dsimp only
  rw [Topic.fetchLast, EventStore.produceSnapshot, Topic.produce, List.find?_append, hfirst,
    Option.none_or, List.find?_cons_of_pos (by simp [Topic.wanted])]
  rfl

theorem events_produceSnapshot (h : es.Consistent) (key : String) (s : S) (id : String) :
    ((es.produceSnapshot key s).sourced id).events = (es.sourced id).events := by
  rw [(h.produceSnapshot key s).sourced_events, h.sourced_events]
  rfl

end Consistent

end EventStore

end Infrastructure
end PocArchitecture
