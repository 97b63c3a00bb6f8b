/-
What a participant is taken for when a fetch was cut short.

A cache miss rebuilds the participant from two fetches.  The aggregate takes whatever they
resolve with for the whole truth: no snapshot and no events for a participant that does
not exist, some of the events for its history.  So a load can be trusted, whatever the
topics say, exactly when its fetch of the state events ends with nothing left to read.
-/
import PocArchitecture.Domain.PolledLoad
import PocArchitecture.Participants.Repos
import PocArchitecture.Participants.WorldInvariant

namespace PocArchitecture
namespace Participants

open PublicMessages Infrastructure
open Domain (Loaded)
open Domain.BaseEventSourcingAggregate

namespace ParticpantsAgg

/-- `processCreateParticipantCommand` once its load has returned. -/
def createOn (R : StateRepo ParticipantState) (f : Faults)
    (loaded : Domain.Load ParticipantStateEvt ParticipantState)
    (participant : CreateParticipantCmdPayload) : Handled :=
  match loaded.root with
  | .failed => { repo := loaded.world, root := none, events := [], result := none }
  | .found root =>
    conclude R f participant.id loaded.world loaded.refillDue root
      (.refuse [.duplicateParticipantDetectedEvt participant.id])
  | .notFound =>
    { repo := loaded.world, root := some participant,
      events := [.participantCreatedEvt participant.id participant.name],
      result := some ⟨true, some (.stateEvt (.participantCreatedStateEvt participant))⟩ }

theorem processCreateParticipantCommand_eq (R : StateRepo ParticipantState) (f : Faults)
    (w : World) (participant : CreateParticipantCmdPayload) :
    processCreateParticipantCommand R f w participant =
      createOn R f (load R applyStateEvent f.offsets w participant.id) participant :=
  rfl

/-- The handler has created the participant. -/
def Creates (handled : Handled) (participant : CreateParticipantCmdPayload) : Prop :=
  handled.result = some ⟨true, some (.stateEvt (.participantCreatedStateEvt participant))⟩

/-- It creates a participant that the load has not found. -/
theorem creates_iff {R : StateRepo ParticipantState} {f : Faults}
    {loaded : Domain.Load ParticipantStateEvt ParticipantState}
    {participant : CreateParticipantCmdPayload} :
    Creates (createOn R f loaded participant) participant ↔ loaded.root = .notFound := by
  unfold Creates createOn
  cases loaded.root with
  | failed => exact iff_of_false (fun h => (by cases h)) fun h => (by cases h)
  | notFound => exact iff_of_true rfl rfl
  | found root => exact iff_of_false (fun h => (by cases h)) fun h => (by cases h)

/-! ## Loads that miss the cache -/

/-- One load of a participant that is not cached, with the polls of its fetches.  A
partition of the state-event topic numbers its records. -/
structure ColdLoad (R : StateRepo ParticipantState) where
  world : World
  id : String
  offsetsOk : Bool
  polls : FetchPolls
  miss : R.view world.repo id = none
  numbered : world.log.stateEvents.Numbered

/-- What the records of both topics say.  Every record has the key and lies in the
partition that its message names. -/
structure Contents where
  stateEvt : Record Unit → ParticipantStateEvt
  snapshot : Record Unit → ParticipantState
  key : ∀ place, (stateEvt place).msgKey = place.key
  partition : ∀ place, (stateEvt place).msgPartition = some place.partition
  id : ∀ place, (snapshot place).id = place.key

def Contents.snapshotRecord (contents : Contents) (r : Record (StateSnapshotMsg ParticipantState)) :
    Record (StateSnapshotMsg ParticipantState) :=
  { r with value := { r.value with payload := contents.snapshot r.place } }

/-- The history begins with the creation of the participant. -/
def CreatedFirst : List ParticipantStateEvt → Prop
  | .participantCreatedStateEvt _ :: _ => True
  | _ => False

namespace ColdLoad

variable {R : StateRepo ParticipantState} (c : ColdLoad R)

def loaded : Option (Domain.Load ParticipantStateEvt ParticipantState) :=
  polledLoad R applyStateEvent c.offsetsOk c.world c.id c.polls

/-- The state events of the participant in the order of the log. -/
def stateEvents : List ParticipantStateEvt :=
  c.world.log.stateEvents.fetchAll c.id none none

def replayed : Loaded ParticipantState :=
  rebuild applyStateEvent { snapshot := none, events := c.stateEvents }

/-- The load rejects or finds what the whole log says, and what has been created is not
created again. -/
structure NeverMistaken : Prop where
  root : ∀ loaded ∈ c.loaded, loaded.root = .failed ∨ loaded.root = c.replayed
  create : ∀ loaded ∈ c.loaded, ∀ f participant, participant.id = c.id →
    (∃ created, .participantCreatedStateEvt created ∈ c.stateEvents) →
      ¬ Creates (createOn R f loaded participant) participant

/-- The snapshot the load has read. -/
def snapshotRead : Option (Record (StateSnapshotMsg ParticipantState)) :=
  (c.world.log.polledSnapshot c.id c.polls).join

/-- A participant whose snapshot is read has been created first. -/
def Startable : Prop :=
  c.snapshotRead.isSome = true → CreatedFirst c.stateEvents

def readsWhole : Bool :=
  c.world.log.readsWhole c.id c.polls

/-- The same load of topics that say something else. -/
def withContents (contents : Contents) : ColdLoad R :=
  { c with
    world := { c.world with
      log := { c.world.log with
        stateEvents := c.world.log.stateEvents.places.withValues contents.stateEvt
        snapshots := c.world.log.snapshots.map contents.snapshotRecord } }
    numbered := c.numbered.withValues contents.stateEvt }

/-! ## A fetch that is not cut short -/

/-- What the load rebuilds the participant from. -/
theorem loaded_root : c.loaded.map (·.root) =
    (c.world.log.polledSnapshot c.id c.polls).bind fun snapshot =>
      (Topic.fetcher c.id (c.world.log.eventsAssignment c.id snapshot) false
        c.world.log.stateEvents [] c.polls.stateEvents).map fun result =>
          rebuild applyStateEvent
            { snapshot := snapshot.map (·.value), events := result.map (·.value) } := by
  rw [loaded, polledLoad_root _ _ _ _ _ c.miss, EventStore.polledLoad]
  cases c.world.log.polledSnapshot c.id c.polls with
  | none => rfl
  | some snapshot =>
    dsimp only [Option.bind_some]
    rw [Topic.fetchAllPolled]
    cases Topic.fetcher c.id (c.world.log.eventsAssignment c.id snapshot) false
      c.world.log.stateEvents [] c.polls.stateEvents <;> rfl

/-- A creation forgets whatever was there before. -/
theorem rebuild_createdFirst {events : List ParticipantStateEvt} (h : CreatedFirst events)
    (snapshot : Option (StateSnapshotMsg ParticipantState)) :
    rebuild applyStateEvent { snapshot := snapshot, events := events } =
      rebuild applyStateEvent { snapshot := none, events := events } := by
  cases events with
  | nil => cases h
  | cons evt events =>
    cases evt with
    | participantPositionChangedStateEvt evt => cases h
    | participantCreatedStateEvt created => cases snapshot <;> rfl

/-- A load whose fetch is not cut short takes the participant for what it is. -/
theorem neverMistaken_of_readsWhole (hstart : c.Startable) (hwhole : c.readsWhole = true) :
    c.NeverMistaken := by
  have hroot : ∀ loaded ∈ c.loaded, loaded.root = c.replayed := by
    intro loaded hloaded
    have h := c.loaded_root
    rw [show c.loaded = some loaded from hloaded, Option.map_some] at h
    rw [readsWhole, EventStore.readsWhole] at hwhole
    cases hs : c.world.log.polledSnapshot c.id c.polls with
    | none => simp [hs] at h
    | some snapshot =>
      simp only [hs] at hwhole
      rw [hs, Option.bind_some] at h
      cases hf : Topic.fetcher c.id (c.world.log.eventsAssignment c.id snapshot) false
          c.world.log.stateEvents [] c.polls.stateEvents with
      | none => simp [hf] at h
      | some result =>
        rw [hf, Option.map_some, Topic.readsWhole_iff.mp hwhole result hf,
          ← EventStore.fetchAll_eq_mine] at h
        rw [Option.some.inj h, replayed]
        cases snapshot with
        | none => rfl
        | some r => exact rebuild_createdFirst (hstart (by rw [snapshotRead, hs]; rfl)) _
  refine { root := fun loaded hloaded => Or.inr (hroot loaded hloaded), create := ?_ }
  rintro loaded hloaded f participant - ⟨created, hcreated⟩ hcreates
  have hnotFound := (hroot loaded hloaded).symm.trans (creates_iff.mp hcreates)
  have hempty : c.stateEvents = [] := (rebuild_notFound hnotFound).2
  rw [hempty] at hcreated
  cases hcreated

end ColdLoad

/-! ## Contents that tell two fetches apart -/

/-- What a record is made to say. -/
inductive Entry where
  /-- the creation of a participant without accounts -/
  | bare
  /-- the creation of a participant with an account, under this name -/
  | named (name : String)
  /-- a new position of the account -/
  | moved

def usdAccount : ParticipantAccountState :=
  { type := .position, currency := "USD", position := "0", initialPosition := "0", limits := [] }

def participantAt (name : String) (accounts : List ParticipantAccountState) (place : Record Unit) :
    ParticipantState :=
  { id := place.key, name := name, accounts := accounts, endpoints := [],
    partition := some place.partition }

def Entry.stateEvt (place : Record Unit) : Entry → ParticipantStateEvt
  | bare => .participantCreatedStateEvt (participantAt "" [] place)
  | named name => .participantCreatedStateEvt (participantAt name [usdAccount] place)
  | moved => .participantPositionChangedStateEvt
      { id := place.key, currency := "USD", currentPosition := "1",
        partition := some place.partition }

def contentsOf (entry : Record Unit → Entry) : Contents where
  stateEvt place := (entry place).stateEvt place
  snapshot := participantAt "snapshot" [usdAccount]
  key place := by cases entry place <;> rfl
  partition place := by cases entry place <;> rfl
  id place := rfl

theorem contentsOf_stateEvt (entry : Record Unit → Entry) (place : Record Unit) :
    (contentsOf entry).stateEvt place = (entry place).stateEvt place :=
  rfl

def hasUsdAccount (s : ParticipantState) : Bool :=
  s.accounts.any (isAccount .position "USD")

section Replays

variable {entry : Record Unit → Entry}

/-- A movement finds the account, keeps it, and keeps the name. -/
theorem apply_moved {s : ParticipantState} (hs : hasUsdAccount s = true) (place : Record Unit) :
    ∃ s', applyStateEvent (some s) (Entry.moved.stateEvt place) = some s' ∧
      hasUsdAccount s' = true ∧ s'.name = s.name := by
  refine ⟨_, if_pos hs, ?_, rfl⟩
  obtain ⟨account, hmem, haccount⟩ := List.any_eq_true.mp hs
  refine List.any_eq_true.mpr ⟨_, List.mem_map.mpr ⟨account, hmem, rfl⟩, ?_⟩
  rw [if_pos haccount]
  exact haccount

/-- Movements and creations under one name leave a participant of that name. -/
theorem replay_name {name : String} : ∀ {places : List (Record Unit)} {s : ParticipantState},
    (∀ q ∈ places, entry q = .moved ∨ entry q = .named name) → hasUsdAccount s = true →
    s.name = name ∨ (∃ q ∈ places, entry q = .named name) →
      ∃ s', applyManyStateEvents applyStateEvent (some s)
        (places.map (contentsOf entry).stateEvt) = some s' ∧ s'.name = name
  | [], s, _, _, hname => by
    refine ⟨s, rfl, ?_⟩
    rcases hname with hname | ⟨q, hq, -⟩
    · exact hname
    · cases hq
  | q :: places, s, hentry, hs, hname => by
    have hrest : ∀ b ∈ places, entry b = .moved ∨ entry b = .named name := fun b hb =>
      hentry b (List.mem_cons_of_mem q hb)
    rw [List.map_cons, applyManyStateEvents, contentsOf_stateEvt]
    rcases hentry q List.mem_cons_self with hq | hq
    · obtain ⟨s', hs', husd, hkept⟩ := apply_moved hs q
      rw [hq, hs']
      refine replay_name hrest husd ?_
      rcases hname with hname | ⟨b, hb, hnamed⟩
      · exact Or.inl (hkept.trans hname)
      · rcases List.mem_cons.mp hb with rfl | hb
        · rw [hq] at hnamed
          cases hnamed
        · exact Or.inr ⟨b, hb, hnamed⟩
    · rw [hq]
      exact replay_name hrest rfl (Or.inl rfl)

/-- Nothing can be moved where there is no account. -/
theorem replay_moved_none {r : Record Unit} {after : List (Record Unit)} (hr : entry r = .moved) :
    ∀ {before : List (Record Unit)} {root : Option ParticipantState},
      (∀ q ∈ before, entry q = .bare) → (∀ s ∈ root, s.accounts = []) →
        applyManyStateEvents applyStateEvent root
          ((before ++ r :: after).map (contentsOf entry).stateEvt) = none
  | [], root, _, hroot => by
    rw [List.nil_append, List.map_cons, applyManyStateEvents, contentsOf_stateEvt, hr]
    cases root with
    | none => rfl
    | some s =>
      have hfail : applyStateEvent (some s) (Entry.moved.stateEvt r) = none := by
        refine if_neg ?_
        rw [hroot s rfl, List.any_nil]
        exact Bool.false_ne_true
      rw [hfail]
  | q :: before, root, hbefore, _ => by
    rw [List.cons_append, List.map_cons, applyManyStateEvents, contentsOf_stateEvt,
      hbefore q List.mem_cons_self]
    refine replay_moved_none hr (fun b hb => hbefore b (List.mem_cons_of_mem q hb)) fun s hs => ?_
    rw [← Option.some.inj hs]
    rfl

/-- A movement later than a creation with the account is carried out. -/
theorem replay_named_isSome {name : String} {rest : List (Record Unit)}
    (hrest : ∀ q ∈ rest, entry q = .moved ∨ entry q = .named name)
    (hhead : ∀ q ∈ rest.head?, entry q = .named name) :
    ∀ {before : List (Record Unit)} {root : Option ParticipantState},
      (∀ q ∈ before, entry q = .bare) → (before ++ rest = [] → root.isSome = true) →
        (applyManyStateEvents applyStateEvent root
          ((before ++ rest).map (contentsOf entry).stateEvt)).isSome = true
  | [], root, _, hroot => by
    cases rest with
    | nil => exact hroot rfl
    | cons q rest =>
      rw [List.nil_append, List.map_cons, applyManyStateEvents, contentsOf_stateEvt, hhead q rfl]
      obtain ⟨s', hs', -⟩ := replay_name (fun b hb => hrest b (List.mem_cons_of_mem q hb))
        (rfl : hasUsdAccount (participantAt name [usdAccount] q) = true) (Or.inl rfl)
      exact Option.isSome_iff_exists.mpr ⟨s', hs'⟩
  | q :: before, root, hbefore, _ => by
    rw [List.cons_append, List.map_cons, applyManyStateEvents, contentsOf_stateEvt,
      hbefore q List.mem_cons_self]
    exact replay_named_isSome hrest hhead (fun b hb => hbefore b (List.mem_cons_of_mem q hb))
      fun _ => rfl

end Replays

section Misleading

variable (snapshot : Option (Record (StateSnapshotMsg ParticipantState)))

/-- What a load rebuilds from the snapshot and from these records. -/
def rebuilt (contents : Contents) (records : List (Record Unit)) : Loaded ParticipantState :=
  rebuild applyStateEvent
    { snapshot := (snapshot.map contents.snapshotRecord).map (·.value),
      events := records.map contents.stateEvt }

theorem rebuilt_of_isSome {contents : Contents} {records : List (Record Unit)}
    (h : records ≠ [] → (applyManyStateEvents applyStateEvent
      ((snapshot.map contents.snapshotRecord).map (·.value.payload))
      (records.map contents.stateEvt)).isSome = true) :
    rebuilt snapshot contents records ≠ .failed := by
  cases records with
  | nil =>
    cases snapshot with
    | none => exact fun h => (by cases h)
    | some r => exact fun h => (by cases h)
  | cons q records =>
    have hsome := h (List.cons_ne_nil q records)
    obtain ⟨s, hs⟩ := Option.isSome_iff_exists.mp hsome
    have hroot : rebuilt snapshot contents (q :: records) = .ofReplay (some s) := by
      rw [← hs]
      cases snapshot <;> rfl
    rw [hroot]
    exact fun h => (by cases h)

variable {before rest after : List (Record Unit)} {r : Record Unit}

/-- Where the fetch goes on with another record than the log, a history can break at the
one it left out. -/
theorem exists_misleading_after (hnodup : (before ++ r :: after).Nodup)
    (hrest : (before ++ rest).Nodup) (hhead : rest.head? ≠ some r)
    (hstart : snapshot = none ∨ before ≠ []) :
    ∃ contents : Contents,
      (snapshot.isSome = true → CreatedFirst ((before ++ r :: after).map contents.stateEvt)) ∧
      rebuilt snapshot contents (before ++ rest) ≠ .failed ∧
      rebuilt none contents (before ++ r :: after) = .failed := by
  classical
  let entry : Record Unit → Entry := fun q =>
    if q = r then .moved else if q ∈ before then .bare else .named ""
  have hr : entry r = .moved := if_pos rfl
  have hbefore : ∀ q ∈ before, entry q = .bare := by
    intro q hq
    have hne : q ≠ r := by
      rintro rfl
      exact (List.nodup_append.mp hnodup).2.2 q hq q List.mem_cons_self rfl
    exact (if_neg hne).trans (if_pos hq)
  have hother : ∀ q ∈ rest, q ≠ r → entry q = .named "" := by
    intro q hq hne
    have hnot : q ∉ before := fun hmem => (List.nodup_append.mp hrest).2.2 q hmem q hq rfl
    exact (if_neg hne).trans (if_neg hnot)
  refine ⟨contentsOf entry, ?_, ?_, ?_⟩
  · intro hsome
    rcases hstart with hnone | hne
    · rw [hnone] at hsome
      cases hsome
    · obtain ⟨q, before', hq⟩ := List.exists_cons_of_ne_nil hne
      have hbare : entry q = .bare := hbefore q (hq ▸ List.mem_cons_self)
      rw [hq, List.cons_append, List.map_cons, contentsOf_stateEvt, hbare]
      exact trivial
  · have hlines : ∀ q ∈ rest, entry q = .moved ∨ entry q = .named "" := by
      intro q hq
      by_cases hqr : q = r
      · exact Or.inl (hqr ▸ hr)
      · exact Or.inr (hother q hq hqr)
    have hfirst : ∀ q ∈ rest.head?, entry q = .named "" := by
      intro q hq
      have hqr : q ≠ r := by
        rintro rfl
        exact hhead hq
      exact hother q (List.mem_of_mem_head? hq) hqr
    exact rebuilt_of_isSome snapshot fun hne =>
      replay_named_isSome hlines hfirst hbefore fun hnil => absurd hnil hne
  · have hnone : applyManyStateEvents applyStateEvent none
        ((before ++ r :: after).map (contentsOf entry).stateEvt) = none :=
      replay_moved_none hr hbefore fun s hs => (by cases hs)
    have hroot : rebuilt none (contentsOf entry) (before ++ r :: after) =
        .ofReplay (applyManyStateEvents applyStateEvent none
          ((before ++ r :: after).map (contentsOf entry).stateEvt)) := by
      cases before <;> rfl
    rw [hroot, hnone]
    rfl

/-- The snapshot and movements leave a participant of the snapshot's name, or of the name
of the one creation that follows it. -/
theorem rebuilt_snapshot {entry : Record Unit → Entry} (last : Record (StateSnapshotMsg ParticipantState))
    {records : List (Record Unit)} {name : String}
    (hentry : ∀ q ∈ records, entry q = .moved ∨ entry q = .named name)
    (hname : name = "snapshot" ∨ ∃ q ∈ records, entry q = .named name) :
    ∃ s, rebuilt (some last) (contentsOf entry) records = .found s ∧ s.name = name := by
  obtain ⟨s, hs, hkept⟩ := replay_name hentry
    (rfl : hasUsdAccount (participantAt "snapshot" [usdAccount] last.place) = true)
    (hname.imp_left Eq.symm)
  refine ⟨s, ?_, hkept⟩
  have hroot : rebuilt (some last) (contentsOf entry) records =
      .ofReplay (applyManyStateEvents applyStateEvent
        (some (participantAt "snapshot" [usdAccount] last.place))
          (records.map (contentsOf entry).stateEvt)) := rfl
  rw [hroot, hs]
  rfl

theorem rebuilt_named_cons {entry : Record Unit → Entry} {first : String}
    (hr : entry r = .named first) {name : String}
    (hentry : ∀ q ∈ after, entry q = .moved ∨ entry q = .named name)
    (hname : first = name ∨ ∃ q ∈ after, entry q = .named name) :
    ∃ s, rebuilt snapshot (contentsOf entry) (r :: after) = .found s ∧ s.name = name := by
  obtain ⟨s, hs, hkept⟩ := replay_name hentry
    (rfl : hasUsdAccount (participantAt first [usdAccount] r) = true) hname
  refine ⟨s, ?_, hkept⟩
  have hroot : rebuilt snapshot (contentsOf entry) (r :: after) =
      .ofReplay (applyManyStateEvents applyStateEvent
        (some (participantAt first [usdAccount] r)) (after.map (contentsOf entry).stateEvt)) := by
    rw [rebuilt, List.map_cons, contentsOf_stateEvt, hr]
    cases snapshot <;> rfl
  rw [hroot, hs]
  rfl

/-- The creation comes late: one that the log has after it comes before it. -/
theorem exists_misleading_late (last : Record (StateSnapshotMsg ParticipantState)) {b : Record Unit}
    (hr : r ∉ after) (hb : b ∈ after) (hbrest : b ∉ rest) (hrrest : r ∈ rest) :
    ∃ contents : Contents, CreatedFirst ((r :: after).map contents.stateEvt) ∧
      ∃ s s', rebuilt (some last) contents (b :: rest) = .found s ∧
        rebuilt none contents (r :: after) = .found s' ∧ s ≠ s' := by
  classical
  have hbr : b ≠ r := fun h => hr (h ▸ hb)
  let entry : Record Unit → Entry := fun q =>
    if q = r then .named "log" else if q = b then .named "other" else .moved
  have hlog : entry r = .named "log" := if_pos rfl
  have hother : entry b = .named "other" := (if_neg hbr).trans (if_pos rfl)
  have hafter : ∀ q ∈ after, entry q = .moved ∨ entry q = .named "other" := by
    intro q hq
    have hqr : q ≠ r := fun h => hr (h ▸ hq)
    by_cases hqb : q = b
    · exact Or.inr (hqb ▸ hother)
    · exact Or.inl ((if_neg hqr).trans (if_neg hqb))
  have hfetched : ∀ q ∈ rest, entry q = .moved ∨ entry q = .named "log" := by
    intro q hq
    have hqb : q ≠ b := fun h => hbrest (h ▸ hq)
    by_cases hqr : q = r
    · exact Or.inr (hqr ▸ hlog)
    · exact Or.inl ((if_neg hqr).trans (if_neg hqb))
  obtain ⟨s, hs, hname⟩ := rebuilt_named_cons (some last) hother hfetched (Or.inr ⟨r, hrrest, hlog⟩)
  obtain ⟨s', hs', hname'⟩ := rebuilt_named_cons none hlog hafter (Or.inr ⟨b, hb, hother⟩)
  refine ⟨contentsOf entry, ?_, s, s', hs, hs', ?_⟩
  · rw [List.map_cons, contentsOf_stateEvt, hlog]
    exact trivial
  · rintro rfl
    exact absurd (hname.symm.trans hname') (by decide)

/-- The creation does not come: the snapshot keeps its own name. -/
theorem exists_misleading_missing (last : Record (StateSnapshotMsg ParticipantState))
    (hr : r ∉ after) (hrest : r ∉ rest) :
    ∃ contents : Contents, CreatedFirst ((r :: after).map contents.stateEvt) ∧
      ∃ s s', rebuilt (some last) contents rest = .found s ∧
        rebuilt none contents (r :: after) = .found s' ∧ s ≠ s' := by
  classical
  let entry : Record Unit → Entry := fun q => if q = r then .named "log" else .moved
  have hlog : entry r = .named "log" := if_pos rfl
  have hafter : ∀ q ∈ after, entry q = .moved ∨ entry q = .named "log" := by
    intro q hq
    have hqr : q ≠ r := fun h => hr (h ▸ hq)
    exact Or.inl (if_neg hqr)
  have hfetched : ∀ q ∈ rest, entry q = .moved ∨ entry q = .named "snapshot" := by
    intro q hq
    have hqr : q ≠ r := fun h => hrest (h ▸ hq)
    exact Or.inl (if_neg hqr)
  obtain ⟨s, hs, hname⟩ := rebuilt_snapshot last hfetched (Or.inl rfl)
  obtain ⟨s', hs', hname'⟩ := rebuilt_named_cons none hlog hafter (Or.inl rfl)
  refine ⟨contentsOf entry, ?_, s, s', hs, hs', ?_⟩
  · rw [List.map_cons, contentsOf_stateEvt, hlog]
    exact trivial
  · rintro rfl
    exact absurd (hname.symm.trans hname') (by decide)

/-- Where a snapshot is read and the fetch does not begin with the first record, the
history can be that of the log under another name. -/
theorem exists_misleading_first (last : Record (StateSnapshotMsg ParticipantState))
    (hnodup : (r :: after).Nodup) (hrest : rest.Nodup) (hhead : rest.head? ≠ some r)
    (hsub : ∀ b ∈ rest, b ∈ r :: after) :
    ∃ contents : Contents, CreatedFirst ((r :: after).map contents.stateEvt) ∧
      ∃ s s', rebuilt (some last) contents rest = .found s ∧
        rebuilt none contents (r :: after) = .found s' ∧ s ≠ s' := by
  have hr : r ∉ after := (List.nodup_cons.mp hnodup).1
  by_cases hmem : r ∈ rest
  · cases rest with
    | nil => cases hmem
    | cons b rest =>
      have hbr : b ≠ r := fun h => hhead (congrArg some h)
      have hb : b ∈ after := (List.mem_cons.mp (hsub b List.mem_cons_self)).resolve_left hbr
      have hrrest : r ∈ rest := (List.mem_cons.mp hmem).resolve_left hbr.symm
      exact exists_misleading_late last hr hb (List.nodup_cons.mp hrest).1 hrrest
  · exact exists_misleading_missing last hr hmem

end Misleading

/-! ## Every content of the topics -/

namespace ColdLoad

variable {R : StateRepo ParticipantState} (c : ColdLoad R) (contents : Contents)

@[simp] theorem id_withContents : (c.withContents contents).id = c.id := rfl

@[simp] theorem polls_withContents : (c.withContents contents).polls = c.polls := rfl

@[simp] theorem topic_withContents : (c.withContents contents).world.log.stateEvents =
    c.world.log.stateEvents.places.withValues contents.stateEvt := rfl

theorem polledSnapshot_withContents :
    (c.withContents contents).world.log.polledSnapshot c.id c.polls =
      (c.world.log.polledSnapshot c.id c.polls).map (Option.map contents.snapshotRecord) := by
  have hmap : Topic.fetcher c.id (c.world.log.snapshotAssignment c.id) true
      (c.world.log.snapshots.map contents.snapshotRecord) [] c.polls.snapshot =
        (Topic.fetcher c.id (c.world.log.snapshotAssignment c.id) true c.world.log.snapshots []
          c.polls.snapshot).map (List.map contents.snapshotRecord) :=
    Topic.fetcher_map (f := contents.snapshotRecord) (fun _ => rfl) true c.polls.snapshot
      c.world.log.snapshots []
  rw [EventStore.polledSnapshot, Topic.fetchLastPolled]
  refine (congrArg (Option.map List.head?) hmap).trans ?_
  rw [EventStore.polledSnapshot, Topic.fetchLastPolled, Option.map_map, Option.map_map]
  congr 1
  funext result
  exact List.head?_map

@[simp] theorem eventsAssignment_withContents
    (snapshot : Option (Record (StateSnapshotMsg ParticipantState))) :
    (c.withContents contents).world.log.eventsAssignment c.id (snapshot.map contents.snapshotRecord) =
      c.world.log.eventsAssignment c.id snapshot := by
  cases snapshot <;> rfl

theorem stateEvents_withContents : (c.withContents contents).stateEvents =
    (c.world.log.stateEvents.places.mine c.id).map contents.stateEvt := by
  rw [stateEvents, EventStore.fetchAll_eq_mine, topic_withContents, id_withContents,
    Topic.mine_withValues, Topic.values_withValues]

theorem replayed_withContents : (c.withContents contents).replayed =
    rebuilt none contents (c.world.log.stateEvents.places.mine c.id) := by
  rw [replayed, stateEvents_withContents]
  rfl

/-- What the load of such a topic rebuilds the participant from. -/
theorem loaded_withContents {snapshot : Option (Record (StateSnapshotMsg ParticipantState))}
    {records : Topic Unit} (hs : c.world.log.polledSnapshot c.id c.polls = some snapshot)
    (hf : Topic.fetcher c.id (c.world.log.eventsAssignment c.id snapshot) false
      c.world.log.stateEvents.places [] c.polls.stateEvents = some records) :
    ∃ loaded ∈ (c.withContents contents).loaded,
      loaded.root = rebuilt snapshot contents records := by
  have hroot := (c.withContents contents).loaded_root
  rw [id_withContents, polls_withContents, polledSnapshot_withContents, hs, Option.map_some,
    Option.bind_some, eventsAssignment_withContents, topic_withContents, Topic.fetcher_withValues, hf,
    Option.map_some, Option.map_some, Topic.values_withValues] at hroot
  exact Option.map_eq_some_iff.mp hroot

theorem readsWhole_withContents : (c.withContents contents).readsWhole = c.readsWhole := by
  rw [readsWhole, readsWhole, EventStore.readsWhole, EventStore.readsWhole, id_withContents,
    polls_withContents, polledSnapshot_withContents]
  cases c.world.log.polledSnapshot c.id c.polls with
  | none => rfl
  | some snapshot =>
    simp only [Option.map_some, eventsAssignment_withContents, topic_withContents,
      Topic.readsWhole_withValues, Topic.readsWhole_places]

theorem snapshotRead_withContents :
    (c.withContents contents).snapshotRead.isSome = c.snapshotRead.isSome := by
  rw [snapshotRead, id_withContents, polls_withContents, polledSnapshot_withContents, snapshotRead]
  cases c.world.log.polledSnapshot c.id c.polls with
  | none => rfl
  | some snapshot => cases snapshot <;> rfl

/-- A load whose fetch is cut short is mistaken about some history. -/
theorem exists_mistaken (hwhole : ¬ c.readsWhole = true) :
    ∃ contents, (c.withContents contents).Startable ∧ ¬ (c.withContents contents).NeverMistaken := by
  rw [readsWhole, EventStore.readsWhole] at hwhole
  cases hs : c.world.log.polledSnapshot c.id c.polls with
  | none => simp [hs] at hwhole
  | some snapshot =>
    simp only [hs] at hwhole
    rw [← Topic.readsWhole_places] at hwhole
    obtain ⟨before, r, after, rest, hmine, hhead, hrest, hsub, hf⟩ :=
      Topic.parting_of_not_readsWhole c.numbered.distinct hwhole
    have hnodup : (before ++ r :: after).Nodup := hmine ▸ c.numbered.distinct.filter _
    have hread : c.snapshotRead = snapshot := by
      rw [snapshotRead, hs]
      rfl
    by_cases hstart : snapshot = none ∨ before ≠ []
    · obtain ⟨contents, hfirst, hok, hfailed⟩ :=
        exists_misleading_after snapshot hnodup hrest hhead hstart
      refine ⟨contents, ?_, fun h => ?_⟩
      · rw [Startable, snapshotRead_withContents, stateEvents_withContents, hmine, hread]
        exact hfirst
      · obtain ⟨loaded, hloaded, hroot⟩ := c.loaded_withContents contents hs hf
        rcases h.root loaded hloaded with h | h
        · exact hok (hroot.symm.trans h)
        · rw [replayed_withContents, hmine, hfailed, hroot] at h
          exact hok h
    · push Not at hstart
      obtain ⟨hsome, rfl⟩ := hstart
      obtain ⟨last, rfl⟩ := Option.ne_none_iff_exists'.mp hsome
      rw [List.nil_append] at hmine hf hnodup hrest
      obtain ⟨contents, hfirst, s, s', hs₁, hs₂, hne⟩ :=
        exists_misleading_first last hnodup hrest hhead fun b hb => hmine ▸ hsub b hb
      refine ⟨contents, ?_, fun h => ?_⟩
      · rw [Startable, stateEvents_withContents, hmine]
        exact fun _ => hfirst
      · obtain ⟨loaded, hloaded, hroot⟩ := c.loaded_withContents contents hs hf
        rw [hs₁] at hroot
        rcases h.root loaded hloaded with h | h
        · rw [hroot] at h
          cases h
        · rw [replayed_withContents, hmine, hs₂, hroot] at h
          exact hne (Loaded.found.inj h)

end ColdLoad

/-- A load that misses the cache takes the participant for what its whole log makes it if
its fetch of the state events is not cut short; and it does so whatever the topics say
only then. -/
theorem never_mistaken_iff {R : StateRepo ParticipantState} (c : ColdLoad R) :
    (c.Startable → c.readsWhole = true → c.NeverMistaken) ∧
      ((∀ contents, (c.withContents contents).Startable → (c.withContents contents).NeverMistaken) ↔
        c.readsWhole = true) := by
  refine ⟨c.neverMistaken_of_readsWhole, ⟨fun h => ?_, fun hwhole contents hstart => ?_⟩⟩
  · by_contra hwhole
    obtain ⟨contents, hstart, hmistaken⟩ := c.exists_mistaken hwhole
    exact hmistaken (h contents hstart)
  · refine (c.withContents contents).neverMistaken_of_readsWhole hstart ?_
    rw [c.readsWhole_withContents]
    exact hwhole

/-! ## Logs of the aggregate -/

theorem numbered_recordAll {log : Log} (h : log.stateEvents.Numbered) (msgs : List Message) :
    (recordAll log msgs).stateEvents.Numbered := by
  induction msgs generalizing log with
  | nil => exact h
  | cons m msgs ih =>
    refine ih ?_
    cases m with
    | stateEvt evt => exact h.produce _ _ _
    | _ => exact h

/-- A created participant that is not cached, loaded with one poll of its state events. -/
def coldBlue (poll : Poll) : ColdLoad redisParticipantStateRepo where
  world :=
    { repo := RepoState.empty
      log := recordAll (EventStore.empty fun _ => 0)
        [.stateEvt (.participantCreatedStateEvt (sampleParticipant "blue"))] }
  id := "blue"
  offsetsOk := true
  polls := { snapshot := [.endOf 0], stateEvents := [poll] }
  miss := redis_lawful.view_empty "blue"
  numbered := numbered_recordAll Topic.Numbered.nil _

theorem coldBlue_mistaken {poll : Poll}
    (hreplayed : (coldBlue poll).replayed = .found (sampleParticipant "blue"))
    (hroot : (coldBlue poll).loaded.map (·.root) = some .notFound) :
    (∃ loaded ∈ (coldBlue poll).loaded,
      Creates (createOn redisParticipantStateRepo Faults.none loaded (sampleParticipant "blue"))
        (sampleParticipant "blue")) ∧
      ¬ (coldBlue poll).NeverMistaken := by
  obtain ⟨loaded, hloaded, hnotFound⟩ := Option.map_eq_some_iff.mp hroot
  refine ⟨⟨loaded, hloaded, creates_iff.mpr hnotFound⟩, fun h => ?_⟩
  rcases h.root loaded hloaded with h | h
  · rw [hnotFound] at h
    cases h
  · rw [hreplayed, hnotFound] at h
    cases h

/-- At the end of another partition a participant that is in the log is created again.  An
error or a notification is taken for the end as well. -/
theorem created_again :
    ((∃ loaded ∈ (coldBlue (.endOf 1)).loaded,
      Creates (createOn redisParticipantStateRepo Faults.none loaded (sampleParticipant "blue"))
        (sampleParticipant "blue")) ∧
      ¬ (coldBlue (.endOf 1)).NeverMistaken) ∧
    ¬ (coldBlue .error).NeverMistaken ∧ ¬ (coldBlue .log).NeverMistaken :=
  ⟨coldBlue_mistaken (by decide +kernel) (by decide +kernel),
    (coldBlue_mistaken (by decide +kernel) (by decide +kernel)).2,
    (coldBlue_mistaken (by decide +kernel) (by decide +kernel)).2⟩

end ParticpantsAgg

end Participants
end PocArchitecture
