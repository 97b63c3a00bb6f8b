/-
Which partition the participants' commands go to.

The event handler sends the reserves and commits of a participant to the partition stored
with it; the snapshot operator leaves its commands to the partitioner.  The commands of a
participant share one partition, and are handled in the order of their publication,
exactly when the stored partition is the partitioner's own choice or there is none.
-/
import PocArchitecture.Infrastructure.Producer
import PocArchitecture.Infrastructure.Restart
import PocArchitecture.Participants.SnapshotOperator
import PocArchitecture.Switch.EventHandlers

namespace PocArchitecture
namespace Switch

open PublicMessages Infrastructure
open Domain (PublishOutcome)
open Participants (ParticipantState ParticipantSnapshotOperator OperatorMessage OperatorFaults)

/-- The participants, fixed for a run: what Redis holds of them, and the ids of those whose
unset partition is a missing field and not a null. -/
structure ParticipantStore where
  redis : KeyValue String ParticipantState
  missing : String → Bool

/-- `participant.partition` -/
def ParticipantStore.partitionOf (store : ParticipantStore) (participant : ParticipantState) :
    MsgPartition :=
  match participant.partition with
  | some partition => .number partition
  | none => if store.missing participant.id then .undefined else .null

/-- The two publishers, and the commands topic. -/
structure Publishers where
  inMemorylist : KeyValue String ParticipantState
  operator : ParticipantSnapshotOperator
  commands : List (TopicRecord Participants.Command)

def Publishers.start : Publishers :=
  { inMemorylist := ∅, operator := { snapshotStates := [], stored := none }, commands := [] }

inductive PublisherLabel where
  | event (answers : Bool) (publish : PublishOutcome) (evt : Transfers.Message)
  | operatorStart (participantIds : List String)
  | operatorMessage (now : Int) (f : OperatorFaults) (publish : PublishOutcome)
      (message : OperatorMessage)

section

variable (partitioner : String → Nat) (store : ParticipantStore)

/-- `participantEvtHandler`, with the partition it sets on the command. -/
def handleEvent (p : Publishers) (answers : Bool) (publish : PublishOutcome)
    (evt : Transfers.Message) : Publishers :=
  match participantEvtHandler evt with
  | none => p
  | some cmd =>
    let found := loadParticipant store.redis answers p.inMemorylist cmd.rootId
    match found.2 with
    | none => { p with inMemorylist := found.1 }
    | some participant =>
      { p with
        inMemorylist := found.1
        commands := send partitioner publish p.commands
          [{ message := cmd, msgKey := cmd.rootId, msgPartition := store.partitionOf participant }] }

/-- A new `SnapshotParticipantStateCmd`. -/
def snapshotCmd (participantId : String) : OutgoingMessage Participants.Command :=
  { message := .snapshotParticipantStateCmd participantId, msgKey := participantId,
    msgPartition := .null }

def publisherStep (p : Publishers) : PublisherLabel → Publishers
  | .event answers publish evt => handleEvent partitioner store p answers publish evt
  | .operatorStart participantIds => { p with operator := p.operator.start participantIds }
  | .operatorMessage now f publish message =>
    let handled := p.operator.messageHandler now f message
    { p with
      operator := handled.1
      commands := send partitioner publish p.commands (handled.2.map snapshotCmd) }

/-- The commands topic after a run. -/
def commandsTopic (ls : List PublisherLabel) : List (TopicRecord Participants.Command) :=
  (Machine.run (publisherStep partitioner store) Publishers.start ls).commands

/-- No stored participant has a partition other than the one its id is hashed to. -/
def PartitionsAgree : Prop :=
  ∀ id s, store.redis.get (Participants.keyWithPrefix id) = some s →
    s.partition = none ∨ s.partition = some (partitioner id)

end

/-- Any two commands for one participant are on one partition. -/
def ShareOnePartition (topic : List (TopicRecord Participants.Command)) : Prop :=
  ∀ r ∈ topic, ∀ r' ∈ topic, r.message.rootId = r'.message.rootId → r.partition = r'.partition

/-- The reader of one partition gets all commands for a participant, in the order in which
they were published. -/
def HandledInOrder (topic : List (TopicRecord Participants.Command)) : Prop :=
  ∀ id, ∃ partition,
    (partitionLog topic partition).filter (·.message.rootId = id) =
      topic.filter (·.message.rootId = id)

theorem ShareOnePartition.handledInOrder {topic : List (TopicRecord Participants.Command)}
    (h : ShareOnePartition topic) : HandledInOrder topic := by
  intro id
  by_cases hany : ∃ r ∈ topic, r.message.rootId = id
  · obtain ⟨r, hr, hid⟩ := hany
    refine ⟨r.partition, ?_⟩
    rw [partitionLog, List.filter_filter]
    refine List.filter_congr fun r' hr' => ?_
    by_cases hid' : r'.message.rootId = id
    · rw [decide_eq_true hid', Bool.true_and]
      exact decide_eq_true (h r' hr' r hr (hid'.trans hid.symm))
    · rw [decide_eq_false hid', Bool.false_and]
  · have hnone : topic.filter (·.message.rootId = id) = [] := by
      rw [List.filter_eq_nil_iff]
      exact fun r hr hid => hany ⟨r, hr, of_decide_eq_true hid⟩
    refine ⟨0, ?_⟩
    rw [hnone, partitionLog, List.filter_filter, List.filter_eq_nil_iff]
    intro r hr hid
    rw [Bool.and_eq_true] at hid
    exact hany ⟨r, hr, of_decide_eq_true hid.1⟩

section

variable {partitioner : String → Nat} {store : ParticipantStore}

/-- The handler's map holds nothing but what Redis holds. -/
theorem loadParticipant_inStep (answers : Bool) (id : String)
    {inMemorylist : KeyValue String ParticipantState}
    (h : ({ inMemory := inMemorylist, redis := store.redis } : RepoState ParticipantState).InStep) :
    ({ inMemory := (loadParticipant store.redis answers inMemorylist id).1, redis := store.redis } :
        RepoState ParticipantState).InStep ∧
      ∀ s, (loadParticipant store.redis answers inMemorylist id).2 = some s →
        store.redis.get (Participants.keyWithPrefix id) = some s := by
  rw [loadParticipant]
  dsimp only
  split
  · constructor
    · rcases @StateRepo.cachedRepo_load _ Participants.keyWithPrefix
        (StateRepo.storeThroughIfNew Participants.keyWithPrefix ParticipantState.id)
        { inMemory := inMemorylist, redis := store.redis } id with hl | ⟨s, -, hredis, hl⟩
      · rw [Participants.cachedRedisParticipantStateRepo, hl]
        exact h
      · rw [Participants.cachedRedisParticipantStateRepo, hl]
        intro key s' hs
        change (inMemorylist.set (Participants.keyWithPrefix id) s).get key = some s' at hs
        by_cases hkey : key = Participants.keyWithPrefix id
        · subst hkey
          rw [KeyValue.get_set_self] at hs
          rw [← hs]
          exact hredis
        · rw [KeyValue.get_set_ne _ _ hkey] at hs
          exact h key s' hs
    · intro s hs
      change Participants.cachedRedisParticipantStateRepo.view _ id = some s at hs
      rw [Participants.cachedRedisParticipantStateRepo, StateRepo.cachedRepo_view] at hs
      cases hm : inMemorylist.get (Participants.keyWithPrefix id) with
      | none =>
        rw [hm, Option.none_or] at hs
        exact hs
      | some s' =>
        rw [hm, Option.some_or] at hs
        rw [← hs]
        exact h _ s' hm
  · exact ⟨h, fun s hs => (by cases hs)⟩

/-- Every command is where the partitioner puts its key. -/
structure Hashed (partitioner : String → Nat) (store : ParticipantStore) (p : Publishers) : Prop where
  inStep : ({ inMemory := p.inMemorylist, redis := store.redis } : RepoState ParticipantState).InStep
  partition : ∀ r ∈ p.commands, r.partition = partitioner r.message.rootId

theorem hashed_start : Hashed partitioner store Publishers.start where
  inStep := StateRepo.inStep_of_inMemory_empty rfl
  partition r hr := by cases hr

theorem Hashed.step (hagree : PartitionsAgree partitioner store) {p : Publishers}
    (h : Hashed partitioner store p) (l : PublisherLabel) :
    Hashed partitioner store (publisherStep partitioner store p l) := by
  cases l with
  | event answers publish evt =>
    rw [publisherStep, handleEvent]
    cases participantEvtHandler evt with
    | none => exact h
    | some cmd =>
      obtain ⟨hin, hfound⟩ := loadParticipant_inStep answers cmd.rootId h.inStep
      dsimp only
      split
      · exact { inStep := hin, partition := h.partition }
      · rename_i participant hp
        refine { inStep := hin, partition := fun r hr => ?_ }
        rcases mem_send hr with hr | ⟨msg, hmsg, rfl⟩
        · exact h.partition r hr
        · obtain rfl := List.mem_singleton.mp hmsg
          rw [produce_partition, ParticipantStore.partitionOf]
          rcases hagree cmd.rootId participant (hfound participant hp) with hnone | hsome
          · rw [hnone]
            dsimp only
            split <;> rfl
          · rw [hsome]
            rfl
  | operatorStart participantIds => exact { inStep := h.inStep, partition := h.partition }
  | operatorMessage now f publish message =>
    refine { inStep := h.inStep, partition := fun r hr => ?_ }
    rcases mem_send hr with hr | ⟨msg, hmsg, rfl⟩
    · exact h.partition r hr
    · obtain ⟨id, -, rfl⟩ := List.mem_map.mp hmsg
      rfl

/-- A reserve for a participant, and a snapshot of it. -/
def reserveAndSnapshot (id : String) : List PublisherLabel :=
  [.event true .ok (.transferPrepareAcceptedEvt
      { transferId := "t1", amount := "10", currency := "USD", payerId := id, payeeId := id }),
    .operatorMessage 0 { load := true, store := true } .ok
      { msgTopic := .stateEvents, aggregateId := some id },
    .operatorMessage 3600000 { load := true, store := true } .ok
      { msgTopic := .snapshotOperatorCommands, aggregateId := some "FixedSnapshotOperatorExecuteCmdKey" }]

/-- An operator that has heard of the participant asks for its first snapshot. -/
theorem execute_heard (id : String) :
    let heard := (Publishers.start.operator.messageHandler 0 { load := true, store := true }
      { msgTopic := .stateEvents, aggregateId := some id }).1
    (heard.messageHandler 3600000 { load := true, store := true }
      { msgTopic := .snapshotOperatorCommands
        aggregateId := some "FixedSnapshotOperatorExecuteCmdKey" }).2 = [id] := by
  intro heard
  have hloaded : heard.loadState.snapshotStates = [ParticipantSnapshotOperator.newState id] := by
    show ParticipantSnapshotOperator.set [ParticipantSnapshotOperator.newState id]
      (ParticipantSnapshotOperator.newState id) = _
    rw [ParticipantSnapshotOperator.set, if_pos rfl]
  have hdue : ParticipantSnapshotOperator.isDue 3600000 (ParticipantSnapshotOperator.newState id) =
      true := by
    show decide ((10000 : Int) ≤ 0 ∨ (3600000 : Int) - 0 ≥ 60 * 60 * 1000) = true
    decide
  show ParticipantSnapshotOperator.execute 3600000 heard.loadState = [id]
  rw [ParticipantSnapshotOperator.execute, hloaded, List.filter_cons_of_pos hdue, List.filter_nil]
  rfl

variable (partitioner) in
theorem commandsTopic_reserveAndSnapshot {id : String} {s : ParticipantState}
    (hs : store.redis.get (Participants.keyWithPrefix id) = some s) :
    ∃ reserve snapshot, commandsTopic partitioner store (reserveAndSnapshot id) = [reserve, snapshot] ∧
      reserve.message.rootId = id ∧ snapshot.message.rootId = id ∧
      reserve.partition = place partitioner id (store.partitionOf s) ∧
      snapshot.partition = partitioner id := by
  have hfound : (loadParticipant store.redis true ∅ id).2 = some s := by
    rw [loadParticipant, Bool.or_true, if_pos rfl]
    show Participants.cachedRedisParticipantStateRepo.view _ id = some s
    rw [Participants.cachedRedisParticipantStateRepo, StateRepo.cachedRepo_view, KeyValue.get_empty,
      Option.none_or]
    exact hs
  let terms : TransferTerms :=
    { transferId := "t1", amount := "10", currency := "USD", payerId := id, payeeId := id }
  let reserve : OutgoingMessage Participants.Command :=
    { message := .reservePayerFundsCmd terms, msgKey := id, msgPartition := store.partitionOf s }
  have hevent : handleEvent partitioner store Publishers.start true .ok
      (.transferPrepareAcceptedEvt terms) =
        { Publishers.start with
          inMemorylist := (loadParticipant store.redis true ∅ id).1
          commands := [produce partitioner reserve] } := by
    rw [handleEvent, participantEvtHandler]
    show (match (loadParticipant store.redis true ∅ id).2 with
      | none => _
      | some participant => _) = _
    rw [hfound]
    rfl
  refine ⟨produce partitioner reserve, produce partitioner (snapshotCmd id), ?_, rfl, rfl,
    produce_partition _, produce_partition _⟩
  rw [commandsTopic, reserveAndSnapshot, Machine.run, List.foldl_cons, List.foldl_cons,
    List.foldl_cons, List.foldl_nil, publisherStep, hevent]
  exact congrArg (fun ids => send partitioner .ok
    (send partitioner .ok [produce partitioner reserve] []) (ids.map snapshotCmd)) (execute_heard id)

end

/-- In every run the commands of each participant share one partition, and are handled in
the order of their publication, exactly when no participant is stored with a partition
other than the partitioner's. -/
theorem one_partition_iff (partitioner : String → Nat) (store : ParticipantStore) :
    (∀ ls, ShareOnePartition (commandsTopic partitioner store ls) ∧
        HandledInOrder (commandsTopic partitioner store ls)) ↔
      PartitionsAgree partitioner store := by
  constructor
  · intro h id s hs
    obtain ⟨reserve, snapshot, htopic, hreserve, hsnapshot, hstored, hhashed⟩ :=
      commandsTopic_reserveAndSnapshot partitioner hs
    have hshare := (h (reserveAndSnapshot id)).1
    rw [htopic] at hshare
    have hsame : reserve.partition = snapshot.partition :=
      hshare reserve List.mem_cons_self snapshot
        (List.mem_cons_of_mem _ (List.mem_singleton_self _)) (hreserve.trans hsnapshot.symm)
    rw [hstored, hhashed, ParticipantStore.partitionOf] at hsame
    cases hpartition : s.partition with
    | none => exact Or.inl rfl
    | some partition =>
      rw [hpartition] at hsame
      exact Or.inr (congrArg some hsame)
  · intro hagree ls
    have hhashed : Hashed partitioner store
        (Machine.run (publisherStep partitioner store) Publishers.start ls) :=
      Machine.run_always (fun _ l hp => hp.step hagree l) hashed_start ls
    have hshare : ShareOnePartition (commandsTopic partitioner store ls) := by
      intro r hr r' hr' hid
      rw [hhashed.partition r hr, hhashed.partition r' hr', hid]
    exact ⟨hshare, hshare.handledInOrder⟩

/-- A participant stored with partition 5 and hashed to partition 0: its reserve goes to the
one, its snapshot to the other. -/
theorem snapshot_on_other_partition :
    let store : ParticipantStore :=
      { redis := (∅ : KeyValue String ParticipantState).set (Participants.keyWithPrefix "blue")
          { Participants.ParticpantsAgg.sampleParticipant "blue" with partition := some 5 }
        missing := fun _ => false }
    (commandsTopic (fun _ => 0) store (reserveAndSnapshot "blue")).map
        (fun r => (r.message.rootId, r.message.msgName, r.partition)) =
      [("blue", "ReservePayerFundsCmd", 5), ("blue", "SnapshotParticipantStateCmd", 0)] ∧
    ¬ ∀ ls, ShareOnePartition (commandsTopic (fun _ => 0) store ls) := by
  intro store
  refine ⟨by decide +kernel, fun h => ?_⟩
  have hshare := h (reserveAndSnapshot "blue")
  rw [ShareOnePartition] at hshare
  exact absurd hshare (by decide +kernel)

end Switch
end PocArchitecture
