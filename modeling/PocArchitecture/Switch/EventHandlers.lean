/-
The two event handlers behind their consumers.

Each handler makes one command of an event and publishes it; whatever goes wrong on the
way ends in its own `catch`, so the consumer finds the message handled and commits it.
An event gets lost exactly when its command could not be published, or when the
participant it is for could not be asked for.
-/
import PocArchitecture.Infrastructure.Consumer
import PocArchitecture.Switch.System

namespace PocArchitecture
namespace Switch

open PublicMessages Infrastructure
open Domain (PublishOutcome)
open Participants (ParticipantState)

def DomainMessage.msgName : DomainMessage → String
  | transferPrepareRequestedEvt _ => "TransferPrepareRequestedEvt"
  | transferFulfilRequestedEvt _ => "TransferFulfilRequestedEvt"
  | transferCmd cmd => cmd.msgName
  | transferEvt evt => evt.msgName
  | participantCmd cmd => cmd.msgName
  | participantEvt evt => evt.msgName

/-- The classes `TransferEvtHandler` and `ParticipantEvtHandler`. -/
inductive EvtHandler where
  | transfer
  | participant
  deriving DecidableEq

/-- `load` of the participants' event handler: the map, then Redis, which may hold some
participants and may not answer.  A load that rejects and one that finds nobody both end in
the handler's `catch`. -/
def loadParticipant (redis : KeyValue String ParticipantState) (answers : Bool)
    (inMemorylist : KeyValue String ParticipantState) (id : String) :
    KeyValue String ParticipantState × Option ParticipantState :=
  let repo : RepoState ParticipantState := { inMemory := inMemorylist, redis := redis }
  if Participants.cachedRedisParticipantStateRepo.answersLocally repo id || answers then
    let loaded := Participants.cachedRedisParticipantStateRepo.load repo id
    (loaded.1.inMemory, loaded.2)
  else (inMemorylist, none)

/-- A message on the topic, and how the calls made while it is handled end: what Redis
holds of the participants by then and whether it answers, and the publish. -/
structure Arrival where
  message : KafkaMessage DomainMessage
  redis : KeyValue String ParticipantState
  answers : Bool
  publish : PublishOutcome

/-- The participant is in the handler's map. -/
def held (inMemorylist : KeyValue String ParticipantState) (id : String) : Bool :=
  (inMemorylist.get (Participants.keyWithPrefix id)).isSome

/-- The handler's repository has the participant. -/
def Arrival.knows (a : Arrival) (inMemorylist : KeyValue String ParticipantState) (id : String) :
    Bool :=
  held inMemorylist id || (a.redis.get (Participants.keyWithPrefix id)).isSome

namespace EvtHandler

def subscribedMsgNames : EvtHandler → List String
  | transfer =>
    ["PayerFundsReservedEvt", "PayeeFundsCommittedEvt", "TransferPrepareRequestedEvt",
      "TransferFulfilRequestedEvt"]
  | participant => ["TransferPrepareAcceptedEvt", "TransferFulfilAcceptedEvt"]

/-- The command of an event, and the participant to be looked up for it. -/
def derive : EvtHandler → DomainMessage → Option (DomainMessage × Option String)
  | transfer, msg => (transferEvtHandler msg).map fun cmd => (.transferCmd cmd, none)
  | participant, .transferEvt evt =>
    (participantEvtHandler evt).map fun cmd => (.participantCmd cmd, some cmd.rootId)
  | participant, _ => none

/-- The handler's promise always resolves. -/
def handle (handler : EvtHandler) (a : Arrival) (inMemorylist : KeyValue String ParticipantState)
    (msg : DomainMessage) : KeyValue String ParticipantState × List DomainMessage :=
  match handler.derive msg with
  | none => (inMemorylist, [])
  | some (cmd, none) => (inMemorylist, a.publish.delivered [cmd])
  | some (cmd, some id) =>
    let found := loadParticipant a.redis a.answers inMemorylist id
    (found.1, if found.2.isSome then a.publish.delivered [cmd] else [])

/-- The command that is due for a subscribed, well-formed event of a known participant. -/
def due (handler : EvtHandler) (a : Arrival) (inMemorylist : KeyValue String ParticipantState) :
    Option DomainMessage :=
  match a.message.value with
  | some (some msg) =>
    match handler.derive msg with
    | some (cmd, id) =>
      if (a.message.msgName = none ∨ a.message.msgName = some msg.msgName) ∧
          id.all (a.knows inMemorylist) then some cmd
      else none
    | none => none
  | _ => none

/-- The participant looked up for the event. -/
def lookedUp (handler : EvtHandler) (a : Arrival) : Option String :=
  (a.message.value.join.bind handler.derive).bind (·.2)

/-- If a command is due, its publish delivers it, and a participant that is not in the map
can be asked for. -/
def Unhindered (handler : EvtHandler) (a : Arrival)
    (inMemorylist : KeyValue String ParticipantState) : Prop :=
  (handler.due a inMemorylist).isSome = true →
    a.publish.deliversAt 0 = true ∧
      ∀ id ∈ handler.lookedUp a, held inMemorylist id = true ∨ a.answers = true

end EvtHandler

/-- One message after the other has been through the consumer. -/
structure Consumption where
  inMemorylist : KeyValue String ParticipantState
  /-- for every message so far, the command due for it and what was made of it -/
  entries : List (Option DomainMessage × Consumed DomainMessage)

def Consumption.start : Consumption := { inMemorylist := ∅, entries := [] }

def Consumption.next (handler : EvtHandler) (mode : RdKafkaCommitMode) (c : Consumption)
    (a : Arrival) : Consumption :=
  let consumed := consume handler.subscribedMsgNames (some mode) (handler.handle a) c.inMemorylist
    a.message
  { inMemorylist := consumed.1
    entries := c.entries ++ [(handler.due a c.inMemorylist, consumed.2)] }

/-- The command of every committed event has been published. -/
def Consumption.NoEventSkipped (c : Consumption) : Prop :=
  ∀ e ∈ c.entries, e.2.committed = true → ∀ cmd ∈ e.1, cmd ∈ e.2.published

instance (c : Consumption) : Decidable c.NoEventSkipped := by
  unfold Consumption.NoEventSkipped
  infer_instance

section

variable {handler : EvtHandler} {a : Arrival} {inMemorylist : KeyValue String ParticipantState}
  {mode : RdKafkaCommitMode}

/-- Every event a handler makes a command of is subscribed. -/
theorem derive_subscribed {msg : DomainMessage} {out : DomainMessage × Option String}
    (h : handler.derive msg = some out) : msg.msgName ∈ handler.subscribedMsgNames := by
  cases handler with
  | transfer =>
    cases msg with
    | transferPrepareRequestedEvt payload =>
      simp [DomainMessage.msgName, EvtHandler.subscribedMsgNames]
    | transferFulfilRequestedEvt payload =>
      simp [DomainMessage.msgName, EvtHandler.subscribedMsgNames]
    | participantEvt evt =>
      cases evt <;> first
        | (cases h; done)
        | simp [DomainMessage.msgName, Participants.Message.msgName, EvtHandler.subscribedMsgNames]
    | _ => cases h
  | participant =>
    cases msg with
    | transferEvt evt =>
      cases evt <;> first
        | (cases h; done)
        | simp [DomainMessage.msgName, Transfers.Message.msgName, EvtHandler.subscribedMsgNames]
    | _ => cases h

/-- Where a due command comes from. -/
theorem due_eq_some {cmd : DomainMessage} (h : handler.due a inMemorylist = some cmd) :
    ∃ msg id, a.message.value = some (some msg) ∧ handler.derive msg = some (cmd, id) ∧
      handler.lookedUp a = id ∧ (∀ i ∈ id, a.knows inMemorylist i = true) ∧
      a.message.isIgnored handler.subscribedMsgNames = false := by
  unfold EvtHandler.due at h
  split at h
  · rename_i msg hvalue
    split at h
    · rename_i cmd' id hderive
      split at h
      · rename_i hfine
        obtain rfl := Option.some.inj h
        refine ⟨msg, id, hvalue, hderive, ?_, ?_, ?_⟩
        · rw [EvtHandler.lookedUp, hvalue, Option.join_some, Option.bind_some, hderive,
            Option.bind_some]
        · intro i hi
          rw [show id = some i from hi] at hfine
          exact hfine.2
        · exact isIgnored_of_contains (derive_subscribed hderive) hfine.1
      · cases h
    · cases h
  · cases h

theorem load_isSome (id : String) :
    (loadParticipant a.redis a.answers inMemorylist id).2.isSome = true ↔
      a.knows inMemorylist id = true ∧ (held inMemorylist id = true ∨ a.answers = true) := by
  have hview : (Participants.cachedRedisParticipantStateRepo.load
      { inMemory := inMemorylist, redis := a.redis } id).2.isSome = a.knows inMemorylist id := by
    show (Participants.cachedRedisParticipantStateRepo.view _ id).isSome = _
    rw [Participants.cachedRedisParticipantStateRepo, StateRepo.cachedRepo_view, Option.isSome_or]
    rfl
  have hlocal : Participants.cachedRedisParticipantStateRepo.answersLocally
      { inMemory := inMemorylist, redis := a.redis } id = held inMemorylist id := rfl
  rw [loadParticipant, hlocal, ← Bool.or_eq_true]
  dsimp only
  split
  · rename_i hasked
    rw [hview, and_iff_left hasked]
  · rename_i hasked
    exact iff_of_false Bool.false_ne_true fun h => hasked h.2

theorem mem_delivered_one {o : PublishOutcome} {cmd : DomainMessage} :
    cmd ∈ o.delivered [cmd] ↔ o.deliversAt 0 = true := by
  rw [PublishOutcome.mem_delivered_iff]
  constructor
  · rintro ⟨i, hi, ho⟩
    match i, hi with
    | 0, _ => exact ho
  · exact fun h => ⟨0, rfl, h⟩

/-- The command is published when the publish delivers it and the participant is found. -/
theorem mem_handle {msg cmd : DomainMessage} {id : Option String}
    (h : handler.derive msg = some (cmd, id)) (hknown : ∀ i ∈ id, a.knows inMemorylist i = true) :
    cmd ∈ (handler.handle a inMemorylist msg).2 ↔
      a.publish.deliversAt 0 = true ∧
        ∀ i ∈ id, held inMemorylist i = true ∨ a.answers = true := by
  rw [EvtHandler.handle, h]
  cases id with
  | none =>
    rw [mem_delivered_one]
    exact (and_iff_left fun i hi => (by cases hi)).symm
  | some i =>
    have hasked : (∀ j ∈ some i, held inMemorylist j = true ∨ a.answers = true) ↔
        (loadParticipant a.redis a.answers inMemorylist i).2.isSome = true := by
      rw [load_isSome, and_iff_right (hknown i rfl)]
      exact ⟨fun h => h i rfl, fun h j hj => Option.some.inj hj ▸ h⟩
    rw [hasked]
    dsimp only
    split
    · rename_i hfound
      rw [mem_delivered_one, and_iff_left hfound]
    · rename_i hfound
      exact iff_of_false List.not_mem_nil fun h => hfound h.2

variable (mode) in
/-- One message: the due command is out by the commit exactly when nothing hindered it. -/
theorem consumed_iff :
    ((consume handler.subscribedMsgNames (some mode) (handler.handle a) inMemorylist
          a.message).2.committed = true →
        ∀ cmd ∈ handler.due a inMemorylist,
          cmd ∈ (consume handler.subscribedMsgNames (some mode) (handler.handle a) inMemorylist
            a.message).2.published) ↔
      handler.Unhindered a inMemorylist := by
  rw [EvtHandler.Unhindered]
  cases hdue : handler.due a inMemorylist with
  | none => exact iff_of_true (fun _ cmd hcmd => (by cases hcmd)) fun h => (by cases h)
  | some cmd =>
    obtain ⟨msg, id, hvalue, hderive, hlooked, hknown, hignored⟩ := due_eq_some hdue
    -- an event with a due command is handled, and committed afterwards
    rw [consume_handled hvalue hignored, hlooked, ← mem_handle hderive hknown]
    exact ⟨fun h _ => h rfl cmd rfl, fun h _ cmd' hcmd' => Option.some.inj hcmd' ▸ h rfl⟩

/-- What the two handlers do in the composed system, where Redis answers. -/
theorem handle_eq_react {B : Participants.BigNumber} {C : Transfers.Crypto} {f : Faults}
    {stores : Stores} {msg : DomainMessage} (h : (handler.derive msg).isSome = true)
    (hredis : a.redis = stores.participants.repo.redis) (hanswers : a.answers = true)
    (hpublish : a.publish = if f.command then .ok else .failed []) :
    handler.handle a stores.inMemorylist msg =
      ((react B C f stores msg).1.inMemorylist, (react B C f stores msg).2) := by
  have hdelivered : ∀ cmd : DomainMessage,
      a.publish.delivered [cmd] = if f.command then [cmd] else [] := by
    intro cmd
    rw [hpublish]
    cases f.command <;> rfl
  have hload : ∀ id, loadParticipant a.redis a.answers stores.inMemorylist id =
      ((lookUp stores id).1.inMemorylist, (lookUp stores id).2) := by
    intro id
    rw [loadParticipant, hanswers, Bool.or_true, if_pos rfl, hredis]
    rfl
  cases handler with
  | transfer =>
    cases msg with
    | transferPrepareRequestedEvt payload => exact congrArg _ (hdelivered _)
    | transferFulfilRequestedEvt payload => exact congrArg _ (hdelivered _)
    | participantEvt evt => cases evt <;> first | (cases h; done) | exact congrArg _ (hdelivered _)
    | _ => cases h
  | participant =>
    cases msg with
    | transferEvt evt =>
      rw [react, reactToTransferEvt, EvtHandler.handle, EvtHandler.derive]
      cases hevt : participantEvtHandler evt with
      | none =>
        rw [EvtHandler.derive, hevt] at h
        cases h
      | some cmd =>
        rw [Option.map_some]
        dsimp only
        rw [hload, hdelivered]
        cases (lookUp stores cmd.rootId).2.isSome <;> cases f.command <;> rfl
    | _ => cases h

theorem noEventSkipped_run (as : List Arrival) (c : Consumption) :
    (Machine.run (Consumption.next handler mode) c as).NoEventSkipped ↔
      c.NoEventSkipped ∧ Machine.Along (Consumption.next handler mode)
        (fun c a => handler.Unhindered a c.inMemorylist) c as := by
  induction as generalizing c with
  | nil => exact (and_iff_left trivial).symm
  | cons a as ih =>
    have hnext : (c.next handler mode a).NoEventSkipped ↔
        c.NoEventSkipped ∧ handler.Unhindered a c.inMemorylist := by
      rw [← consumed_iff mode]
      constructor
      · intro h
        exact ⟨fun e he => h e (List.mem_append_left _ he),
          h _ (List.mem_append_right _ (List.mem_singleton_self _))⟩
      · rintro ⟨hbefore, hnow⟩ e he
        rcases List.mem_append.mp he with he | he
        · exact hbefore e he
        · rw [List.mem_singleton.mp he]
          exact hnow
    rw [Machine.Along, ← and_assoc, ← hnext]
    exact ih _

end

/-- Over any sequence of messages and failures, the command of every committed event has
been published exactly when nothing hindered an event that called for one. -/
theorem no_event_skipped_iff (handler : EvtHandler) (mode : RdKafkaCommitMode)
    (as : List Arrival) :
    (Machine.run (Consumption.next handler mode) Consumption.start as).NoEventSkipped ↔
      Machine.Along (Consumption.next handler mode)
        (fun c a => handler.Unhindered a c.inMemorylist) Consumption.start as := by
  rw [noEventSkipped_run, and_iff_right]
  intro e he
  cases he

/-- The reservation of a transfer is announced, the acknowledging command cannot be
published, and the event is committed. -/
theorem failed_publish_skips_event :
    let reserved : DomainMessage := .participantEvt (.payerFundsReservedEvt
      { transferId := "t1", payerId := "blue", currency := "USD", currentPosition := "10"
        payerEndPoints := [], payeeEndPoints := [] })
    let c := Machine.run (Consumption.next .transfer .commitMsgSync) Consumption.start
      [{ message := { msgName := some reserved.msgName, value := some (some reserved) }
         redis := ∅, answers := true, publish := .failed [] }]
    c.entries =
      [(some (.transferCmd (.ackPayerFundsReservedCmd
          { transferId := "t1", payerEndPoints := [], payeeEndPoints := [] })),
        { published := [], committed := true })] ∧
    ¬ c.NoEventSkipped := by
  decide +kernel

end Switch
end PocArchitecture
