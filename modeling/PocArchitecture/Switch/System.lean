/-
The transfers and the participants services, joined by their messages.

Both aggregates run over their Redis repositories.  Two event handlers turn events of one
side into commands of the other; the participants' event handler looks the addressed
participant up first, through a map of its own in front of the participants' Redis keys,
and throws when it does not know it.  `react` is what the consumer of a message does
with it: what becomes of the stores, and what is published.
-/
import PocArchitecture.Participants.Repos
import PocArchitecture.Participants.WorldInvariant
import PocArchitecture.Transfers.History

namespace PocArchitecture
namespace Switch

open PublicMessages Infrastructure
open Participants (ParticipantState BigNumber)
open Transfers (Crypto PrepareTransferCmdPayload FulfilTransferCmdPayload)

/-- Everything that travels between the services, by kind. -/
inductive DomainMessage where
  | transferPrepareRequestedEvt (payload : PrepareTransferCmdPayload)
  | transferFulfilRequestedEvt (payload : FulfilTransferCmdPayload)
  | transferCmd (cmd : Transfers.Command)
  | transferEvt (evt : Transfers.Message)
  | participantCmd (cmd : Participants.Command)
  | participantEvt (evt : Participants.Message)
  deriving DecidableEq

/-- What comes in from the outside. -/
inductive Input where
  | prepareRequest (payload : PrepareTransferCmdPayload)
  | fulfilRequest (payload : FulfilTransferCmdPayload)
  | createParticipant (participant : ParticipantState)
  deriving DecidableEq

def Input.message : Input → DomainMessage
  | prepareRequest payload => .transferPrepareRequestedEvt payload
  | fulfilRequest payload => .transferFulfilRequestedEvt payload
  | createParticipant participant => .participantCmd (.createParticipantCmd participant)

/-- What the services keep between two messages. -/
structure Stores where
  transfers : Transfers.World
  participants : Participants.World
  /-- the map of the event handler's repository -/
  inMemorylist : KeyValue String ParticipantState

def Stores.start (partitioner : String → Nat) : Stores :=
  { transfers := Transfers.World.start, participants := Participants.ParticpantsAgg.start partitioner,
    inMemorylist := ∅ }

/-- How the calls made for one message end; `command` is the publish of an event handler. -/
structure Faults where
  transfers : Transfers.Faults
  participants : Participants.Faults
  command : Bool
  deriving DecidableEq

def Faults.none : Faults :=
  { transfers := Transfers.Faults.none, participants := Participants.Faults.none, command := true }

/-! ## Event handlers -/

/-- The command `transferEvtHandler` makes of an event. -/
def transferEvtHandler : DomainMessage → Option Transfers.Command
  | .participantEvt (.payerFundsReservedEvt payload) =>
    some (.ackPayerFundsReservedCmd
      { transferId := payload.transferId, payerEndPoints := payload.payerEndPoints,
        payeeEndPoints := payload.payeeEndPoints })
  | .participantEvt (.payeeFundsCommittedEvt payload) =>
    some (.ackPayeeFundsCommittedCmd
      { transferId := payload.transferId, payerEndPoints := payload.payerEndPoints,
        payeeEndPoints := payload.payeeEndPoints })
  | .transferPrepareRequestedEvt payload => some (.prepareTransferCmd payload)
  | .transferFulfilRequestedEvt payload => some (.fulfilTransferCmd payload)
  | _ => none

/-- The command `participantEvtHandler` makes of an event. -/
def participantEvtHandler : Transfers.Message → Option Participants.Command
  | .transferPrepareAcceptedEvt payload => some (.reservePayerFundsCmd payload)
  | .transferFulfilAcceptedEvt payload => some (.commitPayeeFundsCmd payload)
  | _ => none

/-- The lookup of the participant a command is for, in the event handler's repository. -/
def lookUp (stores : Stores) (id : String) : Stores × Option ParticipantState :=
  let loaded := Participants.cachedRedisParticipantStateRepo.load
    { inMemory := stores.inMemorylist, redis := stores.participants.repo.redis } id
  ({ stores with inMemorylist := loaded.1.inMemory }, loaded.2)

section React

variable (B : BigNumber) (C : Crypto) (f : Faults)

def reactToTransferEvt (stores : Stores) (evt : Transfers.Message) : Stores × List DomainMessage :=
  match participantEvtHandler evt with
  | none => (stores, [])
  | some cmd =>
    let found := lookUp stores cmd.rootId
    -- an unknown participant makes the handler throw before it publishes
    (found.1, if found.2.isSome && f.command then [.participantCmd cmd] else [])

/-- The effect of one message on the stores, and the messages published for it. -/
def react (stores : Stores) : DomainMessage → Stores × List DomainMessage
  | .transferCmd cmd =>
    let settled := Transfers.TransfersAgg.processCommand Transfers.redisTransferStateRepo C
      f.transfers stores.transfers cmd
    ({ stores with transfers := settled.repo }, settled.published.map .transferEvt)
  | .participantCmd cmd =>
    let settled := Participants.ParticpantsAgg.processCommand
      Participants.redisParticipantStateRepo B f.participants stores.participants cmd
    ({ stores with participants := settled.repo }, settled.published.map .participantEvt)
  | .transferEvt evt => reactToTransferEvt f stores evt
  | msg =>
    (stores,
      match transferEvtHandler msg with
      | some cmd => if f.command then [.transferCmd cmd] else []
      | none => [])

end React

/-! ## What a reaction leaves alone -/

section Frame

variable {B : BigNumber} {C : Crypto} {f : Faults} {stores : Stores}

@[simp] theorem reactToTransferEvt_transfers (evt : Transfers.Message) :
    (reactToTransferEvt f stores evt).1.transfers = stores.transfers := by
  unfold reactToTransferEvt
  split <;> rfl

@[simp] theorem reactToTransferEvt_participants (evt : Transfers.Message) :
    (reactToTransferEvt f stores evt).1.participants = stores.participants := by
  unfold reactToTransferEvt
  split <;> rfl

theorem mem_reactToTransferEvt {evt : Transfers.Message} {m : DomainMessage}
    (h : m ∈ (reactToTransferEvt f stores evt).2) :
    ∃ cmd, participantEvtHandler evt = some cmd ∧ m = .participantCmd cmd := by
  unfold reactToTransferEvt at h
  split at h
  · cases h
  · rename_i cmd hcmd
    dsimp only at h
    split at h
    · exact ⟨cmd, hcmd, List.mem_singleton.mp h⟩
    · cases h

theorem length_reactToTransferEvt_le (evt : Transfers.Message) :
    (reactToTransferEvt f stores evt).2.length ≤ 1 := by
  unfold reactToTransferEvt
  split
  · exact Nat.zero_le 1
  · dsimp only
    split
    · exact le_refl 1
    · exact Nat.zero_le 1

/-- Who publishes what, and for which message. -/
inductive Publishes (B : BigNumber) (C : Crypto) (f : Faults) (stores : Stores) :
    DomainMessage → DomainMessage → Prop where
  | transferEvt (cmd : Transfers.Command) (evt : Transfers.Message)
      (h : evt ∈ (Transfers.TransfersAgg.processCommand Transfers.redisTransferStateRepo C
        f.transfers stores.transfers cmd).published) :
    Publishes B C f stores (.transferCmd cmd) (.transferEvt evt)
  | participantEvt (cmd : Participants.Command) (evt : Participants.Message)
      (h : evt ∈ (Participants.ParticpantsAgg.processCommand
        Participants.redisParticipantStateRepo B f.participants stores.participants cmd).published) :
    Publishes B C f stores (.participantCmd cmd) (.participantEvt evt)
  | participantCmd (evt : Transfers.Message) (cmd : Participants.Command)
      (h : participantEvtHandler evt = some cmd) :
    Publishes B C f stores (.transferEvt evt) (.participantCmd cmd)
  | transferCmd (msg : DomainMessage) (cmd : Transfers.Command)
      (h : transferEvtHandler msg = some cmd) : Publishes B C f stores msg (.transferCmd cmd)

theorem publishes_of_mem {msg m : DomainMessage} (h : m ∈ (react B C f stores msg).2) :
    Publishes B C f stores msg m := by
  cases msg with
  | transferCmd cmd =>
    obtain ⟨evt, hevt, rfl⟩ := List.mem_map.mp h
    exact .transferEvt cmd evt hevt
  | participantCmd cmd =>
    obtain ⟨evt, hevt, rfl⟩ := List.mem_map.mp h
    exact .participantEvt cmd evt hevt
  | transferEvt evt =>
    obtain ⟨cmd, hcmd, rfl⟩ := mem_reactToTransferEvt h
    exact .participantCmd evt cmd hcmd
  | _ =>
    rw [react] at h
    · dsimp only at h
      split at h
      · split at h
        · obtain rfl := List.mem_singleton.mp h
          exact .transferCmd _ _ ‹_›
        · cases h
      · cases h
    all_goals exact fun _ he => by cases he

/-- No service creates a participant of its own accord. -/
theorem react_creates_nobody {msg : DomainMessage} {participant : ParticipantState} :
    .participantCmd (.createParticipantCmd participant) ∉ (react B C f stores msg).2 := by
  intro h
  cases publishes_of_mem h with
  | participantCmd evt cmd hcmd => cases evt <;> cases hcmd

/-- Only a transfer command changes the transfers. -/
theorem react_transfers {msg : DomainMessage} (h : ∀ cmd, msg ≠ .transferCmd cmd) :
    (react B C f stores msg).1.transfers = stores.transfers := by
  cases msg with
  | transferCmd cmd => exact absurd rfl (h cmd)
  | transferEvt evt => exact reactToTransferEvt_transfers evt
  | _ => rfl

/-- Only a participant command changes the participants. -/
theorem react_participants {msg : DomainMessage} (h : ∀ cmd, msg ≠ .participantCmd cmd) :
    (react B C f stores msg).1.participants = stores.participants := by
  cases msg with
  | participantCmd cmd => exact absurd rfl (h cmd)
  | transferEvt evt => exact reactToTransferEvt_participants evt
  | _ => rfl

/-- Both sides stay well kept, whatever fails. -/
structure WellKept (stores : Stores) : Prop where
  transfers : Transfers.TransfersAgg.WellKept Transfers.redisTransferStateRepo stores.transfers
  participants :
    Participants.ParticpantsAgg.WellKept Participants.redisParticipantStateRepo stores.participants

theorem wellKept_start (partitioner : String → Nat) : WellKept (Stores.start partitioner) where
  transfers := Transfers.TransfersAgg.wellKept_start Transfers.redis_lawful
  participants := Participants.ParticpantsAgg.wellKept_start Participants.redis_lawful
    partitioner

theorem WellKept.react (h : WellKept stores) (B : BigNumber) (C : Crypto) (f : Faults)
    (msg : DomainMessage) : WellKept (Switch.react B C f stores msg).1 where
  transfers := by
    cases msg with
    | transferCmd cmd =>
      exact h.transfers.processCommand Transfers.redis_lawful C _ cmd
    | _ =>
      rw [react_transfers fun _ hm => by cases hm]
      exact h.transfers
  participants := by
    cases msg with
    | participantCmd cmd => exact h.participants.processCommand Participants.redis_lawful B _ cmd
    | _ =>
      rw [react_participants fun _ hm => by cases hm]
      exact h.participants

end Frame

end Switch
end PocArchitecture
