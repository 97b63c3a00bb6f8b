/-
The commands `ParticpantsAgg` takes and the messages it publishes.
-/
import PocArchitecture.Participants.Entity

namespace PocArchitecture
namespace Participants

open PublicMessages

/-- The participant of a create command has the fields of the state, and the handler
copies them one by one. -/
abbrev CreateParticipantCmdPayload := ParticipantState

abbrev ReservePayerFundsCmdPayload := TransferTerms

abbrev CommitPayeeFundsCmdPayload := TransferTerms

inductive Command where
  | createParticipantCmd (participant : CreateParticipantCmdPayload)
  | reservePayerFundsCmd (payload : ReservePayerFundsCmdPayload)
  | commitPayeeFundsCmd (payload : CommitPayeeFundsCmdPayload)
  | snapshotParticipantStateCmd (participantId : String)
  deriving DecidableEq

def Command.msgName : Command → String
  | createParticipantCmd _ => "CreateParticipantCmd"
  | reservePayerFundsCmd _ => "ReservePayerFundsCmd"
  | commitPayeeFundsCmd _ => "CommitPayeeFundsCmd"
  | snapshotParticipantStateCmd _ => "SnapshotParticipantStateCmd"

structure ParticipantPositionChangedStateEvtPayload where
  id : String
  currency : CurrencyTypes
  currentPosition : String
  partition : Option Nat
  deriving DecidableEq

inductive ParticipantStateEvt where
  | participantCreatedStateEvt (participant : ParticipantState)
  | participantPositionChangedStateEvt (participant : ParticipantPositionChangedStateEvtPayload)
  deriving DecidableEq

namespace ParticipantStateEvt

def msgKey : ParticipantStateEvt → String
  | participantCreatedStateEvt participant => participant.id
  | participantPositionChangedStateEvt participant => participant.id

def msgPartition : ParticipantStateEvt → Option Nat
  | participantCreatedStateEvt participant => participant.partition
  | participantPositionChangedStateEvt participant => participant.partition

end ParticipantStateEvt

inductive Message where
  | participantCreatedEvt (id name : String)
  | duplicateParticipantDetectedEvt (participantId : String)
  | invalidParticipantEvt (participantId transferId : String) (reason : Option String)
  | netCapLimitExceededEvt (transferId payerId reason : String)
  | payerFundsReservedEvt (payload : PayerFundsReservedEvtPayload)
  | payeeFundsCommittedEvt (payload : PayeeFundsCommittedEvtPayload)
  | stateEvt (evt : ParticipantStateEvt)
  | participantStateSnapshotEvt (state : ParticipantState)
  deriving DecidableEq

namespace Message

def msgName : Message → String
  | participantCreatedEvt _ _ => "ParticipantCreatedEvt"
  | duplicateParticipantDetectedEvt _ => "DuplicateParticipantDetectedEvt"
  | invalidParticipantEvt _ _ _ => "InvalidParticipantEvt"
  | netCapLimitExceededEvt _ _ _ => "NetCapLimitExceededEvt"
  | payerFundsReservedEvt _ => "PayerFundsReservedEvt"
  | payeeFundsCommittedEvt _ => "PayeeFundsCommittedEvt"
  | stateEvt (.participantCreatedStateEvt _) => "ParticipantCreatedStateEvt"
  | stateEvt (.participantPositionChangedStateEvt _) => "ParticipantPositionChangedStateEvt"
  | participantStateSnapshotEvt _ => "ParticipantStateSnapshotEvt"

/-- The announcement of a money movement: whose position moved, in which currency, and
where it went. -/
def movement : Message → Option (String × CurrencyTypes × String)
  | payerFundsReservedEvt p => some (p.payerId, p.currency, p.currentPosition)
  | payeeFundsCommittedEvt p => some (p.payeeId, p.currency, p.currentPosition)
  | _ => none

/-- The same for the record of a movement in the log. -/
def positionChange : Message → Option (String × CurrencyTypes × String)
  | stateEvt (.participantPositionChangedStateEvt p) => some (p.id, p.currency, p.currentPosition)
  | _ => none

/-- The events of a command that was refused. -/
def isRefusal : Message → Bool
  | duplicateParticipantDetectedEvt _ | invalidParticipantEvt _ _ _
  | netCapLimitExceededEvt _ _ _ => true
  | _ => false

theorem movement_of_isRefusal {m : Message} (h : m.isRefusal = true) : m.movement = none := by
  cases m <;> first | rfl | cases h

theorem positionChange_of_movement {m : Message} {mv : String × CurrencyTypes × String}
    (h : m.movement = some mv) : m.positionChange = none := by
  cases m <;> first | rfl | cases h

end Message

/-- What a money command asks for. -/
def Command.terms : Command → Option TransferTerms
  | reservePayerFundsCmd payload | commitPayeeFundsCmd payload => some payload
  | _ => none

end Participants
end PocArchitecture
