/-
The commands `TransfersAgg` takes and the messages it publishes.
-/
import PocArchitecture.Transfers.Entity

namespace PocArchitecture
namespace Transfers

open PublicMessages

structure PrepareTransferCmdPayload where
  transferId : String
  amount : String
  currency : String
  payerId : String
  payeeId : String
  expiration : String
  condition : String
  prepare : Option TransferRawPayload
  deriving DecidableEq

/-- What a prepare asks to be moved. -/
def PrepareTransferCmdPayload.terms (payload : PrepareTransferCmdPayload) : TransferTerms :=
  { transferId := payload.transferId, amount := payload.amount, currency := payload.currency,
    payerId := payload.payerId, payeeId := payload.payeeId }

structure FulfilTransferCmdPayload where
  transferId : String
  payerId : String
  payeeId : String
  fulfilment : String
  completedTimestamp : String
  transferState : String
  fulfil : Option TransferRawPayload
  deriving DecidableEq

/-- What the two acknowledgements take over from the participants' events. -/
structure AckPayload where
  transferId : String
  payerEndPoints : List ParticipantEndpoint
  payeeEndPoints : List ParticipantEndpoint
  deriving DecidableEq

inductive Command where
  | prepareTransferCmd (payload : PrepareTransferCmdPayload)
  | ackPayerFundsReservedCmd (payload : AckPayload)
  | fulfilTransferCmd (payload : FulfilTransferCmdPayload)
  | ackPayeeFundsCommittedCmd (payload : AckPayload)
  deriving DecidableEq

def Command.msgName : Command → String
  | prepareTransferCmd _ => "PrepareTransferCmd"
  | ackPayerFundsReservedCmd _ => "AckPayerFundsReservedCmd"
  | fulfilTransferCmd _ => "FulfilTransferCmd"
  | ackPayeeFundsCommittedCmd _ => "AckPayeeFundsCommittedCmd"

def Command.transferId : Command → String
  | prepareTransferCmd payload => payload.transferId
  | ackPayerFundsReservedCmd payload => payload.transferId
  | fulfilTransferCmd payload => payload.transferId
  | ackPayeeFundsCommittedCmd payload => payload.transferId

structure TransferPreparedEvtPayload where
  terms : TransferTerms
  payerEndPoints : List ParticipantEndpoint
  payeeEndPoints : List ParticipantEndpoint
  prepare : TransferRawPayload
  deriving DecidableEq

structure TransferFulfilledEvtPayload where
  terms : TransferTerms
  payerEndPoints : List ParticipantEndpoint
  payeeEndPoints : List ParticipantEndpoint
  fulfil : Option TransferRawPayload
  deriving DecidableEq

structure TransferFulfiledStateEvtPayload where
  id : String
  transferInternalState : TransferInternalStates
  completedTimestamp : Option String
  fulfil : Option TransferRawPayload
  fulfilment : Option String
  deriving DecidableEq

inductive Message where
  | duplicateTransferDetectedEvt (id : String)
  | transferNotFoundEvt (id : String)
  | invalidTransferEvt (transferId : String) (reason : String)
  | transferPrepareAcceptedEvt (payload : TransferTerms)
  | transferPreparedEvt (payload : TransferPreparedEvtPayload)
  | transferFulfilAcceptedEvt (payload : TransferTerms)
  | transferFulfilledEvt (payload : TransferFulfilledEvtPayload)
  | transferPreparedStateEvt (transfer : TransferState)
  | transferStateChangedStateEvt (id : String) (transferInternalState : TransferInternalStates)
  | transferFulfiledStateEvt (transfer : TransferFulfiledStateEvtPayload)
  deriving DecidableEq

def Message.msgName : Message → String
  | duplicateTransferDetectedEvt _ => "DuplicateTransferDetectedEvt"
  | transferNotFoundEvt _ => "TransferNotFoundEvt"
  | invalidTransferEvt _ _ => "InvalidTransferEvt"
  | transferPrepareAcceptedEvt _ => "TransferPrepareAcceptedEvt"
  | transferPreparedEvt _ => "TransferPreparedEvt"
  | transferFulfilAcceptedEvt _ => "TransferFulfilAcceptedEvt"
  | transferFulfilledEvt _ => "TransferFulfilledEvt"
  | transferPreparedStateEvt _ => "TransferPreparedStateEvt"
  | transferStateChangedStateEvt _ _ => "TransferStateChangedStateEvt"
  | transferFulfiledStateEvt _ => "TransferFulfiledStateEvt"

/-- The messages of `TransfersTopics.StateEvents`, which record a change of the stored
transfer. -/
def Message.isStateEvent : Message → Bool
  | transferPreparedStateEvt _ | transferStateChangedStateEvt _ _ | transferFulfiledStateEvt _ =>
    true
  | _ => false

end Transfers
end PocArchitecture
