/-
`TransfersAgg`: the four command handlers.

A prepare is guarded by the duplicate set alone; the other three load the transfer and
look at its internal state.  An invalid fulfilment is reported and the handler returns
false, so the base class stores nothing; what the entity has become by then shows only in
a repository that hands out its object.
-/
import PocArchitecture.Domain.BaseAggregate
import PocArchitecture.Infrastructure.StateRepo
import PocArchitecture.Transfers.Messages
import Mathlib.Data.Finset.Insert

namespace PocArchitecture
namespace Transfers

open PublicMessages Infrastructure
open Domain (PublishOutcome Settled)
open Domain.BaseAggregate

/-- The state repository and the set of `RedisDuplicateRepo`. -/
structure World where
  repo : RepoState TransferState
  duplicates : Finset String

def World.start : World := { repo := RepoState.empty, duplicates := ∅ }

abbrev Handled := Domain.BaseAggregate.Handled Message TransferState World

/-- The calls of the base class, and the `SADD` of the duplicate set. -/
structure Faults extends Domain.Faults where
  add : Bool
  deriving DecidableEq

def Faults.none : Faults := { toFaults := Domain.Faults.none, add := true }

namespace TransfersAgg

/-- `RedisDuplicateRepo.add`: the set afterwards, and whether the id was new. -/
def addDuplicate (duplicates : Finset String) (id : String) : Finset String × Bool :=
  (insert id duplicates, decide (id ∉ duplicates))

def prepareTransferData (payload : PrepareTransferCmdPayload) : PrepareTransferData :=
  { id := payload.transferId, amount := payload.amount, currency := payload.currency,
    payerId := payload.payerId, payeeId := payload.payeeId, expiration := payload.expiration,
    condition := payload.condition, prepare := .copy payload.prepare }

def fulfilTransferData (payload : FulfilTransferCmdPayload) : FulfilTransferData :=
  { id := payload.transferId, payerId := payload.payerId, payeeId := payload.payeeId,
    fulfilment := payload.fulfilment, completedTimestamp := payload.completedTimestamp,
    transferState := payload.transferState, fulfil := .copy payload.fulfil }

/-! ## Decisions -/

/-- What a handler makes of a loaded transfer: the events, what the entity has become,
and whether the handler returns true. -/
structure Decision where
  root : TransferState
  events : List Message
  success : Bool

/-- The answer to a command that comes in another state than the one it needs. -/
def invalidState (transferId : String) (s : TransferState) (needed : TransferInternalStates) :
    Decision :=
  { root := s
    events := [.invalidTransferEvt transferId
      s!"transfer in invalid state of {s.transferInternalState.text} while should be {needed.text}"]
    success := false }

def decideAckPayerFundsReserved (payload : AckPayload) (s : TransferState) : Decision :=
  if s.transferInternalState ≠ .receivedPrepare then
    invalidState payload.transferId s .receivedPrepare
  else
    let s := s.acknowledgeTransferReserved
    { root := s
      events :=
        [.transferPreparedEvt
            { terms := s.terms, payerEndPoints := payload.payerEndPoints,
              payeeEndPoints := payload.payeeEndPoints, prepare := s.prepare },
          .transferStateChangedStateEvt s.id s.transferInternalState]
      success := true }

def decideFulfil (C : Crypto) (payload : FulfilTransferCmdPayload) (s : TransferState) : Decision :=
  if s.transferInternalState ≠ .reserved then invalidState payload.transferId s .reserved
  else
    match s.fulfilTransfer C (fulfilTransferData payload) with
    | (s, some e) =>
      { root := s, events := [.invalidTransferEvt payload.transferId e.text], success := false }
    | (s, none) =>
      { root := s
        events :=
          [.transferFulfilAcceptedEvt s.terms,
            .transferFulfiledStateEvt
            { id := s.id, transferInternalState := s.transferInternalState,
              completedTimestamp := s.completedTimestamp, fulfil := s.fulfil,
              fulfilment := s.fulfilment }]
        success := true }

def decideAckPayeeFundsCommitted (payload : AckPayload) (s : TransferState) : Decision :=
  if s.transferInternalState ≠ .receivedFulfil then
    invalidState payload.transferId s .receivedFulfil
  else
    let s := s.commitTransfer
    { root := s
      events :=
        [.transferFulfilledEvt
            { terms := s.terms, payerEndPoints := payload.payerEndPoints,
              payeeEndPoints := payload.payeeEndPoints, fulfil := s.fulfil },
          .transferStateChangedStateEvt s.id s.transferInternalState]
      success := true }

/-! ## Command handlers -/

section Handlers

variable (R : StateRepo TransferState) (C : Crypto) (f : Faults)

/-- Load the transfer and decide on it. -/
def onTransfer (w : World) (transferId : String) (decide : TransferState → Decision) : Handled :=
  match R.load w.repo transferId with
  | (repo, none) =>
    { repo := { w with repo := repo }, root := none, events := [.transferNotFoundEvt transferId],
      result := some false }
  | (repo, some s) =>
    let d := decide s
    { repo := { w with repo := R.write repo transferId d.root }, root := some d.root,
      events := d.events, result := some d.success }

def processPrepareTransferCommand (w : World) (payload : PrepareTransferCmdPayload) : Handled :=
  if f.add then
    let added := addDuplicate w.duplicates payload.transferId
    let w := { w with duplicates := added.1 }
    if added.2 then
      let s := TransferState.prepareTransfer (prepareTransferData payload)
      { repo := w, root := some s,
        events := [.transferPrepareAcceptedEvt s.terms, .transferPreparedStateEvt s],
        result := some true }
    else
      { repo := w, root := none, events := [.duplicateTransferDetectedEvt payload.transferId],
        result := some false }
  else { repo := w, root := none, events := [], result := none }

def processAckPayerFundsReservedCommand (w : World) (payload : AckPayload) : Handled :=
  onTransfer R w payload.transferId (decideAckPayerFundsReserved payload)

def processFulfilTransferCommand (w : World) (payload : FulfilTransferCmdPayload) : Handled :=
  onTransfer R w payload.transferId (decideFulfil C payload)

def processAckPayeeFundsCommittedCommand (w : World) (payload : AckPayload) : Handled :=
  onTransfer R w payload.transferId (decideAckPayeeFundsCommitted payload)

def handle (w : World) : Command → Handled
  | .prepareTransferCmd payload => processPrepareTransferCommand f w payload
  | .ackPayerFundsReservedCmd payload => processAckPayerFundsReservedCommand R w payload
  | .fulfilTransferCmd payload => processFulfilTransferCommand R C w payload
  | .ackPayeeFundsCommittedCmd payload => processAckPayeeFundsCommittedCommand R w payload

/-- `store` on the root entity. -/
def store (ok : Bool) (w : World) (s : TransferState) : World × Bool :=
  let stored := R.store ok w.repo s
  ({ w with repo := stored.1 }, stored.2)

/-- `TransfersAgg.processCommand`. -/
def processCommand (w : World) (cmd : Command) : Settled Message World :=
  finish (store R f.store) f.toFaults (handle R C f w cmd)

end Handlers

end TransfersAgg

end Transfers
end PocArchitecture
