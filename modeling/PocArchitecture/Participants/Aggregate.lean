/-
`ParticpantsAgg`: the four command handlers and the two state-event handlers.

Reserve and commit load the root entity, ask the cache for the counterpart, move the
position of the root entity in place, and leave the events.  Where the counterpart is
not answered locally, the refill scheduled by the load of the root runs while Redis is
asked, before the position moves; otherwise it runs when the events are published, after
the position has moved.
-/
import PocArchitecture.Domain.BaseAggregate
import PocArchitecture.Domain.EventSourcing
import PocArchitecture.Participants.Messages

namespace PocArchitecture
namespace Participants

open PublicMessages Infrastructure
open Domain (Loaded PublishOutcome Settled)
open Domain.BaseEventSourcingAggregate

abbrev World := Domain.World ParticipantStateEvt ParticipantState

abbrev Handled := Domain.BaseEventSourcingAggregate.Handled Message ParticipantState World

/-- How the calls around one command end: those of the base class, the deferred refill of
the cache, and the store of the offset cache. -/
structure Faults extends Domain.Faults where
  refill : Bool
  offsets : Bool
  deriving DecidableEq

def Faults.none : Faults := { toFaults := Domain.Faults.none, refill := true, offsets := true }

namespace ParticpantsAgg

/-! ## State-event handlers -/

def applyCreatedStateEvent (participant : ParticipantState) : Option ParticipantState :=
  some participant

/-- Every POSITION account of the currency is rewritten, and there has to be one. -/
def applyPositionChangedStateEvent (root : ParticipantState)
    (evt : ParticipantPositionChangedStateEvtPayload) : Option ParticipantState :=
  if root.accounts.any (isAccount .position evt.currency) then
    some { root with
      accounts := FirstMatch.updateEvery (isAccount .position evt.currency)
        (.withPosition evt.currentPosition) root.accounts }
  else none

/-- An entity with nothing but its id has no account list to go through. -/
def applyStateEvent : Option ParticipantState → ParticipantStateEvt → Option ParticipantState
  | _, .participantCreatedStateEvt participant => applyCreatedStateEvent participant
  | none, .participantPositionChangedStateEvt _ => none
  | some root, .participantPositionChangedStateEvt evt => applyPositionChangedStateEvent root evt

/-! ## Decisions -/

/-- What a handler makes of the loaded entities. -/
inductive Decision where
  | refuse (events : List Message)
  | accept (root : ParticipantState) (events : List Message) (stateEvent : Message)

def positionChanged (root : ParticipantState) (currency : CurrencyTypes) (position : String) :
    Message :=
  .stateEvt (.participantPositionChangedStateEvt
    { id := root.id, currency := currency, currentPosition := position,
      partition := root.partition })

/-- The `catch` of the reserve handler. -/
def refuseReserve (payload : ReservePayerFundsCmdPayload) : EntityError → Decision
  | .invalidAccount message | .invalidLimit message =>
    .refuse [.invalidParticipantEvt payload.payerId payload.transferId (some message)]
  | .netDebitCapLimitExceeded message =>
    .refuse [.netCapLimitExceededEvt payload.transferId payload.payerId message]

def decideReserve (B : BigNumber) (payload : ReservePayerFundsCmdPayload)
    (payer : ParticipantState) : Option ParticipantState → Decision
  | none => .refuse [.invalidParticipantEvt payload.payeeId payload.transferId none]
  | some payee =>
    if payee.hasAccount .position payload.currency then
      match payer.reserveFunds B payload.currency payload.amount with
      | .error e => refuseReserve payload e
      | .ok payer' =>
        match payer'.getCurrentPosition payload.currency with
        | .error e => refuseReserve payload e
        | .ok currentPosition =>
          .accept payer'
            [.payerFundsReservedEvt
              { transferId := payload.transferId, payerId := payload.payerId,
                currency := payload.currency, currentPosition := currentPosition,
                payerEndPoints := payer'.endpoints, payeeEndPoints := payee.endpoints }]
            (positionChanged payer' payload.currency currentPosition)
    else .refuse [.invalidParticipantEvt payload.payeeId payload.transferId none]

/-- The `catch` of the commit handler names the payer, as the reserve handler does. -/
def refuseCommit (payload : CommitPayeeFundsCmdPayload) : EntityError → Decision
  | .invalidAccount message | .invalidLimit message | .netDebitCapLimitExceeded message =>
    .refuse [.invalidParticipantEvt payload.payerId payload.transferId (some message)]

/-- A payer without the account is reported under the payee's id. -/
def decideCommit (B : BigNumber) (payload : CommitPayeeFundsCmdPayload)
    (payee : ParticipantState) : Option ParticipantState → Decision
  | none => .refuse [.invalidParticipantEvt payload.payerId payload.transferId none]
  | some payer =>
    if payer.hasAccount .position payload.currency then
      match payee.commitFunds B payload.currency payload.amount with
      | .error e => refuseCommit payload e
      | .ok payee' =>
        match payee'.getCurrentPosition payload.currency with
        | .error e => refuseCommit payload e
        | .ok currentPosition =>
          .accept payee'
            [.payeeFundsCommittedEvt
              { transferId := payload.transferId, payerId := payload.payerId,
                payeeId := payload.payeeId, currency := payload.currency,
                currentPosition := currentPosition, payerEndPoints := payer.endpoints,
                payeeEndPoints := payee'.endpoints }]
            (positionChanged payee' payload.currency currentPosition)
    else .refuse [.invalidParticipantEvt payload.payeeId payload.transferId none]

/-! ## Command handlers -/

section Handlers

variable (R : StateRepo ParticipantState) (B : BigNumber) (f : Faults)

/-- The end of a handler that found its root entity under `id`.  The refill that is still
due runs when the events are published, on what the root entity has become by then. -/
def conclude (id : String) (w : World) (due : Bool) (root : ParticipantState) :
    Decision → Handled
  | .refuse events =>
    { repo := refill R f.refill due w root, root := some root, events := events,
      result := some ⟨false, none⟩ }
  | .accept root' events stateEvent =>
    { repo := refill R f.refill due { w with repo := R.write w.repo id root' } root',
      root := some root', events := events, result := some ⟨true, some stateEvent⟩ }

/-- Ask the cache for the counterpart and decide. -/
def withCounterpart (id : String) (w : World) (due : Bool) (root : ParticipantState)
    (counterpartId : String) (decide : Option ParticipantState → Decision) : Handled :=
  let counterpart := R.load w.repo counterpartId
  let early := due && !R.answersLocally w.repo counterpartId
  conclude R f id (refill R f.refill early { w with repo := counterpart.1 } root) (due && !early)
    root (decide counterpart.2)

def processCreateParticipantCommand (w : World) (participant : CreateParticipantCmdPayload) :
    Handled :=
  let loaded := load R applyStateEvent f.offsets w participant.id
  match loaded.root with
  | .failed => { repo := loaded.world, root := none, events := [], result := none }
  | .found root =>
    conclude R f participant.id loaded.world loaded.refillDue root
      (.refuse [.duplicateParticipantDetectedEvt participant.id])
  | .notFound =>
    { repo := loaded.world, root := some participant,
      events := [.participantCreatedEvt participant.id participant.name],
      result := some ⟨true, some (.stateEvt (.participantCreatedStateEvt participant))⟩ }

def processReserveFundsCommand (w : World) (payload : ReservePayerFundsCmdPayload) : Handled :=
  let loaded := load R applyStateEvent f.offsets w payload.payerId
  match loaded.root with
  | .failed => { repo := loaded.world, root := none, events := [], result := none }
  | .notFound =>
    { repo := loaded.world, root := none,
      events := [.invalidParticipantEvt payload.payerId payload.transferId none],
      result := some ⟨false, none⟩ }
  | .found payer =>
    withCounterpart R f payload.payerId loaded.world loaded.refillDue payer payload.payeeId
      (decideReserve B payload payer)

def processCommitFundsCommand (w : World) (payload : CommitPayeeFundsCmdPayload) : Handled :=
  let loaded := load R applyStateEvent f.offsets w payload.payeeId
  match loaded.root with
  | .failed => { repo := loaded.world, root := none, events := [], result := none }
  | .notFound =>
    { repo := loaded.world, root := none,
      events := [.invalidParticipantEvt payload.payeeId payload.transferId none],
      result := some ⟨false, none⟩ }
  | .found payee =>
    if payee.hasAccount .position payload.currency then
      withCounterpart R f payload.payeeId loaded.world loaded.refillDue payee payload.payerId
        (decideCommit B payload payee)
    else
      conclude R f payload.payeeId loaded.world loaded.refillDue payee
        (.refuse [.invalidParticipantEvt payload.payeeId payload.transferId none])

def processParticipantStateSnapshotCommand (w : World) (participantId : String) : Handled :=
  let loaded := load R applyStateEvent f.offsets w participantId
  match loaded.root with
  | .failed | .notFound => { repo := loaded.world, root := none, events := [], result := none }
  | .found root =>
    { repo := refill R f.refill loaded.refillDue loaded.world root, root := some root,
      events := [], result := some ⟨true, some (.participantStateSnapshotEvt root)⟩ }

def handle (w : World) : Command → Handled
  | .createParticipantCmd participant => processCreateParticipantCommand R f w participant
  | .reservePayerFundsCmd payload => processReserveFundsCommand R B f w payload
  | .commitPayeeFundsCmd payload => processCommitFundsCommand R B f w payload
  | .snapshotParticipantStateCmd id => processParticipantStateSnapshotCommand R f w id

end Handlers

/-! ## Commands from end to end -/

/-- What a published message adds to the aggregate's topics. -/
def record (log : EventStore ParticipantStateEvt ParticipantState) :
    Message → EventStore ParticipantStateEvt ParticipantState
  | .stateEvt evt => log.produceStateEvent evt.msgPartition evt.msgKey evt
  | .participantStateSnapshotEvt state => log.produceSnapshot state.id state
  | _ => log

def recordAll (log : EventStore ParticipantStateEvt ParticipantState) (msgs : List Message) :
    EventStore ParticipantStateEvt ParticipantState :=
  msgs.foldl record log

/-- `ParticpantsAgg.store`. -/
def store (R : StateRepo ParticipantState) (ok : Bool) (w : World) (s : ParticipantState) :
    World × Bool :=
  let stored := R.store ok w.repo s
  ({ w with repo := stored.1 }, stored.2)

/-- `ParticpantsAgg.processCommand`, with the published state events and snapshots added
to the log. -/
def processCommand (R : StateRepo ParticipantState) (B : BigNumber) (f : Faults) (w : World)
    (cmd : Command) : Settled Message World :=
  let settled := finish (store R f.store) f.toFaults (handle R B f w cmd)
  { settled with repo := { settled.repo with log := recordAll settled.repo.log settled.published } }

end ParticpantsAgg

end Participants
end PocArchitecture
