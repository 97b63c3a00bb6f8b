/-
`ParticipantSnapshotOperator`: when it asks for a snapshot.

The operator counts the state events of every participant it hears of.  Each run of
`_execute` asks for a snapshot of those that have used up their events, or whose last
snapshot is an hour old; the commands carry no partition.
-/
import Mathlib.Data.List.Basic
import PocArchitecture.Participants.Messages

namespace PocArchitecture
namespace Participants

structure ParticipantSnapshotState where
  participantId : String
  stateEventsToNextSnapshot : Int
  lastSnapshotTs : Int
  deriving DecidableEq

/-- `_snapshotStates`, a `Map` with its entries in the order of insertion, and what the
operator's own repository holds. -/
structure ParticipantSnapshotOperator where
  snapshotStates : List ParticipantSnapshotState
  stored : Option (List ParticipantSnapshotState)

/-- The topics the operator listens to. -/
inductive OperatorTopic where
  | stateEvents
  | snapshotEvents
  | snapshotOperatorCommands
  deriving DecidableEq

structure OperatorMessage where
  msgTopic : OperatorTopic
  aggregateId : Option String

/-- How the two calls of the operator's repository end. -/
structure OperatorFaults where
  load : Bool
  store : Bool

namespace ParticipantSnapshotOperator

def maxStateEventsUntilSnapshotsIssued : Int := 10000

def maxSecsBetweenSnapshotsIssued : Int := 60 * 60

/-- `new ParticipantSnapshotState(id, MAX_STATE_EVENTS_UNTIL_SNAPSHOTS_ISSUED)` -/
def newState (id : String) : ParticipantSnapshotState :=
  { participantId := id, stateEventsToNextSnapshot := maxStateEventsUntilSnapshotsIssued,
    lastSnapshotTs := 0 }

def get (states : List ParticipantSnapshotState) (id : String) : Option ParticipantSnapshotState :=
  states.find? (·.participantId = id)

/-- `Map.set`: in place, or at the end. -/
def set : List ParticipantSnapshotState → ParticipantSnapshotState → List ParticipantSnapshotState
  | [], state => [state]
  | first :: rest, state =>
    if first.participantId = state.participantId then state :: rest else first :: set rest state

def loadState (op : ParticipantSnapshotOperator) : ParticipantSnapshotOperator :=
  { op with snapshotStates := (op.stored.getD []).foldl set op.snapshotStates }

def updateState (ok : Bool) (op : ParticipantSnapshotOperator) : ParticipantSnapshotOperator :=
  if ok then { op with stored := some op.snapshotStates } else op

/-- `start`, with the ids that Redis lists. -/
def start (op : ParticipantSnapshotOperator) (participantIds : List String) :
    ParticipantSnapshotOperator :=
  let op := { op with snapshotStates := [] }.loadState
  { op with
    snapshotStates := participantIds.foldl
      (fun states id => if (get states id).isNone then set states (newState id) else states)
      op.snapshotStates }

def isDue (now : Int) (state : ParticipantSnapshotState) : Bool :=
  state.stateEventsToNextSnapshot ≤ 0 ∨
    now - state.lastSnapshotTs ≥ maxSecsBetweenSnapshotsIssued * 1000

/-- `_execute` after its load: the participants to be snapshotted. -/
def execute (now : Int) (op : ParticipantSnapshotOperator) : List String :=
  (op.snapshotStates.filter (isDue now)).map (·.participantId)

/-- `_messageHandler`: the operator afterwards, and the participants whose snapshot it asks
for. -/
def messageHandler (now : Int) (f : OperatorFaults) (op : ParticipantSnapshotOperator)
    (message : OperatorMessage) : ParticipantSnapshotOperator × List String :=
  match message.aggregateId with
  | none => (op, [])
  | some participantId =>
    match message.msgTopic, get op.snapshotStates participantId with
    | .snapshotOperatorCommands, _ =>
      -- a failed load throws into the `catch`
      if f.load then
        let op := op.loadState
        (op.updateState f.store, execute now op)
      else (op, [])
    | _, none =>
      ({ op with snapshotStates := set op.snapshotStates (newState participantId) }.updateState
        f.store, [])
    | .snapshotEvents, some state =>
      let state := { state with
        stateEventsToNextSnapshot := maxStateEventsUntilSnapshotsIssued, lastSnapshotTs := now }
      ({ op with snapshotStates := set op.snapshotStates state }.updateState f.store, [])
    | .stateEvents, some state =>
      let state := { state with
        stateEventsToNextSnapshot := state.stateEventsToNextSnapshot - 1 }
      ({ op with snapshotStates := set op.snapshotStates state }.updateState f.store, [])

end ParticipantSnapshotOperator

end Participants
end PocArchitecture
