/-
`TransferCmdHandler`: a command as the consumer's handler sees it, a promise.

`script` is the aggregate's four handlers between their awaited calls, and `settles` what
the configured stores make of the callbacks of Redis.  `promise_outcome` says that
this is the aggregate of the other modules with the reasons of its rejections kept.  The
handler's own `catch` reads the message of the reason, which null does not have.
-/
import PocArchitecture.Domain.CmdHandler
import PocArchitecture.Domain.CommandPromise
import PocArchitecture.Transfers.DuplicateStore
import PocArchitecture.Transfers.Repos
import PocArchitecture.Transfers.Verdict

namespace PocArchitecture
namespace Transfers

open Infrastructure
open Domain (Script Services Ended Calls Reporting)

/-! ## The stores -/

/-- `load` of the configured repository.  `held` is what its map has under the id. -/
def RepoInfraTypes.load (kind : RepoInfraTypes) (held : Option TransferState)
    (call : GetCall TransferState) : Promise (Option TransferState) :=
  match kind with
  | inMemory | nodeCache => .ok held
  | redis => redisLoad call
  | cachedRedis | cachedPersistedRedis => cachedLoad held call

/-- `store` of the configured repository. -/
def RepoInfraTypes.store (kind : RepoInfraTypes) (call : SetCall) : Promise Unit :=
  match kind with
  | inMemory => .ok ()
  | nodeCache =>
    match call.thrown with
    | some message => .error (.error message)
    | none => .ok ()
  | cachedRedis => if call.ready ≠ true then notReady else .ok ()
  | redis | cachedPersistedRedis => redisStore id call

/-- `add` of the configured duplicate store. -/
def RedisDuplicateInfraTypes.add (kind : RedisDuplicateInfraTypes) (call : AddCall) :
    Promise Bool :=
  match kind with
  | memory => .ok true
  | redis | redisSharded | other _ => redisAdd call

/-- The stores of a handler and the callbacks of one command. -/
structure Stores where
  entityState : RepoInfraTypes
  duplicates : RedisDuplicateInfraTypes
  held : Nat → Option TransferState
  get : Nat → GetCall TransferState
  add : Nat → AddCall
  set : SetCall

def Stores.services (stores : Stores) : Services TransferState Empty where
  add i := stores.duplicates.add (stores.add i)
  load i := stores.entityState.load (stores.held i) (stores.get i)
  offsets _ := .error (.error "transfers have no event store")

theorem Stores.services_neverNull (stores : Stores) : stores.services.NeverNull := by
  intro i
  refine ⟨?_, ?_, not_isNull_error _⟩
  · show ¬ (stores.duplicates.add (stores.add i)).IsNull
    cases stores.duplicates with
    | memory => exact not_isNull_ok true
    | _ => exact redisAdd_not_isNull _
  · show ¬ (stores.entityState.load (stores.held i) (stores.get i)).IsNull
    cases stores.entityState with
    | inMemory | nodeCache => exact not_isNull_ok _
    | redis => exact redisLoad_not_isNull _
    | cachedRedis | cachedPersistedRedis => exact cachedLoad_not_isNull _ _

/-- The two repositories that hand Redis' argument on. -/
theorem RepoInfraTypes.store_isNull_iff (kind : RepoInfraTypes) (call : SetCall) :
    (kind.store call).IsNull ↔
      (kind = .redis ∨ kind = .cachedPersistedRedis) ∧ call.Unanswered := by
  cases kind with
  | inMemory => simp [RepoInfraTypes.store]
  | nodeCache => cases h : call.thrown <;> simp [RepoInfraTypes.store, h]
  | cachedRedis => cases h : call.ready <;> simp [RepoInfraTypes.store, notReady, h]
  | redis => simp [RepoInfraTypes.store, redisStore_isNull_iff]
  | cachedPersistedRedis => simp [RepoInfraTypes.store, redisStore_isNull_iff]

/-! ## The handlers -/

abbrev TransferScript := Script TransferState Empty (Ended Message TransferState Bool)

namespace TransfersAgg

def Decision.ended (d : Decision) : Ended Message TransferState Bool :=
  { events := d.events, root := some d.root, result := .ok d.success }

/-- Load the transfer and decide on it. -/
def transferScript (transferId : String) (decide : TransferState → Decision) : TransferScript :=
  .load transferId fun
    | none => .ends
      { events := [.transferNotFoundEvt transferId], root := none, result := .ok false }
    | some s => .ends (decide s).ended

def prepareScript (payload : PrepareTransferCmdPayload) : TransferScript :=
  .add payload.transferId fun isNotDuplicate =>
    if isNotDuplicate then
      let s := TransferState.prepareTransfer (prepareTransferData payload)
      .ends
        { events := [.transferPrepareAcceptedEvt s.terms, .transferPreparedStateEvt s]
          root := some s, result := .ok true }
    else
      .ends
        { events := [.duplicateTransferDetectedEvt payload.transferId], root := none
          result := .ok false }

def script (C : Crypto) : Command → TransferScript
  | .prepareTransferCmd payload => prepareScript payload
  | .ackPayerFundsReservedCmd payload =>
    transferScript payload.transferId (decideAckPayerFundsReserved payload)
  | .fulfilTransferCmd payload => transferScript payload.transferId (decideFulfil C payload)
  | .ackPayeeFundsCommittedCmd payload =>
    transferScript payload.transferId (decideAckPayeeFundsCommitted payload)

section

variable {R : StateRepo TransferState} {C : Crypto} {f : Faults} {w : World}

theorem transferScript_outcome {V : Services TransferState Empty} {calls : Calls}
    (hcalls : calls.Matches f.toFaults) {transferId : String} (decide : TransferState → Decision)
    (hload : V.load 0 = .ok (R.load w.repo transferId).2)
    (hstore : ∀ s, (onTransfer R w transferId decide).root = some s →
      (calls.store = .ok () ↔ (store R f.store (onTransfer R w transferId decide).repo s).2 = true))
    (msgName : String) :
    (Domain.BaseAggregate.settle msgName calls ((transferScript transferId decide).run V 0)).toOption =
      (Domain.BaseAggregate.finish (store R f.store) f.toFaults
        (onTransfer R w transferId decide)).outcome := by
  rw [transferScript, Script.run, hload]
  cases hloaded : R.load w.repo transferId with
  | mk repo found =>
    cases found with
    | none =>
      refine Domain.BaseAggregate.settle_outcome hcalls hstore ?_ ?_ ?_ msgName <;>
        simp [onTransfer, hloaded, Except.toOption]
    | some s =>
      refine Domain.BaseAggregate.settle_outcome hcalls hstore ?_ ?_ ?_ msgName <;>
        simp [onTransfer, hloaded, Except.toOption, Decision.ended]

theorem prepareScript_outcome {V : Services TransferState Empty} {calls : Calls}
    (hcalls : calls.Matches f.toFaults) {payload : PrepareTransferCmdPayload} {err : Reason}
    (hadd : V.add 0 =
      if f.add then .ok (addDuplicate w.duplicates payload.transferId).2 else .error err)
    (hstore : ∀ s, (processPrepareTransferCommand f w payload).root = some s →
      (calls.store = .ok () ↔
        (store R f.store (processPrepareTransferCommand f w payload).repo s).2 = true))
    (msgName : String) :
    (Domain.BaseAggregate.settle msgName calls ((prepareScript payload).run V 0)).toOption =
      (Domain.BaseAggregate.finish (store R f.store) f.toFaults
        (processPrepareTransferCommand f w payload)).outcome := by
  rw [prepareScript, Script.run, hadd]
  cases hf : f.add with
  | false =>
    rw [if_neg Bool.false_ne_true, processPrepareTransferCommand, hf, if_neg Bool.false_ne_true]
    rfl
  | true =>
    rw [if_pos rfl]
    cases hnew : (addDuplicate w.duplicates payload.transferId).2 with
    | true =>
      refine Domain.BaseAggregate.settle_outcome hcalls hstore ?_ ?_ ?_ msgName <;>
        simp [processPrepareTransferCommand, hf, hnew, Except.toOption]
    | false =>
      refine Domain.BaseAggregate.settle_outcome hcalls hstore ?_ ?_ ?_ msgName <;>
        simp [processPrepareTransferCommand, hf, hnew, Except.toOption]

/-- `processCommand` of the aggregate is the promise without its reasons. -/
theorem promise_outcome {cmd : Command} {V : Services TransferState Empty} {calls : Calls}
    {err : Reason}
    (hadd : V.add 0 = if f.add then .ok (addDuplicate w.duplicates cmd.transferId).2 else .error err)
    (hload : V.load 0 = .ok (R.load w.repo cmd.transferId).2) (hcalls : calls.Matches f.toFaults)
    (hstore : ∀ s, (handle R C f w cmd).root = some s →
      (calls.store = .ok () ↔ (store R f.store (handle R C f w cmd).repo s).2 = true)) :
    (Domain.BaseAggregate.settle cmd.msgName calls ((script C cmd).run V 0)).toOption =
      (processCommand R C f w cmd).outcome := by
  cases cmd with
  | prepareTransferCmd payload => exact prepareScript_outcome hcalls hadd hstore _
  | ackPayerFundsReservedCmd payload => exact transferScript_outcome hcalls _ hload hstore _
  | fulfilTransferCmd payload => exact transferScript_outcome hcalls _ hload hstore _
  | ackPayeeFundsCommittedCmd payload => exact transferScript_outcome hcalls _ hload hstore _

end

end TransfersAgg

/-! ## The consumer's handler -/

namespace TransferCmdHandler

open Domain.CmdHandler

/-- A message from the consumer and all that answers it.  `command` is the handler that the
payload, of whatever shape, makes of a message with the name of a command. -/
structure Delivery where
  message : Json
  command : Except String TransferScript
  stores : Stores
  deliveries₁ : Deliveries
  deliveries₂ : Deliveries

def names : List String :=
  ["PrepareTransferCmd", "AckPayerFundsReservedCmd", "AckPayeeFundsCommittedCmd",
    "FulfilTransferCmd"]

def Delivery.calls (d : Delivery) : Calls :=
  { deliveries₁ := d.deliveries₁, deliveries₂ := d.deliveries₂
    store := d.stores.entityState.store d.stores.set }

/-- `this._transfersAgg.processCommand(transferCmd)` -/
def Delivery.processed (d : Delivery) : Except String (Promise Bool) :=
  d.command.map fun script =>
    Domain.BaseAggregate.settle (msgName d.message) d.calls (script.run d.stores.services 0)

def cmdHandler (reporting : Reporting) (d : Delivery) : Promise Unit :=
  match attempt reporting names (.ok ()) d.message d.processed with
  | .ok () => .ok ()
  | .error err =>
    match err.message with
    | none => .error nullError
    | some _ => histTimer reporting d.message

/-- The command is accepted and published, its transfer goes to a repository that hands on
Redis' argument, and Redis gives neither an error nor its `OK`. -/
def Delivery.StoreUnanswered (d : Delivery) : Prop :=
  Named names d.message ∧
    (∃ script, d.command = .ok script ∧
      Domain.ReachesStore id (fun _ => []) d.deliveries₁ (script.run d.stores.services 0)) ∧
    (d.stores.entityState = .redis ∨ d.stores.entityState = .cachedPersistedRedis) ∧
    d.stores.set.Unanswered

theorem processed_isNull_iff {d : Delivery} :
    (∃ processed, d.processed = .ok processed ∧ processed.IsNull) ↔
      (∃ script, d.command = .ok script ∧
        Domain.ReachesStore id (fun _ => []) d.deliveries₁ (script.run d.stores.services 0)) ∧
      (d.stores.entityState = .redis ∨ d.stores.entityState = .cachedPersistedRedis) ∧
      d.stores.set.Unanswered := by
  rw [Delivery.processed, ← RepoInfraTypes.store_isNull_iff]
  exact Domain.map_settleWith_isNull_iff fun script =>
    script.run_not_isNull d.stores.services_neverNull 0

/-- The handler resolves when the histogram takes the name and the reason of the command,
if it comes to one, is not null. -/
theorem cmdHandler_resolves_iff (reporting : Reporting) (d : Delivery) :
    cmdHandler reporting d = .ok () ↔
      reporting.takesLabel (evtname d.message) = true ∧
        ¬ ((reporting.isInfoEnabled = true → idsHaveText d.message = true) ∧
          d.StoreUnanswered) := by
  rw [Delivery.StoreUnanswered, ← processed_isNull_iff, ← attempt_isNull_iff (not_isNull_ok ()),
    cmdHandler]
  cases h : attempt reporting names (.ok ()) d.message d.processed with
  | ok u => simp [(attempt_ok h).2]
  | error err =>
    cases err with
    | null => simp [Reason.message]
    | error message =>
      show histTimer reporting d.message = .ok () ↔ _
      rw [histTimer_eq_ok_iff]
      simp

end TransferCmdHandler

end Transfers
end PocArchitecture
