/-
`ParticipantCmdHandler`: a command as the consumer's handler sees it, a promise.

The root entity comes from the cache or from the log, and then the handlers of the two
money commands ask the cache for the counterpart.  `script` is the four handlers between
these calls, and it ends as `verdict` says.  The handler's own `catch` logs the name, the
key and the id of the message before it reads the message of the reason.
-/
import PocArchitecture.Domain.CmdHandler
import PocArchitecture.Domain.CommandPromise
import PocArchitecture.Participants.CacheTransparency

namespace PocArchitecture
namespace Participants

open Infrastructure
open Domain (Script Services Ended Calls Loaded Reporting)
open Domain.BaseEventSourcingAggregate

/-! ## The stores -/

/-- `load` of the configured cache.  `held` is what its map has under the id. -/
def RepoInfraTypes.load (kind : RepoInfraTypes) (held : Option ParticipantState)
    (call : GetCall ParticipantState) : Promise (Option ParticipantState) :=
  match kind with
  | inMemory => .ok held
  | redis => redisLoad call
  | cachedRedis | cachedPersistedRedis => cachedLoad held call

/-- What the two caches in front of Redis say when the reply is not `OK`. -/
def unsuccessful (key : String) : Reason :=
  .error ("Unsuccessful attempt to store the entity state in redis - for key: " ++ key)

/-- `store` of the configured cache.  `has` is whether its map has the key already. -/
def RepoInfraTypes.store (kind : RepoInfraTypes) (key : String) (has : Bool) (call : SetCall) :
    Promise Unit :=
  match kind with
  | inMemory => .ok ()
  | redis => redisStore id call
  | cachedRedis =>
    if call.ready ≠ true then notReady
    else if has then .ok ()
    else
      match call.thrown with
      -- a state without a JSON text stays in the map alone
      | some _ => .ok ()
      | none => redisStore (fun _ => unsuccessful key) call
  | cachedPersistedRedis => redisStore (fun _ => unsuccessful key) call

/-- The cache of a handler, the offsets of its event store, and the callbacks of one
command. -/
structure Stores where
  stateCache : RepoInfraTypes
  held : Nat → Option ParticipantState
  get : Nat → GetCall ParticipantState
  offsets : Nat → GetCall TEventStoreMessageOffset
  key : String
  has : Bool
  set : SetCall

def Stores.services (stores : Stores) : Services ParticipantState TEventStoreMessageOffset where
  add _ := .error (.error "participants have no duplicate store")
  load i := stores.stateCache.load (stores.held i) (stores.get i)
  offsets i := redisLoad (stores.offsets i)

theorem Stores.services_neverNull (stores : Stores) : stores.services.NeverNull := by
  intro i
  refine ⟨not_isNull_error _, ?_, redisLoad_not_isNull _⟩
  show ¬ (stores.stateCache.load (stores.held i) (stores.get i)).IsNull
  cases stores.stateCache with
  | inMemory => exact not_isNull_ok _
  | redis => exact redisLoad_not_isNull _
  | cachedRedis | cachedPersistedRedis => exact cachedLoad_not_isNull _ _

/-- Only the repository without a map hands Redis' argument on. -/
theorem RepoInfraTypes.store_isNull_iff (kind : RepoInfraTypes) (key : String) (has : Bool)
    (call : SetCall) :
    (kind.store key has call).IsNull ↔ kind = .redis ∧ call.Unanswered := by
  cases kind with
  | inMemory => simp [RepoInfraTypes.store]
  | redis => simp [RepoInfraTypes.store, redisStore_isNull_iff]
  | cachedPersistedRedis => simp [RepoInfraTypes.store, redisStore_isNull_iff, unsuccessful]
  | cachedRedis =>
    refine iff_of_false ?_ fun h => RepoInfraTypes.noConfusion h.1
    rw [RepoInfraTypes.store]
    split
    · exact not_isNull_error _
    · split
      · exact not_isNull_ok ()
      · cases call.thrown with
        | some message => exact not_isNull_ok ()
        | none =>
          rw [redisStore_isNull_iff]
          rintro ⟨-, h⟩
          cases h

/-! ## The handlers -/

abbrev ParticipantEnded := Ended Message ParticipantState (TCommandResult Message)

abbrev ParticipantScript := Script ParticipantState TEventStoreMessageOffset ParticipantEnded

namespace ParticpantsAgg

def threw (message : String) : ParticipantEnded :=
  { events := [], root := none, result := .error message }

/-- `load`: `callable` is the cache's `canCall`, `replay` what the event store rebuilds
from the offset it was given, `thrown` the error of a replay that fails. -/
def loadScript (callable : Bool) (replay : Option TEventStoreMessageOffset → Loaded ParticipantState)
    (thrown : String) (id : String) (next : Option ParticipantState → ParticipantScript) :
    ParticipantScript :=
  let fromLog := .offsets id fun found =>
    match replay found with
    | .failed => .ends (threw thrown)
    | .notFound => next none
    | .found s => next (some s)
  if callable then
    .load id fun
      | some s => next (some s)
      | none => fromLog
  else fromLog

def Decision.ended (root : ParticipantState) : Decision → ParticipantEnded
  | .refuse events => { events := events, root := some root, result := .ok ⟨false, none⟩ }
  | .accept root' events stateEvent =>
    { events := events, root := some root', result := .ok ⟨true, some stateEvent⟩ }

section

variable (B : BigNumber) (callable : Bool)
  (replay : Option TEventStoreMessageOffset → Loaded ParticipantState) (thrown : String)

def script : Command → ParticipantScript
  | .createParticipantCmd participant =>
    loadScript callable replay thrown participant.id fun
      | some root => .ends
        ((Decision.refuse [.duplicateParticipantDetectedEvt participant.id]).ended root)
      | none => .ends
        { events := [.participantCreatedEvt participant.id participant.name]
          root := some participant
          result := .ok ⟨true, some (.stateEvt (.participantCreatedStateEvt participant))⟩ }
  | .reservePayerFundsCmd payload =>
    loadScript callable replay thrown payload.payerId fun
      | none => .ends
        { events := [.invalidParticipantEvt payload.payerId payload.transferId none]
          root := none, result := .ok ⟨false, none⟩ }
      | some payer => .load payload.payeeId fun payee =>
        .ends ((decideReserve B payload payer payee).ended payer)
  | .commitPayeeFundsCmd payload =>
    loadScript callable replay thrown payload.payeeId fun
      | none => .ends
        { events := [.invalidParticipantEvt payload.payeeId payload.transferId none]
          root := none, result := .ok ⟨false, none⟩ }
      | some payee =>
        if payee.hasAccount .position payload.currency then
          .load payload.payerId fun payer => .ends ((decideCommit B payload payee payer).ended payee)
        else
          .ends ((Decision.refuse
            [.invalidParticipantEvt payload.payeeId payload.transferId none]).ended payee)
  | .snapshotParticipantStateCmd participantId =>
    loadScript callable replay thrown participantId fun
      | none => .ends (threw
          s!"Could not load participant with id '{participantId}' to process snapshot command")
      | some root => .ends
        { events := [], root := some root
          result := .ok ⟨true, some (.participantStateSnapshotEvt root)⟩ }

end

/-- The calls of a command are answered from this world. -/
structure AnsweredFrom (R : StateRepo ParticipantState) (w : World) (cmd : Command)
    (V : Services ParticipantState TEventStoreMessageOffset)
    (replay : Option TEventStoreMessageOffset → Loaded ParticipantState) : Prop where
  root : V.load 0 = .ok (R.view w.repo cmd.rootId)
  log : ∃ found, V.offsets 1 = .ok found ∧
    replay found = rebuild applyStateEvent (w.log.sourced cmd.rootId)
  counterpart : ∀ id, cmd.counterpartId = some id →
    V.load 1 = .ok (R.view w.repo id) ∧ V.load 2 = .ok (R.view w.repo id)

/-- What a verdict leaves behind. -/
def FollowsVerdict (v : Verdict) (h : Promise ParticipantEnded) : Prop :=
  ∃ e, h = .ok e ∧ e.events = v.events ∧ e.root = v.root ∧ e.result.toOption = v.result

section

variable {R : StateRepo ParticipantState} {B : BigNumber} {w : World} {cmd : Command}
  {V : Services ParticipantState TEventStoreMessageOffset}
  {replay : Option TEventStoreMessageOffset → Loaded ParticipantState} {thrown : String}

/-- `load` goes on with what the world shows, one or two calls later. -/
theorem loadScript_follows (h : AnsweredFrom R w cmd V replay) {id : String}
    (hid : cmd.rootId = id) {v : Verdict} {next : Option ParticipantState → ParticipantScript}
    (hfailed : lookup R applyStateEvent w id = .failed → v = .reject)
    (hnone : ∀ i, lookup R applyStateEvent w id = .notFound →
      FollowsVerdict v ((next none).run V i))
    (hsome : ∀ i s, i = 1 ∨ i = 2 → lookup R applyStateEvent w id = .found s →
      FollowsVerdict v ((next (some s)).run V i)) :
    FollowsVerdict v ((loadScript true replay thrown id next).run V 0) := by
  obtain ⟨found, hfound, hreplay⟩ := h.log
  have hroot := h.root
  rw [hid] at hreplay hroot
  rw [loadScript, if_pos rfl, Script.run, hroot]
  cases hv : R.view w.repo id with
  | some s => exact hsome 1 s (Or.inl rfl) (lookup_of_view hv)
  | none =>
    have hlookup : lookup R applyStateEvent w id =
        rebuild applyStateEvent (w.log.sourced id) := by rw [lookup, hv]
    show FollowsVerdict v ((Script.offsets id _).run V 1)
    rw [Script.run, hfound]
    show FollowsVerdict v ((match replay found with
      | .failed => Script.ends (threw thrown)
      | .notFound => next none
      | .found s => next (some s)).run V 2)
    rw [hreplay, ← hlookup]
    cases hroot : lookup R applyStateEvent w id with
    | failed =>
      rw [hfailed hroot]
      exact ⟨_, rfl, rfl, rfl, rfl⟩
    | notFound => exact hnone 2 hroot
    | found s => exact hsome 2 s (Or.inr rfl) hroot

theorem Decision.ended_follows (root : ParticipantState) (d : Decision) :
    FollowsVerdict (d.verdict root) (.ok (d.ended root)) := by
  cases d with
  | refuse events => exact ⟨_, rfl, rfl, rfl, rfl⟩
  | accept root' events stateEvent => exact ⟨_, rfl, rfl, rfl, rfl⟩

theorem counterpart_run {i : Nat} (hi : i = 1 ∨ i = 2) (h : AnsweredFrom R w cmd V replay)
    {id : String} (hid : cmd.counterpartId = some id)
    (next : Option ParticipantState → ParticipantEnded) :
    (Script.load id fun s => .ends (next s)).run V i = .ok (next (R.view w.repo id)) := by
  obtain ⟨hone, htwo⟩ := h.counterpart id hid
  rw [Script.run]
  rcases hi with rfl | rfl
  · rw [hone]
    rfl
  · rw [htwo]
    rfl

/-- The four handlers end as their verdict says. -/
theorem script_follows (h : AnsweredFrom R w cmd V replay) :
    FollowsVerdict (verdict R B w cmd) ((script B true replay thrown cmd).run V 0) := by
  cases cmd with
  | createParticipantCmd participant =>
    rw [script]
    refine loadScript_follows h rfl (fun hroot => ?_) (fun i hroot => ?_) fun i root _ hroot => ?_
    all_goals
      dsimp only [Command.rootId] at hroot
      rw [verdict, hroot]
    · exact ⟨_, rfl, rfl, rfl, rfl⟩
    · exact Decision.ended_follows root _
  | reservePayerFundsCmd payload =>
    rw [script]
    refine loadScript_follows h rfl (fun hroot => ?_) (fun i hroot => ?_) fun i payer hi hroot => ?_
    all_goals
      dsimp only [Command.rootId] at hroot
      rw [verdict, hroot]
    · exact ⟨_, rfl, rfl, rfl, rfl⟩
    · dsimp only
      rw [counterpart_run hi h rfl]
      exact Decision.ended_follows payer _
  | commitPayeeFundsCmd payload =>
    rw [script]
    refine loadScript_follows h rfl (fun hroot => ?_) (fun i hroot => ?_) fun i payee hi hroot => ?_
    all_goals
      dsimp only [Command.rootId] at hroot
      rw [verdict, hroot]
    · exact ⟨_, rfl, rfl, rfl, rfl⟩
    · dsimp only
      split
      · rw [counterpart_run hi h rfl]
        exact Decision.ended_follows payee _
      · exact Decision.ended_follows payee _
  | snapshotParticipantStateCmd participantId =>
    rw [script]
    refine loadScript_follows h rfl (fun hroot => ?_) (fun i hroot => ?_) fun i root _ hroot => ?_
    all_goals
      dsimp only [Command.rootId] at hroot
      rw [verdict, hroot]
    · exact ⟨_, rfl, rfl, rfl, rfl⟩
    · exact ⟨_, rfl, rfl, rfl, rfl⟩

/-- `processCommand` of the aggregate is the promise without its reasons. -/
theorem promise_outcome {f : Faults} {calls : Calls} (hR : R.Lawful ParticipantState.id)
    (hkeyed : ∀ s, lookup R applyStateEvent w cmd.rootId = .found s → s.id = cmd.rootId)
    (h : AnsweredFrom R w cmd V replay) (hcalls : calls.Matches f.toFaults)
    (hstore : ∀ s, (handle R B f w cmd).root = some s →
      (calls.store = .ok () ↔ (store R f.store (handle R B f w cmd).repo s).2 = true)) :
    (settle cmd.msgName calls ((script B true replay thrown cmd).run V 0)).toOption =
      (processCommand R B f w cmd).outcome := by
  have hfollows : FollowsVerdict (verdict R B w cmd) ((script B true replay thrown cmd).run V 0) :=
    script_follows h
  obtain ⟨e, he, hevents, hroot, hresult⟩ := hfollows
  have hf := handle_follows (B := B) (f := f) hR hkeyed
  rw [he, settle_outcome hcalls hstore (hevents.trans hf.events.symm) (hroot.trans hf.root.symm)
    (hresult.trans hf.result.symm)]
  rfl

end

end ParticpantsAgg

/-! ## The consumer's handler -/

namespace ParticipantCmdHandler

open Domain.CmdHandler

/-- A message from the consumer and all that answers it.  `command` is the handler that the
payload, of whatever shape, makes of a message with the name of a command. -/
structure Delivery where
  message : Json
  command : Except String ParticipantScript
  stores : Stores
  deliveries₁ : Deliveries
  deliveries₂ : Deliveries

def names : List String :=
  ["CreateParticipantCmd", "ReservePayerFundsCmd", "CommitPayeeFundsCmd",
    "SnapshotParticipantStateCmd"]

def Delivery.calls (d : Delivery) : Calls :=
  { deliveries₁ := d.deliveries₁, deliveries₂ := d.deliveries₂
    store := d.stores.stateCache.store d.stores.key d.stores.has d.stores.set }

/-- `this._participantAgg.processCommand(participantCmd)` -/
def Delivery.processed (d : Delivery) : Except String (Promise Bool) :=
  d.command.map fun script => settle (msgName d.message) d.calls (script.run d.stores.services 0)

/-- A message that is no command is logged a second time. -/
def cmdHandler (reporting : Reporting) (d : Delivery) : Promise Unit :=
  match attempt reporting names (log reporting.isWarnEnabled d.message) d.message d.processed with
  | .ok () => .ok ()
  | .error err => do
    log reporting.isInfoEnabled d.message
    match err.message with
    | none => .error nullError
    | some _ => histTimer reporting d.message

/-- The command is accepted and published, its participant goes to the repository that
hands on Redis' argument, and Redis gives neither an error nor its `OK`. -/
def Delivery.StoreUnanswered (d : Delivery) : Prop :=
  Named names d.message ∧
    (∃ script, d.command = .ok script ∧
      Domain.ReachesStore (·.success) TCommandResult.published d.deliveries₁
        (script.run d.stores.services 0)) ∧
    d.stores.stateCache = .redis ∧ d.stores.set.Unanswered

theorem processed_isNull_iff {d : Delivery} :
    (∃ processed, d.processed = .ok processed ∧ processed.IsNull) ↔
      (∃ script, d.command = .ok script ∧
        Domain.ReachesStore (·.success) TCommandResult.published d.deliveries₁
          (script.run d.stores.services 0)) ∧
      d.stores.stateCache = .redis ∧ d.stores.set.Unanswered := by
  rw [Delivery.processed, ← RepoInfraTypes.store_isNull_iff d.stores.stateCache d.stores.key
    d.stores.has]
  exact Domain.map_settleWith_isNull_iff fun script =>
    script.run_not_isNull d.stores.services_neverNull 0

/-- The handler resolves when the histogram takes the name, the log takes the name, the key
and the id, and the reason of the command, if it comes to one, is not null. -/
theorem cmdHandler_resolves_iff (reporting : Reporting) (d : Delivery) :
    cmdHandler reporting d = .ok () ↔
      reporting.takesLabel (evtname d.message) = true ∧
        (reporting.isInfoEnabled = true → idsHaveText d.message = true) ∧ ¬ d.StoreUnanswered := by
  rw [Delivery.StoreUnanswered, ← processed_isNull_iff, cmdHandler]
  have hnull : (attempt reporting names (log reporting.isWarnEnabled d.message) d.message
      d.processed).IsNull ↔ _ :=
    attempt_isNull_iff (log_not_isNull reporting.isWarnEnabled d.message)
  cases h : attempt reporting names (log reporting.isWarnEnabled d.message) d.message
      d.processed with
  | ok u =>
    rw [h] at hnull
    obtain ⟨hids, hlabel⟩ := attempt_ok h
    simp only [true_iff]
    exact ⟨hlabel, hids, fun hreach => not_isNull_ok u (hnull.mpr ⟨hids, hreach⟩)⟩
  | error err =>
    rw [h] at hnull
    by_cases hids : reporting.isInfoEnabled = true → idsHaveText d.message = true
    · rw [log_eq_ok_iff.mpr hids]
      cases err with
      | null =>
        have hreach := (hnull.mp isNull_null).2
        refine iff_of_false (fun hok => by cases hok) fun hall => hall.2.2 hreach
      | error message =>
        show histTimer reporting d.message = .ok () ↔ _
        rw [histTimer_eq_ok_iff]
        refine ⟨fun hlabel => ⟨hlabel, hids, fun hreach => ?_⟩, fun hall => hall.1⟩
        exact not_isNull_error message (hnull.mpr ⟨hids, hreach⟩)
    · refine iff_of_false (fun hok => ?_) fun hall => hids hall.2.1
      obtain ⟨u, hlog, -⟩ := bind_eq_ok hok
      exact hids (log_eq_ok_iff.mp hlog)

end ParticipantCmdHandler

end Participants
end PocArchitecture
