/-
The verdict on an accepted prepare.

The participants' event handler looks the payer up before it publishes the reserve
command, and publishes nothing for a payer it does not know.  The aggregate looks the
payer up again and has an answer to everything its lookup may return, unless the replay
of the payer's log throws.  The two lookups may disagree: the handler has a map of its
own, and the aggregate has the log.
-/
import PocArchitecture.Switch.System

namespace PocArchitecture
namespace Switch

open PublicMessages Infrastructure
open Domain (Loaded)
open Domain.BaseEventSourcingAggregate
open Participants (ParticipantState BigNumber)
open Participants.ParticpantsAgg

/-- The three verdicts on the transfer. -/
def isVerdictOn (transferId : String) : Participants.Message → Bool
  | .payerFundsReservedEvt payload => payload.transferId == transferId
  | .invalidParticipantEvt _ id _ => id == transferId
  | .netCapLimitExceededEvt id _ _ => id == transferId
  | _ => false

/-- What the participants publish once the event handler has handled an accepted prepare and
the aggregate the command it published, if any. -/
def answers (kind : Participants.RepoInfraTypes) (B : BigNumber) (stores : Stores)
    (terms : TransferTerms) : List Participants.Message :=
  let reaction := reactToTransferEvt Faults.none stores (.transferPrepareAcceptedEvt terms)
  reaction.2.flatMap fun
    | .participantCmd cmd =>
      (processCommand kind.repo B Participants.Faults.none reaction.1.participants cmd).published
    | _ => []

/-- The event handler finds the participant, in its map or in Redis. -/
def KnownToHandler (stores : Stores) (id : String) : Prop :=
  (stores.inMemorylist.get (Participants.keyWithPrefix id)).isSome = true ∨
    (stores.participants.repo.redis.get (Participants.keyWithPrefix id)).isSome = true

theorem lookUp_isSome (stores : Stores) (id : String) :
    (lookUp stores id).2.isSome = true ↔ KnownToHandler stores id := by
  show (Participants.cachedRedisParticipantStateRepo.view
    { inMemory := stores.inMemorylist, redis := stores.participants.repo.redis } id).isSome = true ↔ _
  rw [Participants.cachedRedisParticipantStateRepo, StateRepo.cachedRepo_view, Option.isSome_or,
    Bool.or_eq_true]
  rfl

section

variable {R : StateRepo ParticipantState} {B : BigNumber} {w : Participants.World}
  {terms : TransferTerms}

/-- What a reserve publishes when nothing fails, whatever the stores hold. -/
theorem reserve_published (hR : R.Lawful ParticipantState.id) :
    (processCommand R B Participants.Faults.none w (.reservePayerFundsCmd terms)).published =
      (verdict R B w (.reservePayerFundsCmd terms)).events ++
        (verdict R B w (.reservePayerFundsCmd terms)).stateEvents := by
  refine (finish_published_of_isOk rfl _ _).trans ?_
  rw [handle, processReserveFundsCommand, verdict, load_root]
  cases hroot : lookup R applyStateEvent w terms.payerId with
  | failed => rfl
  | notFound => rfl
  | found payer =>
    have hseen : (R.load (load R applyStateEvent Participants.Faults.none.offsets w
        terms.payerId).world.repo terms.payeeId).2 = R.view w.repo terms.payeeId := by
      show R.view _ _ = _
      rw [load_repo, hR.view_load]
    dsimp only
    rw [withCounterpart, hseen]
    cases decideReserve B terms payer (R.view w.repo terms.payeeId) with
    | refuse events => exact (List.append_nil _).symm
    | accept root' events stateEvent => rfl

/-- Every decision on a reserve is one verdict. -/
theorem decideReserve_one (payer : ParticipantState) (counterpart : Option ParticipantState) :
    (((decideReserve B terms payer counterpart).verdict payer).events ++
      ((decideReserve B terms payer counterpart).verdict payer).stateEvents).countP
        (isVerdictOn terms.transferId) = 1 := by
  have hrefuse : ∀ e, ((((refuseReserve terms e).verdict payer).events ++
      ((refuseReserve terms e).verdict payer).stateEvents).countP
        (isVerdictOn terms.transferId)) = 1 := by
    intro e
    cases e <;> simp [refuseReserve, Decision.verdict, Verdict.events, Verdict.stateEvents, isVerdictOn]
  cases counterpart with
  | none =>
    simp [decideReserve, Decision.verdict, Verdict.events, Verdict.stateEvents, isVerdictOn]
  | some payee =>
    rw [decideReserve]
    split
    · split
      · exact hrefuse _
      · split
        · exact hrefuse _
        · simp [Decision.verdict, Verdict.events, Verdict.stateEvents, isVerdictOn, positionChanged]
    · simp [Decision.verdict, Verdict.events, Verdict.stateEvents, isVerdictOn]

/-- The aggregate gives one verdict unless the log of the payer cannot be replayed. -/
theorem reserve_verdicts (hR : R.Lawful ParticipantState.id) :
    (processCommand R B Participants.Faults.none w (.reservePayerFundsCmd terms)).published.countP
      (isVerdictOn terms.transferId) =
        if lookup R applyStateEvent w terms.payerId = .failed then 0 else 1 := by
  rw [reserve_published hR, verdict]
  cases hroot : lookup R applyStateEvent w terms.payerId with
  | failed => rfl
  | notFound =>
    simp [Verdict.events, Verdict.stateEvents, isVerdictOn]
  | found payer =>
    rw [if_neg (by simp)]
    exact decideReserve_one payer _

end

/-- There is exactly one verdict when the event handler knows the payer and the aggregate can
load it, and there is none otherwise. -/
theorem one_verdict_iff (kind : Participants.RepoInfraTypes) (B : BigNumber) (stores : Stores)
    (terms : TransferTerms) :
    (answers kind B stores terms).countP (isVerdictOn terms.transferId) = 1 ↔
      KnownToHandler stores terms.payerId ∧
        lookup kind.repo applyStateEvent stores.participants terms.payerId ≠ .failed := by
  rw [answers, reactToTransferEvt_participants, ← lookUp_isSome]
  rw [reactToTransferEvt, participantEvtHandler]
  dsimp only [Participants.Command.rootId]
  cases (lookUp stores terms.payerId).2.isSome with
  | false => simp
  | true =>
    rw [show (true && Faults.none.command) = true from rfl, if_pos rfl, List.flatMap_cons,
      List.flatMap_nil, List.append_nil, reserve_verdicts kind.repo_lawful]
    simp

/-- A payer nobody has created: the event handler throws, and the prepare is not answered. -/
theorem unknown_payer_unanswered :
    let stores : Stores := { Stores.start (fun _ => 0) with
      participants := (processCommand Participants.redisParticipantStateRepo
        Participants.wholeNumbers Participants.Faults.none (start fun _ => 0)
        (.createParticipantCmd (sampleParticipant "green"))).repo }
    answers .redis Participants.wholeNumbers stores sampleTerms = [] ∧
    (answers .redis Participants.wholeNumbers stores sampleTerms).countP
      (isVerdictOn sampleTerms.transferId) ≠ 1 := by
  decide +kernel

end Switch
end PocArchitecture
