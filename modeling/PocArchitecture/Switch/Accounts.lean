/-
Participants and their accounts stay.

Without failures no command takes a participant away, and none takes away an account.  So
a commit that follows a reserve finds what the reserve found, and goes through.
-/
import PocArchitecture.Participants.FailureFree
import PocArchitecture.Switch.System

namespace PocArchitecture
namespace Switch

open PublicMessages Infrastructure
open Participants (BigNumber ParticipantState redisParticipantStateRepo)
open Participants.ParticpantsAgg

/-- The participant is stored, with a POSITION account in the currency. -/
def HoldsAccount (w : Participants.World) (id : String) (currency : CurrencyTypes) : Prop :=
  ∃ participant, stored w id = some participant ∧ participant.hasAccount .position currency = true

/-- Both parties of the terms hold an account. -/
def PartiesHold (w : Participants.World) (terms : TransferTerms) : Prop :=
  HoldsAccount w terms.payerId terms.currency ∧ HoldsAccount w terms.payeeId terms.currency

section

variable {B : BigNumber} {w : Participants.World} {cmd : Participants.Command} {id : String}
  {currency : CurrencyTypes} {terms : TransferTerms}

theorem HoldsAccount.process (hw : Participants.ParticpantsAgg.WellKept redisParticipantStateRepo w)
    (hall : AllStored w) (h : HoldsAccount w id currency) :
    HoldsAccount (Participants.ParticpantsAgg.process B w cmd).repo id currency := by
  obtain ⟨participant, hstored, hacc⟩ := h
  cases process_effect hw hall B cmd with
  | still hsame hnot hsilent => exact ⟨participant, (hsame id).trans hstored, hacc⟩
  | create new hcmd hnew hself hother hmsgs =>
    have hne : id ≠ new.id := by
      rintro rfl
      rw [hnew] at hstored
      cases hstored
    exact ⟨participant, (hother id hne).trans hstored, hacc⟩
  | move root root' hmoves hroot hself hother hmsgs =>
    by_cases hid : id = cmd.rootId
    · subst hid
      rw [hroot] at hstored
      obtain rfl := Option.some.inj hstored
      obtain ⟨_, -, hto⟩ := hmoves.movesTo
      exact ⟨root', hself, (hto.hasAccount_eq .position currency).trans hacc⟩
    · exact ⟨participant, (hother id hid).trans hstored, hacc⟩

theorem PartiesHold.process (hw : Participants.ParticpantsAgg.WellKept redisParticipantStateRepo w)
    (hall : AllStored w) (h : PartiesHold w terms) :
    PartiesHold (Participants.ParticpantsAgg.process B w cmd).repo terms :=
  ⟨h.1.process hw hall, h.2.process hw hall⟩

/-- A reserve that goes through has seen both accounts. -/
theorem partiesHold_of_moves (hall : AllStored w) {root root' : ParticipantState}
    (h : Moves redisParticipantStateRepo B w (.reservePayerFundsCmd terms) root root') :
    PartiesHold w terms := by
  obtain ⟨hroot, ⟨payee, hpayee, hacc⟩, hres⟩ := h
  obtain ⟨account, _, hget, -⟩ := ParticipantState.reserveFunds_ok hres
  refine ⟨⟨root, hall.lookup_found hroot, ?_⟩, ⟨payee, hpayee, hacc⟩⟩
  rw [ParticipantState.hasAccount, hget, Option.isSome_some]

/-- A commit between two parties with accounts is admitted. -/
theorem PartiesHold.admits_commit (h : PartiesHold w terms) :
    Admits redisParticipantStateRepo B w (.commitPayeeFundsCmd terms) := by
  obtain ⟨⟨payer, hpayer, hpayerAcc⟩, payee, hpayee, hpayeeAcc⟩ := h
  exact ⟨payee, payer, Domain.BaseEventSourcingAggregate.lookup_of_view hpayee, hpayeeAcc, hpayer,
    hpayerAcc⟩

/-- An admitted command announces its movement. -/
theorem published_of_moves
    (hw : Participants.ParticpantsAgg.WellKept redisParticipantStateRepo w)
    {root root' : ParticipantState} (h : Moves redisParticipantStateRepo B w cmd root root') :
    (∃ terms payload, cmd = .reservePayerFundsCmd terms ∧
        payload.transferId = terms.transferId ∧
        .payerFundsReservedEvt payload ∈ (Participants.ParticpantsAgg.process B w cmd).published) ∨
      ∃ terms payload, cmd = .commitPayeeFundsCmd terms ∧
        payload.transferId = terms.transferId ∧
        .payeeFundsCommittedEvt payload ∈ (Participants.ParticpantsAgg.process B w cmd).published := by
  obtain ⟨events, stateEvent, hv⟩ := verdict_of_moves h
  have hpub : (Participants.ParticpantsAgg.process B w cmd).published =
      (verdict redisParticipantStateRepo B w cmd).published Participants.Faults.none :=
    processCommand_published Participants.redis_lawful (hw.keyed cmd)
  rw [hpub, hv]
  rcases verdict_move_event hv with ⟨terms, payload, rfl, rfl, hid⟩ | ⟨terms, payload, rfl, rfl, hid⟩
  · exact Or.inl ⟨terms, payload, rfl, hid, List.mem_cons_self⟩
  · exact Or.inr ⟨terms, payload, rfl, hid, List.mem_cons_self⟩

end

end Switch
end PocArchitecture
