/-
From a request to a stored transfer.

Without failures a request to prepare becomes a command and the command a stored transfer,
unless one goes by its id already; and nothing else becomes a transfer.
-/
import PocArchitecture.Switch.Delivery

namespace PocArchitecture
namespace Switch

open PublicMessages Infrastructure
open Participants (BigNumber)
open Transfers (Crypto PrepareTransferCmdPayload TransferState redisTransferStateRepo)
open Transfers.TransfersAgg (prepareTransferData processCommand_duplicates processCommand_effect
  verdict_cases)

/-- The request a message takes to the transfers. -/
def DomainMessage.prepares : DomainMessage → Option PrepareTransferCmdPayload
  | transferPrepareRequestedEvt payload => some payload
  | transferCmd (.prepareTransferCmd payload) => some payload
  | _ => none

/-- Every id of the duplicate set is the id of a stored transfer. -/
def DuplicatesStored (stores : Stores) : Prop :=
  ∀ id ∈ stores.transfers.duplicates, (stores.transfer id).isSome = true

section Reaction

variable {B : BigNumber} {C : Crypto} {stores : Stores} {msg m : DomainMessage}
  {payload : PrepareTransferCmdPayload} {id : String} {t : TransferState}

/-- A request is passed on as it came. -/
theorem prepares_of_mem (hm : m ∈ (react B C Faults.none stores msg).2)
    (hp : m.prepares = some payload) : msg.prepares = some payload := by
  cases publishes_of_mem hm with
  | transferEvt cmd evt hevt => cases hp
  | participantEvt cmd evt hevt => cases hp
  | participantCmd evt cmd hcmd => cases hp
  | transferCmd _ cmd hcmd =>
    cases cmd with
    | prepareTransferCmd payload' =>
      cases msg with
      | transferPrepareRequestedEvt payload'' =>
        cases hcmd
        exact hp
      | participantEvt evt => cases evt <;> cases hcmd
      | _ => cases hcmd
    | _ => cases hp

/-- A stored transfer stays. -/
theorem isSome_react (hw : WellKept stores) (h : (stores.transfer id).isSome = true) :
    ((react B C Faults.none stores msg).1.transfer id).isSome = true := by
  obtain ⟨msgs, hstep, -⟩ := react_lifeStep B C hw msg id
  generalize (react B C Faults.none stores msg).1.transfer id = after at hstep
  cases hstep with
  | stay _ _ => exact h
  | step s' _ _ _ _ => rfl

/-- A stored transfer was stored before, or is the one a request asks for. -/
theorem stored_cases (hw : WellKept stores)
    (ht : (react B C Faults.none stores msg).1.transfer id = some t) :
    (∃ s, stores.transfer id = some s ∧ t.prepareData = s.prepareData) ∨
      ∃ payload, msg.prepares = some payload ∧ t.prepareData = prepareTransferData payload := by
  cases hbefore : stores.transfer id with
  | some s =>
    left
    refine ⟨s, rfl, ?_⟩
    obtain ⟨msgs, hstep, -⟩ := react_lifeStep B C hw msg id
    rcases hstep.prepareData_map with hnone | hsame
    · rw [hbefore] at hnone
      cases hnone
    · rw [ht, hbefore] at hsame
      exact Option.some.inj hsame
  | none =>
    right
    cases msg with
    | transferCmd cmd =>
      by_cases hid : id = cmd.transferId
      · subst hid
        have heff := processCommand_effect (C := C) Transfers.redis_lawful hw.transfers cmd
        change redisTransferStateRepo.view (Transfers.TransfersAgg.processCommand
          redisTransferStateRepo C Transfers.Faults.none stores.transfers cmd).repo.repo
            cmd.transferId = some t at ht
        change redisTransferStateRepo.view stores.transfers.repo cmd.transferId = none at hbefore
        rw [ht] at heff
        generalize (Transfers.TransfersAgg.processCommand redisTransferStateRepo C
          Transfers.Faults.none stores.transfers cmd).published = msgs at heff
        generalize hafter : some t = after at heff
        cases heff with
        | prepare payload hcmd hnew =>
          obtain rfl := Option.some.inj hafter
          subst hcmd
          exact ⟨payload, rfl, rfl⟩
        | refuse m hm =>
          rw [hbefore] at hafter
          cases hafter
        | spoil m hm s hs haliased hmismatch => cases haliased
        | advance s s' events hs hadv =>
          rw [hbefore] at hs
          cases hs
      · have hother := Transfers.TransfersAgg.processCommand_view_ne (C := C)
          (f := Transfers.Faults.none) Transfers.redis_lawful (hw.transfers.keyed cmd) hid
        have hnone := (hother.symm.trans ht).symm.trans hbefore
        cases hnone
    | _ =>
      have hsame : some t = none := by
        rw [← ht, ← hbefore, Stores.transfer, Stores.transfer,
          react_transfers fun _ he => by cases he]
      cases hsame

/-- A new id gets into the duplicate set with its transfer. -/
theorem DuplicatesStored.react (hw : WellKept stores) (h : DuplicatesStored stores)
    (msg : DomainMessage) : DuplicatesStored (Switch.react B C Faults.none stores msg).1 := by
  intro id hid
  by_cases hold : id ∈ stores.transfers.duplicates
  · exact isSome_react hw (h id hold)
  · cases msg with
    | transferCmd cmd =>
      change id ∈ (Transfers.TransfersAgg.processCommand redisTransferStateRepo C
        Transfers.Faults.none stores.transfers cmd).repo.duplicates at hid
      rw [processCommand_duplicates Transfers.redis_lawful] at hid
      rcases verdict_cases redisTransferStateRepo C Transfers.Faults.none stores.transfers cmd with
        ⟨hadd, -⟩ | ⟨payload, rfl, hnew, hv⟩ | ⟨_, m, hv, -⟩ | ⟨s, s', events, hv, -⟩
      · cases hadd
      · rw [hv] at hid
        rcases Finset.mem_insert.mp hid with rfl | hid
        · have hview := Transfers.TransfersAgg.processCommand_view_self (C := C)
            (f := Transfers.Faults.none) Transfers.redis_lawful
            (hw.transfers.keyed (.prepareTransferCmd payload))
          rw [hv] at hview
          exact congrArg Option.isSome hview
        · exact absurd hid hold
      · rw [hv] at hid
        exact absurd hid hold
      · rw [hv] at hid
        exact absurd hid hold
    | _ =>
      rw [react_transfers fun _ he => by cases he] at hid
      exact absurd hid hold

/-- A handled request is passed on, or its transfer is stored. -/
theorem stored_or_prepares (hw : WellKept stores) (h : DuplicatesStored stores)
    (hp : msg.prepares = some payload) :
    ((react B C Faults.none stores msg).1.transfer payload.transferId).isSome = true ∨
      ∃ m ∈ (react B C Faults.none stores msg).2, m.prepares = some payload := by
  cases msg with
  | transferPrepareRequestedEvt payload' => exact Or.inr ⟨_, List.mem_cons_self, hp⟩
  | transferCmd cmd =>
    cases cmd with
    | prepareTransferCmd payload' =>
      obtain rfl := Option.some.inj hp
      left
      apply h.react hw
      show payload'.transferId ∈ (Transfers.TransfersAgg.processCommand redisTransferStateRepo C
        Transfers.Faults.none stores.transfers (.prepareTransferCmd payload')).repo.duplicates
      rw [processCommand_duplicates Transfers.redis_lawful]
      change payload'.transferId ∈ (if payload'.transferId ∈ stores.transfers.duplicates then _
        else _ : Transfers.TransfersAgg.Verdict).duplicates _
      split
      · assumption
      · exact Finset.mem_insert_self _ _
    | _ => cases hp
  | _ => cases hp

end Reaction

end Switch
end PocArchitecture
