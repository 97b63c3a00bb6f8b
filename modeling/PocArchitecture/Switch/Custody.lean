/-
How the terms of a transfer travel.

The terms go through five messages and two stores between the prepare and the commit.
`Acc` says that terms were accepted and `Res` that their funds were reserved; what the
two mean is left to the modules that use this.  `Grounded` is what a message may claim
in these terms, `Held` what the stored transfers do, and every reaction keeps both, if
an id has one set of accepted terms and a reservation is announced only for reserved
funds.
-/
import PocArchitecture.Participants.LaterLoads
import PocArchitecture.Transfers.LifeCycle
import PocArchitecture.Switch.System

namespace PocArchitecture
namespace Switch

open PublicMessages Infrastructure
open Participants (ParticipantState BigNumber)
open Transfers (Crypto TransferState)
open Transfers.TransfersAgg (Advances Verdict verdict_cases processCommand_published
  processCommand_view_self processCommand_view_ne finalView_some)

section

variable (Acc Res : TransferTerms → Prop)

/-- Accepted terms with reserved funds go by this id. -/
def Backs (transferId : String) : Prop :=
  ∃ terms, Acc terms ∧ Res terms ∧ terms.transferId = transferId

def Grounded : DomainMessage → Prop
  | .transferEvt (.transferPrepareAcceptedEvt terms) => Acc terms
  | .participantCmd (.reservePayerFundsCmd terms) => Acc terms
  | .participantEvt (.payerFundsReservedEvt payload) => Backs Acc Res payload.transferId
  | .transferCmd (.ackPayerFundsReservedCmd payload) => Backs Acc Res payload.transferId
  | .transferEvt (.transferFulfilAcceptedEvt terms) => Res terms
  | .participantCmd (.commitPayeeFundsCmd terms) => Res terms
  | _ => True

/-- Stored transfers were accepted, and from the reservation on their funds are reserved. -/
structure Held (w : Transfers.World) : Prop where
  accepted : ∀ id s, Transfers.redisTransferStateRepo.view w.repo id = some s → Acc s.terms
  reserved : ∀ id s, Transfers.redisTransferStateRepo.view w.repo id = some s →
    s.transferInternalState ≠ .receivedPrepare → Res s.terms

/-- An id has one set of terms. -/
def OneTerms : Prop := ∀ a b, Acc a → Acc b → a.transferId = b.transferId → a = b

end

section Growth

variable {Acc Acc' Res Res' : TransferTerms → Prop} (hAcc : ∀ terms, Acc terms → Acc' terms)
  (hRes : ∀ terms, Res terms → Res' terms)

include hAcc hRes

theorem Backs.mono {transferId : String} (h : Backs Acc Res transferId) :
    Backs Acc' Res' transferId := by
  obtain ⟨terms, ha, hr, hid⟩ := h
  exact ⟨terms, hAcc terms ha, hRes terms hr, hid⟩

theorem Grounded.mono {m : DomainMessage} (h : Grounded Acc Res m) : Grounded Acc' Res' m := by
  cases m with
  | transferPrepareRequestedEvt payload => trivial
  | transferFulfilRequestedEvt payload => trivial
  | transferCmd cmd =>
    cases cmd with
    | ackPayerFundsReservedCmd payload => exact Backs.mono hAcc hRes h
    | _ => trivial
  | transferEvt evt =>
    cases evt with
    | transferPrepareAcceptedEvt terms => exact hAcc terms h
    | transferFulfilAcceptedEvt terms => exact hRes terms h
    | _ => trivial
  | participantCmd cmd =>
    cases cmd with
    | reservePayerFundsCmd terms => exact hAcc terms h
    | commitPayeeFundsCmd terms => exact hRes terms h
    | _ => trivial
  | participantEvt evt =>
    cases evt with
    | payerFundsReservedEvt payload => exact Backs.mono hAcc hRes h
    | _ => trivial

theorem Held.mono {w : Transfers.World} (h : Held Acc Res w) : Held Acc' Res' w where
  accepted id s hs := hAcc _ (h.accepted id s hs)
  reserved id s hs hstate := hRes _ (h.reserved id s hs hstate)

end Growth

/-- The events of the transfers side that carry terms on. -/
theorem grounded_transferEvt {Acc Res : TransferTerms → Prop} {evt : Transfers.Message}
    (haccepted : ∀ terms, evt = .transferPrepareAcceptedEvt terms → Acc terms)
    (hfulfil : ∀ terms, evt = .transferFulfilAcceptedEvt terms → Res terms) :
    Grounded Acc Res (.transferEvt evt) := by
  cases evt with
  | transferPrepareAcceptedEvt terms => exact haccepted terms rfl
  | transferFulfilAcceptedEvt terms => exact hfulfil terms rfl
  | _ => trivial

theorem Backs.of_terms {Acc Res : TransferTerms → Prop} (hone : OneTerms Acc) {terms : TransferTerms}
    (h : Backs Acc Res terms.transferId) (hterms : Acc terms) : Res terms := by
  obtain ⟨t, ha, hr, hid⟩ := h
  rwa [← hone t terms ha hterms hid]

section Step

variable {Acc Acc' Res Res' : TransferTerms → Prop} (hAcc : ∀ terms, Acc terms → Acc' terms)
  (hRes : ∀ terms, Res terms → Res' terms)

/-- A step of a stored transfer: it is held afterwards, and what is announced is grounded. -/
theorem advance_held (hone : OneTerms Acc) {C : Crypto} {s s' : TransferState}
    {cmd : Transfers.Command} {events : List Transfers.Message}
    (hacc : Acc s.terms) (hres : s.transferInternalState ≠ .receivedPrepare → Res s.terms)
    (hg : Grounded Acc Res (.transferCmd cmd)) (hid : s.id = cmd.transferId)
    (hadv : Advances C s cmd s' events) :
    s'.terms = s.terms ∧ Res s.terms ∧
      ∀ m ∈ events, Grounded Acc Res (.transferEvt m) := by
  cases hadv with
  | reserve payload hstate =>
    have hbacks : Backs Acc Res s.terms.transferId := by
      change Backs Acc Res s.id
      rw [hid]
      exact hg
    refine ⟨rfl, hbacks.of_terms hone hacc, fun m hm => ?_⟩
    rcases List.mem_pair.mp hm with rfl | rfl <;> trivial
  | fulfil payload hstate hfulfils =>
    have hr : Res s.terms := hres (by rw [hstate]; decide)
    refine ⟨rfl, hr, fun m hm => ?_⟩
    rcases List.mem_pair.mp hm with rfl | rfl
    · exact hr
    · trivial
  | commit payload hstate =>
    refine ⟨rfl, hres (by rw [hstate]; decide), fun m hm => ?_⟩
    rcases List.mem_pair.mp hm with rfl | rfl <;> trivial

include hAcc hRes

/-- Whatever is stored after a command was stored before it or is the accepted transfer. -/
theorem Held.of_accepted {w : Transfers.World}
    (hw : Transfers.TransfersAgg.WellKept Transfers.redisTransferStateRepo w)
    (h : Held Acc Res w) (C : Crypto) (f : Transfers.Faults) (cmd : Transfers.Command)
    (haccepted : ∀ s, (Transfers.TransfersAgg.verdict Transfers.redisTransferStateRepo C f w
      cmd).accepted = some s → f.publish₁.isOk = true →
      Acc' s.terms ∧ (s.transferInternalState ≠ .receivedPrepare → Res' s.terms)) :
    Held Acc' Res'
      (Transfers.TransfersAgg.processCommand Transfers.redisTransferStateRepo C f w cmd).repo := by
  have hbefore : ∀ id t, Transfers.redisTransferStateRepo.view w.repo id = some t →
      Acc' t.terms ∧ (t.transferInternalState ≠ .receivedPrepare → Res' t.terms) :=
    fun id t ht => ⟨hAcc _ (h.accepted id t ht), fun hst => hRes _ (h.reserved id t ht hst)⟩
  have key : ∀ id s, Transfers.redisTransferStateRepo.view
      (Transfers.TransfersAgg.processCommand Transfers.redisTransferStateRepo C f w
        cmd).repo.repo id = some s →
      Acc' s.terms ∧ (s.transferInternalState ≠ .receivedPrepare → Res' s.terms) := by
    intro id s hs
    by_cases hid : id = cmd.transferId
    · subst hid
      rw [processCommand_view_self Transfers.redis_lawful (hw.keyed cmd)] at hs
      rcases finalView_some hs with hb | ⟨ha, halias | hok⟩ | ⟨_, -, halias⟩
      · exact hbefore _ s hb
      · cases halias
      · exact haccepted s ha hok
      · cases halias
    · rw [processCommand_view_ne Transfers.redis_lawful (hw.keyed cmd) hid] at hs
      exact hbefore id s hs
  exact { accepted := fun id s hs => (key id s hs).1, reserved := fun id s hs => (key id s hs).2 }

/-- A transfer command keeps the transfers held and publishes grounded events. -/
theorem Held.processCommand (hone : OneTerms Acc) {w : Transfers.World}
    (hw : Transfers.TransfersAgg.WellKept Transfers.redisTransferStateRepo w)
    (h : Held Acc Res w) {cmd : Transfers.Command} (hg : Grounded Acc Res (.transferCmd cmd))
    (C : Crypto) (f : Transfers.Faults)
    (hnew : ∀ terms, .transferPrepareAcceptedEvt terms ∈
      (Transfers.TransfersAgg.processCommand Transfers.redisTransferStateRepo C f w cmd).published →
      Acc' terms) :
    Held Acc' Res'
        (Transfers.TransfersAgg.processCommand Transfers.redisTransferStateRepo C f w cmd).repo ∧
      ∀ m ∈ (Transfers.TransfersAgg.processCommand Transfers.redisTransferStateRepo C f w
        cmd).published, Grounded Acc' Res' (.transferEvt m) := by
  rw [processCommand_published Transfers.redis_lawful] at hnew ⊢
  have hheld := h.of_accepted hAcc hRes hw C f cmd
  rcases verdict_cases Transfers.redisTransferStateRepo C f w cmd with
    ⟨-, hv⟩ | ⟨payload, -, -, hv⟩ | ⟨_, m, hv, hm, -⟩ | ⟨s, s', events, hv, hs, hadv⟩
  · rw [hv] at hheld ⊢
    refine ⟨hheld fun s hs => (by cases hs), fun m hm => ?_⟩
    cases Verdict.mem_events_of_mem_published hm
  · rw [hv] at hheld hnew ⊢
    refine ⟨hheld fun s hs hok => ?_, fun m hm => ?_⟩
    · obtain rfl := Option.some.inj hs
      refine ⟨hnew _ ?_, fun hstate => absurd rfl hstate⟩
      rw [Verdict.published, if_pos hok]
      exact List.mem_cons_self
    · refine grounded_transferEvt (fun terms he => hnew terms (he ▸ hm)) fun terms he => ?_
      subst he
      rcases List.mem_pair.mp (Verdict.mem_events_of_mem_published hm) with he | he <;> cases he
  · rw [hv] at hheld ⊢
    refine ⟨hheld fun s hs => (by cases hs), fun m' hm' => ?_⟩
    obtain rfl := List.mem_singleton.mp (Verdict.mem_events_of_mem_published hm')
    refine grounded_transferEvt (fun terms he => ?_) fun terms he => ?_
    · rw [he] at hm
      cases hm
    · rw [he] at hm
      cases hm
  · rw [hv] at hheld ⊢
    obtain ⟨hterms, hres, hevents⟩ := advance_held hone (h.accepted _ s hs) (h.reserved _ s hs) hg
      (hw.keyed cmd s hs) hadv
    refine ⟨hheld fun t ht _ => ?_, fun m hm => ?_⟩
    · obtain rfl := Option.some.inj ht
      rw [hterms]
      exact ⟨hAcc _ (h.accepted _ s hs), fun _ => hRes _ hres⟩
    · exact (hevents m (Verdict.mem_events_of_mem_published hm)).mono hAcc hRes

end Step

/-! ## Reactions -/

/-- A published reservation: the command it answers, and that the position moved. -/
theorem published_reserved {R : StateRepo ParticipantState} {B : BigNumber}
    {f : Participants.Faults} {w : Participants.World} {cmd : Participants.Command}
    (hR : R.Lawful ParticipantState.id) (hw : Participants.ParticpantsAgg.WellKept R w)
    {payload : PayerFundsReservedEvtPayload}
    (h : .payerFundsReservedEvt payload ∈
      (Participants.ParticpantsAgg.processCommand R B f w cmd).published) :
    ∃ terms root root', cmd = .reservePayerFundsCmd terms ∧
      payload.transferId = terms.transferId ∧
      Participants.ParticpantsAgg.Moves R B w cmd root root' := by
  rw [Participants.ParticpantsAgg.processCommand_published hR (hw.keyed cmd)] at h
  have hmem := Participants.ParticpantsAgg.mem_published h
  cases hv : Participants.ParticpantsAgg.verdict R B w cmd with
  | reject => rw [hv] at hmem; cases hmem
  | refuse root events =>
    obtain ⟨m, rfl, hm⟩ := Participants.ParticpantsAgg.verdict_refuse hv
    rw [hv] at hmem
    obtain rfl := List.mem_singleton.mp hmem
    cases hm
  | create participant =>
    rw [hv] at hmem
    rcases List.mem_pair.mp hmem with he | he <;> cases he
  | snapshot root =>
    rw [hv] at hmem
    cases List.mem_singleton.mp hmem
  | move root root' events stateEvent =>
    obtain ⟨hmoves, -⟩ := Participants.ParticpantsAgg.verdict_move hv
    rw [hv] at hmem
    cases cmd with
    | createParticipantCmd participant => exact hmoves.elim
    | snapshotParticipantStateCmd participantId => exact hmoves.elim
    | reservePayerFundsCmd terms =>
      rw [Participants.ParticpantsAgg.verdict] at hv
      split at hv
      · cases hv
      · cases hv
      · obtain ⟨-, hd⟩ := Participants.ParticpantsAgg.Decision.verdict_move hv
        obtain ⟨_, _, _, _, _, _, rfl, rfl⟩ := Participants.ParticpantsAgg.decideReserve_accept hd
        rcases List.mem_pair.mp hmem with he | he
        · cases he
          exact ⟨terms, root, root', rfl, rfl, hmoves⟩
        · cases he
    | commitPayeeFundsCmd terms =>
      rw [Participants.ParticpantsAgg.verdict] at hv
      split at hv
      · cases hv
      · cases hv
      · split at hv
        · obtain ⟨-, hd⟩ := Participants.ParticpantsAgg.Decision.verdict_move hv
          obtain ⟨_, _, _, _, _, _, rfl, rfl⟩ := Participants.ParticpantsAgg.decideCommit_accept hd
          rcases List.mem_pair.mp hmem with he | he <;> cases he
        · cases hv

section React

variable {Acc Acc' Res Res' : TransferTerms → Prop} (hAcc : ∀ terms, Acc terms → Acc' terms)
  (hRes : ∀ terms, Res terms → Res' terms)

include hAcc hRes

/-- The step lemma of custody: what is published in reaction to a grounded message is
grounded, and the transfers stay held. -/
theorem react_grounded (hone : OneTerms Acc) {B : BigNumber} {C : Crypto} {f : Faults}
    {stores : Stores} (hw : WellKept stores) (h : Held Acc Res stores.transfers)
    {msg : DomainMessage} (hg : Grounded Acc Res msg)
    (hnew : ∀ terms, .transferEvt (.transferPrepareAcceptedEvt terms) ∈
      (react B C f stores msg).2 → Acc' terms)
    (hreserved : ∀ terms root root', msg = .participantCmd (.reservePayerFundsCmd terms) →
      Participants.ParticpantsAgg.Moves Participants.redisParticipantStateRepo B
        stores.participants (.reservePayerFundsCmd terms) root root' → Res' terms) :
    Held Acc' Res' (react B C f stores msg).1.transfers ∧
      ∀ m ∈ (react B C f stores msg).2, Grounded Acc' Res' m := by
  have hheld : ∀ cmd, msg = .transferCmd cmd →
      Held Acc' Res' (react B C f stores msg).1.transfers ∧
        ∀ evt ∈ (Transfers.TransfersAgg.processCommand Transfers.redisTransferStateRepo C
          f.transfers stores.transfers cmd).published, Grounded Acc' Res' (.transferEvt evt) := by
    rintro cmd rfl
    exact h.processCommand hAcc hRes hone hw.transfers hg C f.transfers
      fun terms hm => hnew terms (List.mem_map_of_mem hm)
  refine ⟨?_, fun m hm => ?_⟩
  · cases msg with
    | transferCmd cmd => exact (hheld cmd rfl).1
    | _ =>
      rw [react_transfers fun _ he => by cases he]
      exact h.mono hAcc hRes
  · cases publishes_of_mem hm with
    | transferEvt cmd evt hevt => exact (hheld cmd rfl).2 evt hevt
    | participantEvt cmd evt hevt =>
      cases evt with
      | payerFundsReservedEvt payload =>
        obtain ⟨terms, root, root', rfl, hid, hmoves⟩ :=
          published_reserved Participants.redis_lawful hw.participants hevt
        exact ⟨terms, hAcc terms hg, hreserved terms root root' rfl hmoves, hid.symm⟩
      | _ => trivial
    | participantCmd evt cmd hcmd =>
      cases evt with
      | transferPrepareAcceptedEvt terms =>
        cases hcmd
        exact hAcc terms hg
      | transferFulfilAcceptedEvt terms =>
        cases hcmd
        exact hRes terms hg
      | _ => cases hcmd
    | transferCmd _ cmd hcmd =>
      cases msg with
      | participantEvt evt =>
        cases evt with
        | payerFundsReservedEvt payload =>
          cases hcmd
          exact Backs.mono hAcc hRes hg
        | payeeFundsCommittedEvt payload =>
          cases hcmd
          trivial
        | _ => cases hcmd
      | transferPrepareRequestedEvt payload =>
        cases hcmd
        trivial
      | transferFulfilRequestedEvt payload =>
        cases hcmd
        trivial
      | _ => cases hcmd

end React

end Switch
end PocArchitecture
