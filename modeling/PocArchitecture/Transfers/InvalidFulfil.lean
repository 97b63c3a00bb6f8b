/-
What an invalid fulfilment leaves behind.

The handler answers with an event and returns false, so nothing is stored.  The error
state the entity was put in by a mismatch survives where the repository keeps the
entity itself, and is final there.  In Redis, and after a fulfilment of the wrong length
in every repository, the transfer is still reserved and the next fulfilment is welcome.
-/
import PocArchitecture.Transfers.History

namespace PocArchitecture
namespace Transfers

open PublicMessages Infrastructure
open Domain.BaseAggregate

def TransferInternalStates.isError : TransferInternalStates → Bool
  | abortedError | receivedError => true
  | _ => false

/-- Money moves, or has moved. -/
def TransferInternalStates.isSettling : TransferInternalStates → Bool
  | receivedFulfil | committed => true
  | _ => false

namespace TransfersAgg

/-- Whatever is processed later, the transfer neither reaches a settling state nor is
announced to. -/
def NeverSettles (R : StateRepo TransferState) (C : Crypto) (h : History) (id : String) : Prop :=
  ∀ (more : List Command) (cmd : Command),
    (∀ s, R.view (Machine.run (History.next R C) h more).world.repo id = some s →
      s.transferInternalState.isSettling = false) ∧
    ∀ state ∈ milestones id (processCommand R C Faults.none
        (Machine.run (History.next R C) h more).world cmd).published,
      state.isSettling = false

/-- The command leaves its transfer in an error state for good. -/
def EndsInError (R : StateRepo TransferState) (C : Crypto) (h : History) (cmd : Command) : Prop :=
  (∃ s, R.view (h.next R C cmd).world.repo cmd.transferId = some s ∧
    s.transferInternalState.isError = true) ∧
  NeverSettles R C (h.next R C cmd) cmd.transferId

section Final

variable {R : StateRepo TransferState} {C : Crypto} {w : World} {id : String} {s : TransferState}

/-- No command moves a transfer out of the error state, or announces anything for it. -/
theorem error_step (hR : R.Lawful TransferState.id) (hw : WellKept R w)
    (hs : R.view w.repo id = some s) (herr : s.transferInternalState = .receivedError)
    (cmd : Command) :
    R.view (processCommand R C Faults.none w cmd).repo.repo id = some s ∧
      milestones id (processCommand R C Faults.none w cmd).published = [] := by
  by_cases hid : id = cmd.transferId
  · subst hid
    have heff := processCommand_effect (C := C) hR hw cmd
    generalize R.view (processCommand R C Faults.none w cmd).repo.repo cmd.transferId = after
      at heff ⊢
    generalize (processCommand R C Faults.none w cmd).published = msgs at heff ⊢
    cases heff with
    | prepare payload hcmd hnew => exact absurd (hw.seen _ s hs) hnew
    | refuse m hm => exact ⟨hs, milestones_of_none hm _⟩
    | spoil m hm t ht haliased hmismatch =>
      obtain rfl := Option.some.inj (hs.symm.trans ht)
      obtain ⟨_, -, hstate, -⟩ := hmismatch
      rw [herr] at hstate
      cases hstate
    | advance t t' events ht hadv =>
      obtain rfl := Option.some.inj (hs.symm.trans ht)
      cases hadv with
      | reserve payload hstate => rw [herr] at hstate; cases hstate
      | fulfil payload hstate hfulfils => rw [herr] at hstate; cases hstate
      | commit payload hstate => rw [herr] at hstate; cases hstate
  · exact ⟨(processCommand_view_other hR hw hid).trans hs,
      processCommand_milestones_other hR hw hid⟩

theorem error_run (hR : R.Lawful TransferState.id) {h : History} (hw : WellKept R h.world)
    (hs : R.view h.world.repo id = some s) (herr : s.transferInternalState = .receivedError)
    (more : List Command) :
    WellKept R (Machine.run (History.next R C) h more).world ∧
      R.view (Machine.run (History.next R C) h more).world.repo id = some s :=
  Machine.run_always (I := fun h : History => WellKept R h.world ∧ R.view h.world.repo id = some s)
    (fun _ cmd hi =>
      ⟨hi.1.processCommand hR C Faults.none cmd, (error_step hR hi.1 hi.2 herr cmd).1⟩)
    ⟨hw, hs⟩ more

theorem error_neverSettles (hR : R.Lawful TransferState.id) {h : History} (hw : WellKept R h.world)
    (hs : R.view h.world.repo id = some s) (herr : s.transferInternalState = .receivedError) :
    NeverSettles R C h id := by
  intro more cmd
  obtain ⟨hw', hs'⟩ := error_run (C := C) hR hw hs herr more
  refine ⟨fun t ht => ?_, fun state hstate => ?_⟩
  · rw [hs'] at ht
    obtain rfl := Option.some.inj ht
    rw [herr]
    rfl
  · rw [(error_step hR hw' hs' herr cmd).2] at hstate
    cases hstate

/-- An invalid fulfilment of a reserved transfer: the answer, and what is shown afterwards. -/
theorem invalid_fulfil_step (hR : R.Lawful TransferState.id) (hw : WellKept R w)
    {payload : FulfilTransferCmdPayload} (hs : R.view w.repo payload.transferId = some s)
    (hreserved : s.transferInternalState = .reserved)
    (hinvalid : ¬ TransferState.Fulfils C s.condition payload.fulfilment) :
    (∃ reason, (processCommand R C Faults.none w (.fulfilTransferCmd payload)).published =
      [.invalidTransferEvt payload.transferId reason]) ∧
    R.view (processCommand R C Faults.none w (.fulfilTransferCmd payload)).repo.repo
        payload.transferId =
      if R.aliased = true ∧ (C.toBuffer payload.fulfilment).length = 32 then
        some { s with transferInternalState := .receivedError }
      else some s := by
  have hview := processCommand_view_self (C := C) (f := Faults.none) hR
    (hw.keyed (.fulfilTransferCmd payload))
  rw [processCommand_published hR]
  refine ⟨?_, hview.trans ?_⟩
  all_goals
    rw [verdict, hs, verdictOn, decideFulfil, if_neg (not_not.mpr hreserved)]
    rcases TransferState.fulfilTransfer_cases C s (fulfilTransferData payload) with
      ⟨hlen, hres⟩ | ⟨hlen, -, hres⟩ | ⟨hfulfils, -⟩
  · rw [hres]
    exact ⟨_, rfl⟩
  · rw [hres]
    exact ⟨_, rfl⟩
  · exact absurd hfulfils hinvalid
  · rw [hres, if_neg fun h => hlen h.2]
    change (if R.aliased = true then some s else R.view w.repo payload.transferId) = some s
    rw [hs]
    split <;> rfl
  · have hcond : (R.aliased = true ∧ (C.toBuffer payload.fulfilment).length = 32) ↔
        R.aliased = true := and_iff_left hlen
    rw [hres, if_congr hcond rfl rfl]
    change (if R.aliased = true then _ else R.view w.repo payload.transferId) = _
    rw [hs]
  · exact absurd hfulfils hinvalid

end Final

/-- An invalid fulfilment of a reserved transfer is final exactly when the repository hands
out the object it keeps and the fulfilment has the right length. -/
theorem invalid_fulfil_final_iff (kind : RepoInfraTypes) (C : Crypto) (cmds : List Command)
    (payload : FulfilTransferCmdPayload) {s : TransferState}
    (hs : kind.repo.view (history kind.repo C cmds).world.repo payload.transferId = some s)
    (hreserved : s.transferInternalState = .reserved)
    (hinvalid : ¬ TransferState.Fulfils C s.condition payload.fulfilment) :
    EndsInError kind.repo C (history kind.repo C cmds) (.fulfilTransferCmd payload) ↔
      kind ≠ .redis ∧ (C.toBuffer payload.fulfilment).length = 32 := by
  have hw := history_wellKept (C := C) kind.repo_lawful cmds
  have hview := (invalid_fulfil_step kind.repo_lawful hw hs hreserved hinvalid).2
  rw [← kind.aliased_iff]
  constructor
  · rintro ⟨⟨t, ht, herr⟩, -⟩
    by_contra hcond
    rw [if_neg hcond] at hview
    obtain rfl := Option.some.inj (hview.symm.trans ht)
    rw [hreserved] at herr
    cases herr
  · intro hcond
    rw [if_pos hcond] at hview
    exact ⟨⟨_, hview, rfl⟩, error_neverSettles kind.repo_lawful
      (hw.processCommand kind.repo_lawful C Faults.none _) hview rfl⟩

/-- The sample fulfilment, for a transfer prepared under another condition and kept in a map. -/
theorem invalid_fulfil_final_iff_sample :
    EndsInError inMemoryTransferStateRepo sampleCrypto
        (history inMemoryTransferStateRepo sampleCrypto
          [.prepareTransferCmd { samplePrepare with condition := sampleFulfil.fulfilment },
            .ackPayerFundsReservedCmd sampleAck])
        (.fulfilTransferCmd sampleFulfil) ↔
      RepoInfraTypes.inMemory ≠ .redis ∧
        (sampleCrypto.toBuffer sampleFulfil.fulfilment).length = 32 :=
  invalid_fulfil_final_iff .inMemory sampleCrypto
    [.prepareTransferCmd { samplePrepare with condition := sampleFulfil.fulfilment },
      .ackPayerFundsReservedCmd sampleAck] sampleFulfil
    (s := { TransferState.prepareTransfer (prepareTransferData samplePrepare) with
            condition := sampleFulfil.fulfilment, transferInternalState := .reserved })
    (by decide +kernel) rfl (fun h => absurd h.2 (by decide +kernel))

/-- Redis: an empty fulfilment is refused, the transfer is still reserved, and the next
fulfilment is accepted. -/
theorem invalid_fulfil_forgotten :
    (∃ reason, (processCommand redisTransferStateRepo sampleCrypto Faults.none
        (history redisTransferStateRepo sampleCrypto (sampleRun.take 2)).world
        (.fulfilTransferCmd { sampleFulfil with fulfilment := "" })).published =
      [.invalidTransferEvt "t1" reason]) ∧
    ¬ EndsInError redisTransferStateRepo sampleCrypto
      (history redisTransferStateRepo sampleCrypto (sampleRun.take 2))
      (.fulfilTransferCmd { sampleFulfil with fulfilment := "" }) := by
  refine ⟨⟨FulfilError.validateFulfilConditionFailed.text, by decide +kernel⟩, fun h => ?_⟩
  have hlater := (h.2 [] (.fulfilTransferCmd sampleFulfil)).2 .receivedFulfil (by decide +kernel)
  cases hlater

end TransfersAgg

end Transfers
end PocArchitecture
