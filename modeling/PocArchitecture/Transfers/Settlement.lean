/-
No settlement without the right fulfilment.

Every transfer a repository shows is backed by the history: by the one prepare that was
accepted for its id, from its reservation on by the acknowledgement, and from its
fulfilment on by a command whose fulfilment is a preimage of that prepare's condition.
The evidence grows with the history, and the settlement event is read off it.
-/
import PocArchitecture.Transfers.History

namespace PocArchitecture
namespace Transfers

open PublicMessages Infrastructure
open Domain.BaseAggregate

namespace TransfersAgg

/-- The command took this transfer into this state. -/
def Entry.Reports (e : Entry) (id : String) (state : TransferInternalStates) : Prop :=
  state ∈ milestones id e.published

instance (e : Entry) (id : String) (state : TransferInternalStates) :
    Decidable (e.Reports id state) :=
  inferInstanceAs (Decidable (state ∈ milestones id e.published))

/-- The number of prepares accepted for an id. -/
def acceptedPrepares (entries : List Entry) (id : String) : Nat :=
  entries.countP fun e => decide (e.Reports id .receivedPrepare)

/-! ## Evidence -/

section Evidence

variable (C : Crypto) (entries : List Entry) (id : String) (prepare : PrepareTransferCmdPayload)

/-- The prepare was accepted. -/
def Prepared : Prop :=
  ∃ e : Entry, [e].Sublist entries ∧
    e.cmd = .prepareTransferCmd prepare ∧ e.Reports id .receivedPrepare

/-- After that, the reservation was acknowledged. -/
def Reserved : Prop :=
  ∃ e₁ e₂ : Entry, [e₁, e₂].Sublist entries ∧
    (e₁.cmd = .prepareTransferCmd prepare ∧ e₁.Reports id .receivedPrepare) ∧
    ∃ ack : AckPayload, e₂.cmd = .ackPayerFundsReservedCmd ack ∧ ack.transferId = id ∧
      e₂.Reports id .reserved

/-- After that, a command brought a preimage of the condition. -/
def Fulfilled : Prop :=
  ∃ e₁ e₂ e₃ : Entry, [e₁, e₂, e₃].Sublist entries ∧
    (e₁.cmd = .prepareTransferCmd prepare ∧ e₁.Reports id .receivedPrepare) ∧
    (∃ ack : AckPayload, e₂.cmd = .ackPayerFundsReservedCmd ack ∧ ack.transferId = id ∧
      e₂.Reports id .reserved) ∧
    ∃ fulfil : FulfilTransferCmdPayload, e₃.cmd = .fulfilTransferCmd fulfil ∧
      fulfil.transferId = id ∧
      TransferState.Fulfils C prepare.condition fulfil.fulfilment

/-- What backs a transfer in this state. -/
def Backed : TransferInternalStates → Prop
  | .reserved => Reserved entries id prepare
  | .receivedFulfil | .committed => Fulfilled C entries id prepare
  | _ => Prepared entries id prepare

end Evidence

section Growth

variable {C : Crypto} {entries : List Entry} {id : String} {prepare : PrepareTransferCmdPayload}
  {e : Entry}

theorem Prepared.grow (h : Prepared entries id prepare) : Prepared (entries ++ [e]) id prepare := by
  obtain ⟨e₁, hsub, hrest⟩ := h
  exact ⟨e₁, hsub.trans (List.sublist_append_left _ _), hrest⟩

theorem Reserved.grow (h : Reserved entries id prepare) : Reserved (entries ++ [e]) id prepare := by
  obtain ⟨e₁, e₂, hsub, hrest⟩ := h
  exact ⟨e₁, e₂, hsub.trans (List.sublist_append_left _ _), hrest⟩

theorem Fulfilled.grow (h : Fulfilled C entries id prepare) :
    Fulfilled C (entries ++ [e]) id prepare := by
  obtain ⟨e₁, e₂, e₃, hsub, hrest⟩ := h
  exact ⟨e₁, e₂, e₃, hsub.trans (List.sublist_append_left _ _), hrest⟩

theorem Backed.grow {state : TransferInternalStates} (h : Backed C entries id prepare state) :
    Backed C (entries ++ [e]) id prepare state := by
  cases state with
  | reserved => exact Reserved.grow h
  | receivedFulfil => exact Fulfilled.grow h
  | committed => exact Fulfilled.grow h
  | _ => exact Prepared.grow h

theorem Reserved.prepared (h : Reserved entries id prepare) : Prepared entries id prepare := by
  obtain ⟨e₁, e₂, hsub, hprep, -⟩ := h
  exact ⟨e₁, (List.singleton_sublist.mpr List.mem_cons_self).trans hsub, hprep⟩

theorem acceptedPrepares_append (entries : List Entry) (e : Entry) (id : String) :
    acceptedPrepares (entries ++ [e]) id =
      acceptedPrepares entries id + if e.Reports id .receivedPrepare then 1 else 0 := by
  rw [acceptedPrepares, acceptedPrepares, List.countP_append, List.countP_singleton]
  by_cases h : e.Reports id .receivedPrepare <;> simp [h]

theorem acceptedPrepares_of_silent (h : ¬ e.Reports id .receivedPrepare) :
    acceptedPrepares (entries ++ [e]) id = acceptedPrepares entries id := by
  rw [acceptedPrepares_append, if_neg h, Nat.add_zero]

end Growth

/-! ## The invariant -/

/-- Where a shown transfer has its data from, and what backs its state. -/
structure Justified (C : Crypto) (entries : List Entry) (id : String) (s : TransferState)
    (prepare : PrepareTransferCmdPayload) : Prop where
  prepare_id : prepare.transferId = id
  data : s.prepareData = prepareTransferData prepare
  once : acceptedPrepares entries id = 1
  backed : Backed C entries id prepare s.transferInternalState

structure Documented (R : StateRepo TransferState) (C : Crypto) (h : History) : Prop where
  absent : ∀ id, R.view h.world.repo id = none → acceptedPrepares h.entries id = 0
  shown : ∀ id s, R.view h.world.repo id = some s → ∃ prepare, Justified C h.entries id s prepare

section Invariant

variable {R : StateRepo TransferState} {C : Crypto} {entries : List Entry} {id : String}
  {s : TransferState} {prepare : PrepareTransferCmdPayload} {e : Entry}

theorem Justified.grow (h : Justified C entries id s prepare)
    (hsilent : ¬ e.Reports id .receivedPrepare) :
    Justified C (entries ++ [e]) id s prepare where
  prepare_id := h.prepare_id
  data := h.data
  once := by rw [acceptedPrepares_of_silent hsilent, h.once]
  backed := h.backed.grow

/-- The evidence after a step of the transfer. -/
theorem Justified.advance (h : Justified C entries id s prepare) (hid : s.id = id)
    {cmd : Command} (hcmd : cmd.transferId = id) {s' : TransferState} {events : List Message}
    (hadv : Advances C s cmd s' events) :
    Justified C (entries ++ [{ cmd := cmd, published := events }]) id s' prepare where
  prepare_id := h.prepare_id
  data := hadv.prepareData_eq.trans h.data
  once := by
    rw [acceptedPrepares_of_silent, h.once]
    rw [Entry.Reports, hadv.milestones_eq, if_pos hid, List.mem_singleton]
    cases hadv <;> exact fun h => by cases h
  backed := by
    have hreports : s'.transferInternalState ∈ milestones id events := by
      rw [hadv.milestones_eq, if_pos hid]
      exact List.mem_singleton_self _
    have hbacked := h.backed
    cases hadv with
    | reserve payload hstate =>
      rw [hstate] at hbacked
      obtain ⟨e₁, hsub, hprep⟩ := hbacked
      exact ⟨e₁, _, hsub.append (List.Sublist.refl _), hprep, payload, rfl, hcmd, hreports⟩
    | fulfil payload hstate hfulfils =>
      rw [hstate] at hbacked
      obtain ⟨e₁, e₂, hsub, hprep, hack⟩ := hbacked
      have hcond : s.condition = prepare.condition :=
        congrArg PrepareTransferData.condition h.data
      exact ⟨e₁, e₂, _, hsub.append (List.Sublist.refl _), hprep, hack, payload, rfl, hcmd,
        hcond ▸ hfulfils⟩
    | commit payload hstate =>
      rw [hstate] at hbacked
      exact Fulfilled.grow hbacked

theorem Justified.spoil (h : Justified C entries id s prepare) {cmd : Command}
    (hmismatch : Mismatch C s cmd) :
    Justified C entries id { s with transferInternalState := .receivedError } prepare where
  prepare_id := h.prepare_id
  data := h.data
  once := h.once
  backed := by
    obtain ⟨payload, -, hstate, -⟩ := hmismatch
    have hbacked := h.backed
    rw [hstate] at hbacked
    exact Reserved.prepared hbacked

theorem justified_prepare (hnone : acceptedPrepares entries prepare.transferId = 0) :
    Justified C
      (entries ++ [{ cmd := .prepareTransferCmd prepare,
                     published := (Verdict.prepare
                       (TransferState.prepareTransfer (prepareTransferData prepare))).events }])
      prepare.transferId (TransferState.prepareTransfer (prepareTransferData prepare)) prepare := by
  have hreports : TransferInternalStates.receivedPrepare ∈ milestones prepare.transferId
      (Verdict.prepare (TransferState.prepareTransfer (prepareTransferData prepare))).events := by
    have hid : (TransferState.prepareTransfer (prepareTransferData prepare)).id =
        prepare.transferId := rfl
    rw [prepare_milestones_eq, if_pos hid]
    exact List.mem_singleton_self _
  exact
    { prepare_id := rfl, data := rfl
      once := by
        rw [acceptedPrepares_append, hnone, Nat.zero_add]
        exact if_pos hreports
      backed := ⟨_, List.sublist_append_right _ _, rfl, hreports⟩ }

theorem Documented.next (hR : R.Lawful TransferState.id) {h : History} (hw : WellKept R h.world)
    (hd : Documented R C h) (cmd : Command) : Documented R C (h.next R C cmd) := by
  have key : ∀ id, (R.view (h.next R C cmd).world.repo id = none →
        acceptedPrepares (h.next R C cmd).entries id = 0) ∧
      ∀ s, R.view (h.next R C cmd).world.repo id = some s →
        ∃ prepare, Justified C (h.next R C cmd).entries id s prepare := by
    intro id
    rw [History.next]
    dsimp only
    by_cases hid : id = cmd.transferId
    · subst hid
      have heff := processCommand_effect (C := C) hR hw cmd
      generalize R.view (processCommand R C Faults.none h.world cmd).repo.repo cmd.transferId =
        after at heff ⊢
      generalize (processCommand R C Faults.none h.world cmd).published = msgs at heff ⊢
      cases heff with
      | prepare payload hcmd hnew =>
        subst hcmd
        refine ⟨fun hnone => (by cases hnone), fun s hs => ?_⟩
        obtain rfl := Option.some.inj hs
        exact ⟨payload, justified_prepare (hd.absent _ (hw.view_of_unseen hnew))⟩
      | refuse m hm =>
        have hsilent : ¬ Entry.Reports { cmd := cmd, published := [m] } cmd.transferId
            .receivedPrepare := by
          rw [Entry.Reports, milestones_of_none hm]
          exact List.not_mem_nil
        refine ⟨fun hnone => ?_, fun s hs => ?_⟩
        · rw [acceptedPrepares_of_silent hsilent, hd.absent _ hnone]
        · obtain ⟨prepare, hj⟩ := hd.shown _ s hs
          exact ⟨prepare, hj.grow hsilent⟩
      | spoil m hm s hs haliased hmismatch =>
        refine ⟨fun hnone => (by cases hnone), fun s' hs' => ?_⟩
        obtain rfl := Option.some.inj hs'
        obtain ⟨prepare, hj⟩ := hd.shown _ s hs
        refine ⟨prepare, (hj.spoil hmismatch).grow ?_⟩
        rw [Entry.Reports, milestones_of_none hm]
        exact List.not_mem_nil
      | advance s s' events hs hadv =>
        refine ⟨fun hnone => (by cases hnone), fun t ht => ?_⟩
        obtain rfl := Option.some.inj ht
        obtain ⟨prepare, hj⟩ := hd.shown _ s hs
        exact ⟨prepare, hj.advance (hw.keyed cmd s hs) rfl hadv⟩
    · have hsilent : ¬ Entry.Reports
          { cmd := cmd, published := (processCommand R C Faults.none h.world cmd).published } id
          .receivedPrepare := by
        rw [Entry.Reports, processCommand_milestones_other hR hw hid]
        exact List.not_mem_nil
      rw [processCommand_view_other hR hw hid, acceptedPrepares_of_silent hsilent]
      refine ⟨hd.absent id, fun s hs => ?_⟩
      obtain ⟨prepare, hj⟩ := hd.shown id s hs
      exact ⟨prepare, hj.grow hsilent⟩
  exact { absent := fun id => (key id).1, shown := fun id => (key id).2 }

theorem history_documented (hR : R.Lawful TransferState.id) (cmds : List Command) :
    WellKept R (history R C cmds).world ∧ Documented R C (history R C cmds) := by
  refine Machine.run_always (I := fun h : History => WellKept R h.world ∧ Documented R C h)
    (fun h cmd hi => ⟨hi.1.processCommand hR C Faults.none cmd, hi.2.next hR hi.1 cmd⟩)
    ⟨wellKept_start hR, { absent := fun _ _ => rfl, shown := fun id s hs => ?_ }⟩ cmds
  change R.view RepoState.empty id = some s at hs
  rw [hR.view_empty] at hs
  cases hs

/-- The settlement event comes from the last step of a transfer and no other. -/
theorem settled_step (hR : R.Lawful TransferState.id) {w : World} (hw : WellKept R w)
    {cmd : Command} {evt : TransferFulfilledEvtPayload}
    (h : .transferFulfilledEvt evt ∈ (processCommand R C Faults.none w cmd).published) :
    ∃ s, R.view w.repo cmd.transferId = some s ∧ s.transferInternalState = .receivedFulfil ∧
      evt.terms = s.terms := by
  have heff := processCommand_effect (C := C) hR hw cmd
  generalize R.view (processCommand R C Faults.none w cmd).repo.repo cmd.transferId = after at heff
  generalize (processCommand R C Faults.none w cmd).published = msgs at heff h
  cases heff with
  | prepare payload hcmd hnew => simp [Verdict.events] at h
  | refuse m hm =>
    obtain rfl := List.mem_singleton.mp h
    cases hm
  | spoil m hm s hs haliased hmismatch =>
    obtain rfl := List.mem_singleton.mp h
    cases hm
  | advance s s' events hs hadv =>
    refine ⟨s, hs, ?_⟩
    cases hadv with
    | reserve payload hstate => simp at h
    | fulfil payload hstate hfulfils => simp at h
    | commit payload hstate =>
      simp only [List.mem_cons, Message.transferFulfilledEvt.injEq, reduceCtorEq, List.not_mem_nil,
        or_false] at h
      rw [h]
      exact ⟨hstate, rfl⟩

end Invariant

/-- When a settlement is announced, the history holds exactly one accepted prepare for the
transfer, and after it the acknowledged reservation and a command with a preimage of the
condition of that prepare; the announced terms are those of the prepare. -/
theorem settled_by_preimage (kind : RepoInfraTypes) (C : Crypto) (cmds : List Command)
    (cmd : Command) (evt : TransferFulfilledEvtPayload)
    (h : .transferFulfilledEvt evt ∈
      (processCommand kind.repo C Faults.none (history kind.repo C cmds).world cmd).published) :
    ∃ prepare, Fulfilled C (history kind.repo C cmds).entries evt.terms.transferId prepare ∧
      acceptedPrepares (history kind.repo C cmds).entries evt.terms.transferId = 1 ∧
      evt.terms = prepare.terms := by
  obtain ⟨hw, hd⟩ := history_documented (C := C) kind.repo_lawful cmds
  obtain ⟨s, hs, hstate, hterms⟩ := settled_step kind.repo_lawful hw h
  obtain ⟨prepare, hj⟩ := hd.shown _ s hs
  have hid : evt.terms.transferId = cmd.transferId := by
    rw [hterms]
    exact hw.keyed cmd s hs
  have hbacked := hj.backed
  rw [hstate] at hbacked
  refine ⟨prepare, hid ▸ hbacked, hid ▸ hj.once, hterms.trans ?_⟩
  exact TransferState.terms_eq_of_prepareData (t := .prepareTransfer (prepareTransferData prepare))
    hj.data

/-- The run of the sample transfer up to its fulfilment settles it. -/
theorem settled_by_preimage_sample :
    ∃ prepare,
      Fulfilled sampleCrypto (history redisTransferStateRepo sampleCrypto sampleRun).entries "t1"
        prepare ∧
      acceptedPrepares (history redisTransferStateRepo sampleCrypto sampleRun).entries "t1" = 1 ∧
      (samplePrepare.terms : TransferTerms) = prepare.terms :=
  settled_by_preimage .redis sampleCrypto sampleRun (.ackPayeeFundsCommittedCmd sampleAck)
    { terms := samplePrepare.terms, payerEndPoints := [], payeeEndPoints := [],
      fulfil := some (.copy none) }
    (by decide +kernel)

end TransfersAgg

end Transfers
end PocArchitecture
