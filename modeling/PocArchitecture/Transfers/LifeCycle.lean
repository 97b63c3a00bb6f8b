/-
The life cycle of a transfer in Redis.

Whatever commands come in, in whatever order, a stored transfer goes from prepared to
reserved to fulfilled to committed, one step at a time.  Each step is announced when it
is taken and never again, and the data of the prepare stays what it was.
-/
import PocArchitecture.Transfers.History

namespace PocArchitecture
namespace Transfers

open PublicMessages Infrastructure
open Domain.BaseAggregate

/-- The order of the life cycle.  The remaining states are not on it. -/
def nextState : Option TransferInternalStates → Option TransferInternalStates
  | none => some .receivedPrepare
  | some .receivedPrepare => some .reserved
  | some .reserved => some .receivedFulfil
  | some .receivedFulfil => some .committed
  | some _ => none

/-- The steps behind a transfer in this state. -/
def passed : Option TransferInternalStates → List TransferInternalStates
  | some .receivedPrepare => [.receivedPrepare]
  | some .reserved => [.receivedPrepare, .reserved]
  | some .receivedFulfil => [.receivedPrepare, .reserved, .receivedFulfil]
  | some .committed => [.receivedPrepare, .reserved, .receivedFulfil, .committed]
  | _ => []

theorem passed_nextState {state : Option TransferInternalStates} {state' : TransferInternalStates}
    (h : nextState state = some state') : passed (some state') = passed state ++ [state'] := by
  cases state with
  | none =>
    obtain rfl := Option.some.inj h
    rfl
  | some state => cases state <;> cases h <;> rfl

namespace TransfersAgg

/-- What one command may do to a stored transfer: nothing and without a word, or the next
step, announced once, on the same data. -/
inductive LifeStep (id : String) (before : Option TransferState) :
    Option TransferState → List Message → Prop where
  | stay (msgs : List Message) (hsilent : milestones id msgs = []) :
    LifeStep id before before msgs
  | step (s' : TransferState) (msgs : List Message)
      (hnext : nextState (before.map (·.transferInternalState)) = some s'.transferInternalState)
      (hdata : ∀ s, before = some s → s'.prepareData = s.prepareData)
      (hannounced : milestones id msgs = [s'.transferInternalState]) :
    LifeStep id before (some s') msgs

theorem Advances.nextState_eq {C : Crypto} {s s' : TransferState} {cmd : Command}
    {events : List Message} (h : Advances C s cmd s' events) :
    nextState (some s.transferInternalState) = some s'.transferInternalState := by
  cases h with
  | reserve payload hstate => rw [hstate]; rfl
  | fulfil payload hstate hfulfils => rw [hstate]; rfl
  | commit payload hstate => rw [hstate]; rfl

section Redis

variable {C : Crypto}

/-- The transfer as Redis holds it. -/
def stored (w : World) (id : String) : Option TransferState := redisTransferStateRepo.view w.repo id

theorem lifeStep {w : World} (h : WellKept redisTransferStateRepo w) (cmd : Command) (id : String) :
    LifeStep id (stored w id)
      (stored (processCommand redisTransferStateRepo C Faults.none w cmd).repo id)
      (processCommand redisTransferStateRepo C Faults.none w cmd).published := by
  by_cases hid : id = cmd.transferId
  · subst hid
    have heff := processCommand_effect (C := C) redis_lawful h cmd
    unfold stored
    generalize redisTransferStateRepo.view
      (processCommand redisTransferStateRepo C Faults.none w cmd).repo.repo cmd.transferId = after
      at heff ⊢
    generalize (processCommand redisTransferStateRepo C Faults.none w cmd).published = msgs
      at heff ⊢
    cases heff with
    | prepare payload hcmd hnew =>
      rw [h.view_of_unseen hnew]
      refine .step _ _ rfl (fun s hs => by cases hs) ?_
      rw [prepare_milestones_eq, hcmd]
      exact if_pos rfl
    | refuse m hm => exact .stay _ (milestones_of_none hm _)
    | spoil m hm s hs haliased hmismatch => cases haliased
    | advance s s' events hs hadv =>
      rw [hs]
      refine .step _ _ hadv.nextState_eq (fun t ht => ?_) ?_
      · obtain rfl := Option.some.inj ht
        exact hadv.prepareData_eq
      · rw [hadv.milestones_eq, h.view_id _ s hs, if_pos rfl]
  · rw [stored, stored, processCommand_view_other redis_lawful h hid]
    exact .stay _ (processCommand_milestones_other redis_lawful h hid)

/-- Terms that are announced as accepted are stored. -/
theorem stored_of_accepted {w : World} (h : WellKept redisTransferStateRepo w) {cmd : Command}
    {terms : TransferTerms} (hm : .transferPrepareAcceptedEvt terms ∈
      (processCommand redisTransferStateRepo C Faults.none w cmd).published) :
    ∃ t, stored (processCommand redisTransferStateRepo C Faults.none w cmd).repo
      terms.transferId = some t ∧ t.terms = terms := by
  have heff := processCommand_effect (C := C) redis_lawful h cmd
  generalize (processCommand redisTransferStateRepo C Faults.none w cmd).published = msgs
    at heff hm
  generalize hafter : redisTransferStateRepo.view
    (processCommand redisTransferStateRepo C Faults.none w cmd).repo.repo cmd.transferId = after
    at heff
  cases heff with
  | prepare payload hcmd hnew =>
    subst hcmd
    rcases List.mem_pair.mp hm with he | he <;> cases he
    exact ⟨_, hafter, rfl⟩
  | refuse m hm' =>
    obtain rfl := List.mem_singleton.mp hm
    cases hm'
  | spoil m hm' s hs haliased hmismatch => cases haliased
  | advance s s' events hs hadv =>
    cases hadv <;> rcases List.mem_pair.mp hm with he | he <;> cases he

/-- Once prepared, a transfer keeps its data. -/
theorem LifeStep.prepareData_map {id : String} {before after : Option TransferState}
    {msgs : List Message} (h : LifeStep id before after msgs) :
    before = none ∨
      after.map TransferState.prepareData = before.map TransferState.prepareData := by
  cases h with
  | stay _ _ => exact Or.inr rfl
  | step s' _ _ hdata _ =>
    cases before with
    | none => exact Or.inl rfl
    | some s => exact Or.inr (congrArg some (hdata s rfl))

theorem run_prepareData {h : History} (hw : WellKept redisTransferStateRepo h.world)
    (cmds : List Command) (id : String) :
    stored h.world id = none ∨
      (stored (Machine.run (History.next redisTransferStateRepo C) h cmds).world id).map
          TransferState.prepareData =
        (stored h.world id).map TransferState.prepareData := by
  induction cmds generalizing h with
  | nil => exact Or.inr rfl
  | cons cmd cmds ih =>
    have hstep := (lifeStep (C := C) hw cmd id).prepareData_map
    have hrest := ih (h := h.next redisTransferStateRepo C cmd)
      (hw.processCommand redis_lawful C Faults.none cmd)
    rcases hstep with hnone | hstep
    · exact Or.inl hnone
    · rcases hrest with hnone | hrest
      · -- a transfer that is gone after the step was not there before it
        change (stored (h.next redisTransferStateRepo C cmd).world id).map _ = _ at hstep
        rw [hnone, Option.map_none] at hstep
        exact Or.inl (Option.map_eq_none_iff.mp hstep.symm)
      · exact Or.inr (hrest.trans hstep)

theorem milestones_history (cmds : List Command) (id : String) :
    milestones id (history redisTransferStateRepo C cmds).published =
      passed ((stored (history redisTransferStateRepo C cmds).world id).map
        (·.transferInternalState)) := by
  induction cmds using List.reverseRecOn with
  | nil => rfl
  | append_singleton cmds cmd ih =>
    have hstep := lifeStep (C := C) (history_wellKept (C := C) redis_lawful cmds) cmd id
    rw [history_append_one, History.published, History.next, List.flatMap_append,
      List.flatMap_singleton, milestones_append]
    change milestones id (history redisTransferStateRepo C cmds).published ++ _ = _
    rw [ih]
    generalize stored (history redisTransferStateRepo C cmds).world id = before at hstep ⊢
    generalize (processCommand redisTransferStateRepo C Faults.none
      (history redisTransferStateRepo C cmds).world cmd).published = msgs at hstep ⊢
    generalize stored (processCommand redisTransferStateRepo C Faults.none
      (history redisTransferStateRepo C cmds).world cmd).repo id = after at hstep ⊢
    cases hstep with
    | stay _ hsilent => rw [hsilent, List.append_nil]
    | step s' _ hnext _ hannounced =>
      rw [hannounced, Option.map_some, passed_nextState hnext]

/-- The life cycle, for every history, every transfer and every further command: what the
command does, what has been announced so far, and what no later command changes. -/
theorem life_cycle (C : Crypto) (cmds : List Command) (id : String) :
    (∀ cmd, LifeStep id (stored (history redisTransferStateRepo C cmds).world id)
      (stored (history redisTransferStateRepo C (cmds ++ [cmd])).world id)
      (processCommand redisTransferStateRepo C Faults.none
        (history redisTransferStateRepo C cmds).world cmd).published) ∧
    milestones id (history redisTransferStateRepo C cmds).published =
      passed ((stored (history redisTransferStateRepo C cmds).world id).map
        (·.transferInternalState)) ∧
    ∀ more, stored (history redisTransferStateRepo C cmds).world id = none ∨
      (stored (history redisTransferStateRepo C (cmds ++ more)).world id).map
          TransferState.prepareData =
        (stored (history redisTransferStateRepo C cmds).world id).map
          TransferState.prepareData := by
  have hw := history_wellKept (C := C) redis_lawful cmds
  refine ⟨fun cmd => ?_, milestones_history cmds id, fun more => ?_⟩
  · rw [history_append_one]
    exact lifeStep hw cmd id
  · rw [history_append]
    exact run_prepareData hw more id

end Redis

end TransfersAgg

end Transfers
end PocArchitecture
