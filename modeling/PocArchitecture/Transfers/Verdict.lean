/-
What one transfer command can do.

`verdict` is the outcome of a command as a function of the duplicate set and of what a
load of the transfer returns.  `Advances` lists the three steps a loaded transfer can
take.  The results on `processCommand` say what is published, what a later load shows
and what the duplicate set becomes, for every repository and whatever fails; the life
cycle and the composed system are derived from these.
-/
import PocArchitecture.Transfers.Aggregate
import PocArchitecture.Transfers.Repos

namespace PocArchitecture
namespace Transfers

open PublicMessages Infrastructure
open Domain (PublishOutcome Settled)
open Domain.BaseAggregate

/-- The four events that report a step of a transfer: whose, and the state it is in. -/
def Message.milestone : Message → Option (String × TransferInternalStates)
  | transferPrepareAcceptedEvt payload => some (payload.transferId, .receivedPrepare)
  | transferPreparedEvt payload => some (payload.terms.transferId, .reserved)
  | transferFulfilAcceptedEvt payload => some (payload.transferId, .receivedFulfil)
  | transferFulfilledEvt payload => some (payload.terms.transferId, .committed)
  | _ => none

namespace TransfersAgg

/-- What a command decides on the transfer it loads; a prepare loads nothing. -/
def decision (C : Crypto) : Command → Option (TransferState → Decision)
  | .prepareTransferCmd _ => none
  | .ackPayerFundsReservedCmd payload => some (decideAckPayerFundsReserved payload)
  | .fulfilTransferCmd payload => some (decideFulfil C payload)
  | .ackPayeeFundsCommittedCmd payload => some (decideAckPayeeFundsCommitted payload)

/-- The steps of a loaded transfer: the command, the transfer before and after, and what
is announced. -/
inductive Advances (C : Crypto) (s : TransferState) :
    Command → TransferState → List Message → Prop where
  | reserve (payload : AckPayload) (hstate : s.transferInternalState = .receivedPrepare) :
    Advances C s (.ackPayerFundsReservedCmd payload) s.acknowledgeTransferReserved
      [.transferPreparedEvt
          { terms := s.terms, payerEndPoints := payload.payerEndPoints,
            payeeEndPoints := payload.payeeEndPoints, prepare := s.prepare },
        .transferStateChangedStateEvt s.id .reserved]
  | fulfil (payload : FulfilTransferCmdPayload) (hstate : s.transferInternalState = .reserved)
      (hfulfils : TransferState.Fulfils C s.condition payload.fulfilment) :
    Advances C s (.fulfilTransferCmd payload)
      { s with
        fulfilment := some payload.fulfilment
        completedTimestamp := some payload.completedTimestamp
        fulfil := some (.copy payload.fulfil)
        transferInternalState := .receivedFulfil }
      [.transferFulfilAcceptedEvt s.terms,
        .transferFulfiledStateEvt
          { id := s.id, transferInternalState := .receivedFulfil,
            completedTimestamp := some payload.completedTimestamp,
            fulfil := some (.copy payload.fulfil), fulfilment := some payload.fulfilment }]
  | commit (payload : AckPayload) (hstate : s.transferInternalState = .receivedFulfil) :
    Advances C s (.ackPayeeFundsCommittedCmd payload) s.commitTransfer
      [.transferFulfilledEvt
          { terms := s.terms, payerEndPoints := payload.payerEndPoints,
            payeeEndPoints := payload.payeeEndPoints, fulfil := s.fulfil },
        .transferStateChangedStateEvt s.id .committed]

/-- A fulfilment of the right length that is not a preimage of the condition. -/
def Mismatch (C : Crypto) (s : TransferState) (cmd : Command) : Prop :=
  ∃ payload, cmd = .fulfilTransferCmd payload ∧ s.transferInternalState = .reserved ∧
    (C.toBuffer payload.fulfilment).length = 32 ∧
    ¬ TransferState.Fulfils C s.condition payload.fulfilment

/-- A refused command leaves the transfer as it was, or in error after a mismatch. -/
def Spoils (C : Crypto) (s : TransferState) (cmd : Command) (s' : TransferState) : Prop :=
  s' = s ∨ (Mismatch C s cmd ∧ s' = { s with transferInternalState := .receivedError })

/-- Every decision is a step, or a refusal with one event. -/
theorem decision_cases {C : Crypto} {cmd : Command} {decide : TransferState → Decision}
    (h : decision C cmd = some decide) (s : TransferState) :
    (∃ s' events, decide s = { root := s', events := events, success := true } ∧
      Advances C s cmd s' events) ∨
    (∃ s' reason,
      decide s = { root := s', events := [.invalidTransferEvt cmd.transferId reason],
                   success := false } ∧
      Spoils C s cmd s') := by
  cases cmd with
  | prepareTransferCmd payload => cases h
  | ackPayerFundsReservedCmd payload =>
    obtain rfl := Option.some.inj h
    rw [decideAckPayerFundsReserved]
    split
    · exact Or.inr ⟨s, _, rfl, Or.inl rfl⟩
    · rename_i hstate
      exact Or.inl ⟨_, _, rfl, .reserve payload (not_not.mp hstate)⟩
  | fulfilTransferCmd payload =>
    obtain rfl := Option.some.inj h
    rw [decideFulfil]
    split
    · exact Or.inr ⟨s, _, rfl, Or.inl rfl⟩
    · rename_i hstate
      have hreserved := not_not.mp hstate
      rcases TransferState.fulfilTransfer_cases C s (fulfilTransferData payload) with
        ⟨-, hres⟩ | ⟨hlen, hnot, hres⟩ | ⟨hfulfils, hres⟩
      · rw [hres]
        exact Or.inr ⟨s, _, rfl, Or.inl rfl⟩
      · rw [hres]
        exact Or.inr ⟨_, _, rfl, Or.inr ⟨⟨payload, rfl, hreserved, hlen, hnot⟩, rfl⟩⟩
      · rw [hres]
        exact Or.inl ⟨_, _, rfl, .fulfil payload hreserved hfulfils⟩
  | ackPayeeFundsCommittedCmd payload =>
    obtain rfl := Option.some.inj h
    rw [decideAckPayeeFundsCommitted]
    split
    · exact Or.inr ⟨s, _, rfl, Or.inl rfl⟩
    · rename_i hstate
      exact Or.inl ⟨_, _, rfl, .commit payload (not_not.mp hstate)⟩

section Steps

variable {C : Crypto} {s s' : TransferState} {cmd : Command} {events : List Message}

/-- No step touches what the prepare brought in. -/
theorem Advances.prepareData_eq (h : Advances C s cmd s' events) :
    s'.prepareData = s.prepareData := by
  cases h <;> rfl

theorem Advances.id_eq (h : Advances C s cmd s' events) : s'.id = s.id :=
  congrArg PrepareTransferData.id h.prepareData_eq

theorem Spoils.prepareData_eq (h : Spoils C s cmd s') : s'.prepareData = s.prepareData := by
  rcases h with rfl | ⟨-, rfl⟩ <;> rfl

theorem Spoils.id_eq (h : Spoils C s cmd s') : s'.id = s.id :=
  congrArg PrepareTransferData.id h.prepareData_eq

end Steps

/-! ## Verdicts -/

inductive Verdict where
  | reject
  | prepare (transfer : TransferState)
  | refuse (root : Option TransferState) (events : List Message)
  | advance (root root' : TransferState) (events : List Message)

def Decision.verdict (root : TransferState) (d : Decision) : Verdict :=
  if d.success then .advance root d.root d.events else .refuse (some d.root) d.events

/-- The verdict of a command that loads its transfer. -/
def verdictOn (transferId : String) (decide : TransferState → Decision) :
    Option TransferState → Verdict
  | none => .refuse none [.transferNotFoundEvt transferId]
  | some s => (decide s).verdict s

def verdict (R : StateRepo TransferState) (C : Crypto) (f : Faults) (w : World) (cmd : Command) :
    Verdict :=
  match cmd with
  | .prepareTransferCmd payload =>
    if f.add then
      if payload.transferId ∈ w.duplicates then
        .refuse none [.duplicateTransferDetectedEvt payload.transferId]
      else .prepare (TransferState.prepareTransfer (prepareTransferData payload))
    else .reject
  | .ackPayerFundsReservedCmd payload =>
    verdictOn payload.transferId (decideAckPayerFundsReserved payload)
      (R.view w.repo payload.transferId)
  | .fulfilTransferCmd payload =>
    verdictOn payload.transferId (decideFulfil C payload) (R.view w.repo payload.transferId)
  | .ackPayeeFundsCommittedCmd payload =>
    verdictOn payload.transferId (decideAckPayeeFundsCommitted payload)
      (R.view w.repo payload.transferId)

namespace Verdict

def events : Verdict → List Message
  | reject => []
  | prepare s => [.transferPrepareAcceptedEvt s.terms, .transferPreparedStateEvt s]
  | refuse _ events | advance _ _ events => events

def result : Verdict → Option Bool
  | reject => none
  | refuse _ _ => some false
  | prepare _ | advance _ _ _ => some true

def root : Verdict → Option TransferState
  | reject => none
  | prepare s => some s
  | refuse root _ => root
  | advance _ root' _ => some root'

/-- The transfer to be stored. -/
def accepted : Verdict → Option TransferState
  | reject | refuse _ _ => none
  | prepare s | advance _ s _ => some s

def duplicates (v : Verdict) (before : Finset String) : Finset String :=
  match v with
  | prepare s => insert s.id before
  | _ => before

/-- What a load shows when the handler is done. -/
def handledView (aliased : Bool) (before : Option TransferState) : Verdict → Option TransferState
  | reject | prepare _ | refuse none _ => before
  | refuse (some root) _ | advance _ root _ => if aliased then some root else before

/-- What reaches the topics: everything, or what each of the two calls delivered. -/
def published (f : Faults) (v : Verdict) : List Message :=
  if f.publish₁.isOk then v.events
  else f.publish₁.delivered v.events ++ f.publish₂.delivered v.events

def finalView (aliased : Bool) (f : Faults) (before : Option TransferState) (v : Verdict) :
    Option TransferState :=
  if v.accepted.isSome && f.publish₁.isOk && (f.store || aliased) then v.accepted
  else v.handledView aliased before

theorem mem_events_of_mem_published {f : Faults} {v : Verdict} {m : Message}
    (h : m ∈ v.published f) : m ∈ v.events := by
  rw [published] at h
  split at h
  · exact h
  · rcases List.mem_append.mp h with h | h <;> exact PublishOutcome.mem_of_mem_delivered h

end Verdict

section Verdicts

variable {R : StateRepo TransferState} {C : Crypto} {f : Faults} {w : World} {cmd : Command}

/-- A command other than a prepare decides on what the load shows. -/
theorem verdict_of_decision {decide : TransferState → Decision}
    (h : decision C cmd = some decide) :
    verdict R C f w cmd = verdictOn cmd.transferId decide (R.view w.repo cmd.transferId) := by
  cases cmd <;> cases h <;> rfl

/-- The four verdicts, with what is known in each. -/
theorem verdict_cases (R : StateRepo TransferState) (C : Crypto) (f : Faults) (w : World)
    (cmd : Command) :
    (f.add = false ∧ verdict R C f w cmd = .reject) ∨
    (∃ payload, cmd = .prepareTransferCmd payload ∧ payload.transferId ∉ w.duplicates ∧
      verdict R C f w cmd =
        .prepare (TransferState.prepareTransfer (prepareTransferData payload))) ∨
    (∃ root m, verdict R C f w cmd = .refuse root [m] ∧ m.milestone = none ∧
      ∀ s', root = some s' → ∃ s, R.view w.repo cmd.transferId = some s ∧ Spoils C s cmd s') ∨
    (∃ s s' events, verdict R C f w cmd = .advance s s' events ∧
      R.view w.repo cmd.transferId = some s ∧ Advances C s cmd s' events) := by
  cases hd : decision C cmd with
  | none =>
    obtain ⟨payload, rfl⟩ : ∃ payload, cmd = .prepareTransferCmd payload := by
      cases cmd with
      | prepareTransferCmd payload => exact ⟨payload, rfl⟩
      | _ => cases hd
    rw [verdict]
    split
    · split
      · exact Or.inr (Or.inr (Or.inl ⟨none, _, rfl, rfl, fun s' h => by cases h⟩))
      · exact Or.inr (Or.inl ⟨payload, rfl, ‹_›, rfl⟩)
    · exact Or.inl ⟨Bool.not_eq_true _ ▸ ‹_›, rfl⟩
  | some decide =>
    rw [verdict_of_decision hd]
    cases hv : R.view w.repo cmd.transferId with
    | none => exact Or.inr (Or.inr (Or.inl ⟨none, _, rfl, rfl, fun s' h => by cases h⟩))
    | some s =>
      rcases decision_cases hd s with ⟨s', events, hs, hadv⟩ | ⟨s', reason, hs, hspoils⟩
      · rw [verdictOn, hs]
        exact Or.inr (Or.inr (Or.inr ⟨s, s', events, rfl, rfl, hadv⟩))
      · rw [verdictOn, hs]
        refine Or.inr (Or.inr (Or.inl ⟨some s', _, rfl, rfl, fun t ht => ?_⟩))
        obtain rfl := Option.some.inj ht
        exact ⟨s, rfl, hspoils⟩

/-- The stored transfer goes by the id of the command. -/
theorem verdict_accepted_id
    (hkeyed : ∀ s, R.view w.repo cmd.transferId = some s → s.id = cmd.transferId)
    {s : TransferState} (h : (verdict R C f w cmd).accepted = some s) : s.id = cmd.transferId := by
  rcases verdict_cases R C f w cmd with
    ⟨-, hv⟩ | ⟨payload, rfl, -, hv⟩ | ⟨_, _, hv, -⟩ | ⟨root, root', _, hv, hroot, hadv⟩
  · rw [hv] at h
    cases h
  · rw [hv] at h
    cases h
    rfl
  · rw [hv] at h
    cases h
  · rw [hv] at h
    cases h
    exact hadv.id_eq.trans (hkeyed root hroot)

theorem verdict_accepted_events (h : (verdict R C f w cmd).accepted.isSome = true) :
    (verdict R C f w cmd).events ≠ [] := by
  rcases verdict_cases R C f w cmd with
    ⟨-, hv⟩ | ⟨payload, -, -, hv⟩ | ⟨_, _, hv, -⟩ | ⟨_, _, _, hv, -, hadv⟩
  · rw [hv] at h
    cases h
  · rw [hv]
    exact List.cons_ne_nil _ _
  · rw [hv] at h
    cases h
  · rw [hv]
    cases hadv <;> exact List.cons_ne_nil _ _

end Verdicts

/-! ## What a command leaves behind -/

/-- The handler did what the verdict says. -/
structure Follows (R : StateRepo TransferState) (w : World) (id : String) (v : Verdict)
    (h : Handled) : Prop where
  events : h.events = v.events
  result : h.result = v.result
  root : h.root = v.root
  duplicates : h.repo.duplicates = v.duplicates w.duplicates
  view_self : R.view h.repo.repo id = v.handledView R.aliased (R.view w.repo id)
  view_ne : ∀ id', id' ≠ id → R.view h.repo.repo id' = R.view w.repo id'

section Command

variable {R : StateRepo TransferState} {C : Crypto} {f : Faults} {w : World} {cmd : Command}

theorem onTransfer_follows (hR : R.Lawful TransferState.id) (w : World) (id : String)
    (decide : TransferState → Decision) :
    Follows R w id (verdictOn id decide (R.view w.repo id)) (onTransfer R w id decide) := by
  have hload : R.load w.repo id = ((R.load w.repo id).1, R.view w.repo id) := rfl
  rw [onTransfer, hload]
  cases hv : R.view w.repo id with
  | none =>
    exact
      { events := rfl, result := rfl, root := rfl, duplicates := rfl
        view_self := by
          rw [hv]
          exact (hR.view_load _ _ _).trans hv
        view_ne := fun id' _ => hR.view_load _ _ _ }
  | some s =>
    have hself : R.view (R.write (R.load w.repo id).1 id (decide s).root) id =
        if R.aliased then some (decide s).root else some s := by
      rw [hR.view_write_self, hR.holds_load_self, hR.view_load, hv, Option.isSome_some,
        Bool.and_true]
    have hne : ∀ id', id' ≠ id →
        R.view (R.write (R.load w.repo id).1 id (decide s).root) id' = R.view w.repo id' :=
      fun id' h => by rw [hR.view_write_ne _ _ _ _ h, hR.view_load]
    rw [verdictOn, Decision.verdict]
    cases hs : (decide s).success with
    | true =>
      exact { events := rfl, result := congrArg some hs, root := rfl, duplicates := rfl,
              view_self := by rw [hv]; exact hself, view_ne := hne }
    | false =>
      exact { events := rfl, result := congrArg some hs, root := rfl, duplicates := rfl,
              view_self := by rw [hv]; exact hself, view_ne := hne }

theorem handle_follows (hR : R.Lawful TransferState.id) :
    Follows R w cmd.transferId (verdict R C f w cmd) (handle R C f w cmd) := by
  cases cmd with
  | prepareTransferCmd payload =>
    rw [handle, processPrepareTransferCommand, verdict, addDuplicate]
    dsimp only [Command.transferId]
    split
    · by_cases hdup : payload.transferId ∈ w.duplicates
      · rw [if_pos hdup, decide_eq_false (not_not.mpr hdup), if_neg Bool.false_ne_true]
        exact
          { events := rfl, result := rfl, root := rfl
            duplicates := Finset.insert_eq_of_mem hdup
            view_self := rfl, view_ne := fun _ _ => rfl }
      · rw [if_neg hdup, decide_eq_true hdup, if_pos rfl]
        exact { events := rfl, result := rfl, root := rfl, duplicates := rfl,
                view_self := rfl, view_ne := fun _ _ => rfl }
    · exact { events := rfl, result := rfl, root := rfl, duplicates := rfl,
              view_self := rfl, view_ne := fun _ _ => rfl }
  | ackPayerFundsReservedCmd payload => exact onTransfer_follows hR w _ _
  | fulfilTransferCmd payload => exact onTransfer_follows hR w _ _
  | ackPayeeFundsCommittedCmd payload => exact onTransfer_follows hR w _ _

/-- `finish` on a handler that did what the verdict says. -/
theorem Follows.finish_eq {id : String} {v : Verdict} {h : Handled} (hf : Follows R w id v h)
    (hsome : v.accepted.isSome = true → v.events ≠ []) :
    (finish (store R f.store) f.toFaults h).published = v.published f ∧
      (finish (store R f.store) f.toFaults h).repo =
        match v.accepted with
        | some s => if f.publish₁.isOk then (store R f.store h.repo s).1 else h.repo
        | none => h.repo := by
  obtain ⟨hevents, hresult, hroot, -, -, -⟩ := hf
  unfold finish Verdict.published
  rw [hevents, hresult, hroot]
  cases v with
  | reject => simp [Verdict.events, Verdict.result, Verdict.accepted]
  | prepare s =>
    cases hok : f.publish₁.isOk <;>
      simp [Verdict.events, Verdict.result, Verdict.accepted, Verdict.root]
  | refuse root events =>
    cases hok : f.publish₁.isOk with
    | true => simp [Verdict.events, Verdict.result, Verdict.accepted]
    | false => cases events <;> simp [Verdict.events, Verdict.result, Verdict.accepted]
  | advance root root' events =>
    cases hok : f.publish₁.isOk with
    | true => simp [Verdict.events, Verdict.result, Verdict.accepted, Verdict.root]
    | false =>
      cases events with
      | nil => exact absurd rfl (hsome rfl)
      | cons m ms => simp [Verdict.events, Verdict.result, Verdict.accepted]

theorem processCommand_eq (hR : R.Lawful TransferState.id) :
    (processCommand R C f w cmd).published = (verdict R C f w cmd).published f ∧
      (processCommand R C f w cmd).repo =
        match (verdict R C f w cmd).accepted with
        | some s =>
          if f.publish₁.isOk then (store R f.store (handle R C f w cmd).repo s).1
          else (handle R C f w cmd).repo
        | none => (handle R C f w cmd).repo :=
  (handle_follows hR).finish_eq verdict_accepted_events

theorem processCommand_published (hR : R.Lawful TransferState.id) :
    (processCommand R C f w cmd).published = (verdict R C f w cmd).published f :=
  (processCommand_eq hR).1

theorem processCommand_duplicates (hR : R.Lawful TransferState.id) :
    (processCommand R C f w cmd).repo.duplicates =
      (verdict R C f w cmd).duplicates w.duplicates := by
  have hf : Follows R w cmd.transferId (verdict R C f w cmd) (handle R C f w cmd) :=
    handle_follows hR
  rw [(processCommand_eq hR).2, ← hf.duplicates]
  split
  · split <;> rfl
  · rfl

theorem processCommand_view_self (hR : R.Lawful TransferState.id)
    (hkeyed : ∀ s, R.view w.repo cmd.transferId = some s → s.id = cmd.transferId) :
    R.view (processCommand R C f w cmd).repo.repo cmd.transferId =
      (verdict R C f w cmd).finalView R.aliased f (R.view w.repo cmd.transferId) := by
  have hf : Follows R w cmd.transferId (verdict R C f w cmd) (handle R C f w cmd) :=
    handle_follows hR
  rw [(processCommand_eq hR).2, Verdict.finalView]
  cases hacc : (verdict R C f w cmd).accepted with
  | none =>
    rw [Option.isSome_none, Bool.false_and, Bool.false_and, if_neg Bool.false_ne_true]
    exact hf.view_self
  | some s =>
    have hid : s.id = cmd.transferId := verdict_accepted_id hkeyed hacc
    dsimp only
    rw [Option.isSome_some, Bool.true_and]
    cases hok : f.publish₁.isOk with
    | false =>
      rw [if_neg Bool.false_ne_true, Bool.false_and, if_neg Bool.false_ne_true]
      exact hf.view_self
    | true =>
      rw [if_pos rfl, Bool.true_and, store, ← hid, hR.view_store_self, hid, hf.view_self]

theorem processCommand_view_ne (hR : R.Lawful TransferState.id)
    (hkeyed : ∀ s, R.view w.repo cmd.transferId = some s → s.id = cmd.transferId)
    {id : String} (hne : id ≠ cmd.transferId) :
    R.view (processCommand R C f w cmd).repo.repo id = R.view w.repo id := by
  have hf : Follows R w cmd.transferId (verdict R C f w cmd) (handle R C f w cmd) :=
    handle_follows hR
  rw [(processCommand_eq hR).2]
  cases hacc : (verdict R C f w cmd).accepted with
  | none => exact hf.view_ne id hne
  | some s =>
    have hid : s.id = cmd.transferId := verdict_accepted_id hkeyed hacc
    dsimp only
    split
    · rw [store, hR.view_store_ne _ _ _ _ (by rwa [hid]), hf.view_ne id hne]
    · exact hf.view_ne id hne

end Command

end TransfersAgg

end Transfers
end PocArchitecture
