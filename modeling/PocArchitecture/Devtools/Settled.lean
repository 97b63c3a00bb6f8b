/-
The loop at rest.

As long as no call fails, every stored transfer is pursued: some message in flight takes it
one step further.  Only three kinds of transfer are left to themselves: the committed ones,
those whose prepare the participants turned down, and reserved ones whose condition is not
that of the simulator's fulfilment.  Redeliveries are allowed, and change nothing of this.
-/
import PocArchitecture.Devtools.ClosedLoop
import PocArchitecture.Switch.Accounts
import PocArchitecture.Switch.OneVerdict
import PocArchitecture.Switch.Orderly

namespace PocArchitecture
namespace Devtools

open PublicMessages Infrastructure
open Switch (Accepted DomainMessage Faults Grounded Held Input PartiesHold Stores WellKept react)
open Participants (BigNumber)
open Participants.ParticpantsAgg (AllStored)
open Transfers (Crypto TransferInternalStates TransferState)
open Transfers.TransfersAgg (Advances Decision decideFulfil decision fulfilTransferData
  processCommand_view_self verdictOn verdict_of_decision)

def Item.msg : Item → DomainMessage
  | switch msg | simulator msg => msg

/-- The transfer an item takes further, and the state it looks for. -/
def Item.pursues : Item → Option (String × TransferInternalStates)
  | switch (.transferEvt (.transferPrepareAcceptedEvt terms))
  | switch (.participantCmd (.reservePayerFundsCmd terms)) =>
    some (terms.transferId, .receivedPrepare)
  | switch (.participantEvt (.payerFundsReservedEvt payload)) =>
    some (payload.transferId, .receivedPrepare)
  | switch (.transferCmd (.ackPayerFundsReservedCmd payload)) =>
    some (payload.transferId, .receivedPrepare)
  | simulator (.transferEvt (.transferPreparedEvt payload)) =>
    some (payload.terms.transferId, .reserved)
  | switch (.transferFulfilRequestedEvt payload)
  | switch (.transferCmd (.fulfilTransferCmd payload)) =>
    if payload.fulfilment = Simulator.fulfilment then some (payload.transferId, .reserved) else none
  | switch (.transferEvt (.transferFulfilAcceptedEvt terms))
  | switch (.participantCmd (.commitPayeeFundsCmd terms)) =>
    some (terms.transferId, .receivedFulfil)
  | switch (.participantEvt (.payeeFundsCommittedEvt payload)) =>
    some (payload.transferId, .receivedFulfil)
  | switch (.transferCmd (.ackPayeeFundsCommittedCmd payload)) =>
    some (payload.transferId, .receivedFulfil)
  | _ => none

/-- The transfer an item reports the reservation of. -/
def Item.confirms : Item → Option String
  | switch (.participantEvt (.payerFundsReservedEvt payload)) => some payload.transferId
  | switch (.transferCmd (.ackPayerFundsReservedCmd payload)) => some payload.transferId
  | _ => none

/-- Funds were reserved for the transfer. -/
def Done.Reserves (transferId : String) (d : Done) : Prop :=
  ∃ payload, DomainMessage.participantEvt (.payerFundsReservedEvt payload) ∈ d.published ∧
    payload.transferId = transferId

/-- The prepare was not passed on, or its reserve was refused. -/
def Done.TurnsDown (transferId : String) (d : Done) : Prop :=
  ∃ terms : TransferTerms, terms.transferId = transferId ∧
    (d.item = .switch (.transferEvt (.transferPrepareAcceptedEvt terms)) ∧ d.published = [] ∨
      d.item = .switch (.participantCmd (.reservePayerFundsCmd terms)) ∧ ¬ d.Reserves transferId)

namespace ClosedLoop

/-- Nothing more is to come of the transfer. -/
def Rests (C : Crypto) (s : ClosedLoop) (id : String) (t : TransferState) : Prop :=
  t.transferInternalState = .committed ∨
    (t.transferInternalState = .receivedPrepare ∧ ∃ d ∈ s.done, d.TurnsDown id) ∨
    (t.transferInternalState = .reserved ∧
      ¬ TransferState.Fulfils C t.condition Simulator.fulfilment)

/-- The parties hold accounts, and a reserve for the transfer went through. -/
def Backed (s : ClosedLoop) (terms : TransferTerms) : Prop :=
  PartiesHold s.stores.participants terms ∧ ∃ d ∈ s.done, d.Reserves terms.transferId

/-- Nothing is in flight, and nothing is left half done. -/
def AtRest (C : Crypto) (s : ClosedLoop) : Prop :=
  s.pending = [] ∧ ∀ id t, s.stores.transfer id = some t →
    s.Rests C id t ∧
      ((∃ d ∈ s.done, d.Reserves id) ↔ t.transferInternalState ≠ .receivedPrepare)

structure Settling (C : Crypto) (s : ClosedLoop) : Prop where
  wellKept : WellKept s.stores
  allStored : AllStored s.stores.participants
  held : Held (Accepted s.stores) s.Backed s.stores.transfers
  grounded : ∀ item, item ∈ s.pending ∨ item ∈ s.done.map (·.item) →
    Grounded (Accepted s.stores) s.Backed item.msg
  pursued : ∀ id t, s.stores.transfer id = some t →
    s.Rests C id t ∨ ∃ item ∈ s.pending, item.pursues = some (id, t.transferInternalState)
  confirmed : ∀ d ∈ s.done, ∀ id, d.Reserves id → ∃ t, s.stores.transfer id = some t ∧
    (t.transferInternalState = .receivedPrepare → ∃ item ∈ s.pending, item.confirms = some id)

/-! ## One delivery -/

section Reaction

variable {B : BigNumber} {C : Crypto} {S : Simulator} {c : Circumstances} {stores : Stores}
  {id : String} {t : TransferState}

/-- The step a command finds the transfer ready for is its decision. -/
theorem decision_of_advances {cmd : Transfers.Command} {t' : TransferState}
    {events : List Transfers.Message} (h : Advances C t cmd t' events) :
    ∃ decide, decision C cmd = some decide ∧
      decide t = { root := t', events := events, success := true } := by
  cases h with
  | reserve payload hstate => exact ⟨_, rfl, if_neg (not_not.mpr hstate)⟩
  | fulfil payload hstate hfulfils =>
    refine ⟨_, rfl, ?_⟩
    rw [decideFulfil, if_neg (not_not.mpr hstate)]
    rcases TransferState.fulfilTransfer_cases C t (fulfilTransferData payload) with
      ⟨hlen, -⟩ | ⟨-, hnot, -⟩ | ⟨-, hres⟩
    · exact absurd hfulfils.1 hlen
    · exact absurd hfulfils hnot
    · rw [hres]
      rfl
  | commit payload hstate => exact ⟨_, rfl, if_neg (not_not.mpr hstate)⟩

/-- A step that the stored transfer is ready for is taken. -/
theorem transfer_of_advances (hw : WellKept stores) {cmd : Transfers.Command} {t' : TransferState}
    {events : List Transfers.Message} (h : Advances C t cmd t' events)
    (ht : stores.transfer cmd.transferId = some t) :
    (react B C Faults.none stores (.transferCmd cmd)).1.transfer cmd.transferId = some t' := by
  obtain ⟨decide, hdecide, hdecided⟩ := decision_of_advances h
  refine (processCommand_view_self Transfers.redis_lawful (hw.transfers.keyed cmd)).trans ?_
  rw [verdict_of_decision hdecide]
  change (verdictOn cmd.transferId decide (stores.transfer cmd.transferId)).finalView _ _ _ = _
  rw [ht, verdictOn, hdecided, Decision.verdict, if_pos rfl]
  rfl

theorem moved_of_advances (hw : WellKept stores) {cmd : Transfers.Command} {t' : TransferState}
    {events : List Transfers.Message} (h : Advances C t cmd t' events)
    (ht : stores.transfer cmd.transferId = some t) :
    (react B C Faults.none stores (.transferCmd cmd)).1.transfer cmd.transferId ≠ some t := by
  rw [transfer_of_advances hw h ht]
  intro hsame
  obtain rfl := Option.some.inj hsame
  have hnext := h.nextState_eq
  cases hstate : t'.transferInternalState <;> rw [hstate] at hnext <;> cases hnext

/-- The messages of a life step are in flight, for the switch or for the simulator. -/
theorem pursues_of_announces {m : DomainMessage} {state : TransferInternalStates}
    (h : Switch.announces id state m = true) (hstate : state ≠ .committed) :
    ∃ item ∈ fanOut m, item.pursues = some (id, state) := by
  cases m with
  | transferEvt evt =>
    have hmilestone : evt.milestone = some (id, state) := of_decide_eq_true h
    cases evt with
    | transferPrepareAcceptedEvt terms => exact ⟨_, List.mem_cons_self, hmilestone⟩
    | transferPreparedEvt payload =>
      exact ⟨.simulator _, List.mem_cons_of_mem _ List.mem_cons_self, hmilestone⟩
    | transferFulfilAcceptedEvt terms => exact ⟨_, List.mem_cons_self, hmilestone⟩
    | transferFulfilledEvt payload =>
      cases hmilestone
      exact absurd rfl hstate
    | _ => cases hmilestone
  | _ => cases h

/-- A stored transfer stays as it is, or its new state is announced. -/
theorem stays_or_pursued (hw : WellKept stores) (msg : DomainMessage)
    (ht : (react B C Faults.none stores msg).1.transfer id = some t) :
    stores.transfer id = some t ∨ t.transferInternalState = .committed ∨
      ∃ item ∈ (react B C Faults.none stores msg).2.flatMap fanOut,
        item.pursues = some (id, t.transferInternalState) := by
  obtain ⟨msgs, hstep, hcount⟩ := Switch.react_lifeStep B C hw msg id
  generalize hafter : (react B C Faults.none stores msg).1.transfer id = after at hstep ht
  cases hstep with
  | stay _ _ => exact Or.inl ht
  | step s' _ hnext hdata hannounced =>
    obtain rfl := Option.some.inj ht
    by_cases hcommitted : s'.transferInternalState = .committed
    · exact Or.inr (Or.inl hcommitted)
    have hpos : 0 < (react B C Faults.none stores msg).2.countP
        (Switch.announces id s'.transferInternalState) := by
      rw [hcount, hannounced, List.count_singleton_self]
      exact Nat.one_pos
    obtain ⟨m, hm, hannounces⟩ := List.countP_pos_iff.mp hpos
    obtain ⟨item, hitem, hpursues⟩ := pursues_of_announces hannounces hcommitted
    exact Or.inr (Or.inr ⟨item, List.mem_flatMap.mpr ⟨m, hm, hitem⟩, hpursues⟩)

/-- No step leads back to the first state. -/
theorem receivedPrepare_before (hw : WellKept stores) (msg : DomainMessage)
    (ht : stores.transfer id = some t) :
    ∃ t', (react B C Faults.none stores msg).1.transfer id = some t' ∧
      (t'.transferInternalState = .receivedPrepare → t' = t) := by
  obtain ⟨msgs, hstep, -⟩ := Switch.react_lifeStep B C hw msg id
  rw [ht] at hstep
  generalize (react B C Faults.none stores msg).1.transfer id = after at hstep
  cases hstep with
  | stay _ _ => exact ⟨t, rfl, fun _ => rfl⟩
  | step s' _ hnext _ _ =>
    refine ⟨s', rfl, fun hstate => ?_⟩
    rw [hstate, Option.map_some] at hnext
    cases hcase : t.transferInternalState <;> rw [hcase] at hnext <;> cases hnext

/-- The confirmation of a reservation is passed on until the transfer is reserved. -/
theorem confirms_on (hw : WellKept stores) {msg : DomainMessage}
    (hconfirms : (Item.switch msg).confirms = some id) (ht : stores.transfer id = some t)
    (hstate : t.transferInternalState = .receivedPrepare) :
    (∃ item ∈ (react B C Faults.none stores msg).2.flatMap fanOut, item.confirms = some id) ∨
      ∃ t', (react B C Faults.none stores msg).1.transfer id = some t' ∧
        t'.transferInternalState = .reserved := by
  cases msg with
  | participantEvt evt =>
    cases evt with
    | payerFundsReservedEvt payload => exact Or.inl ⟨_, List.mem_cons_self, hconfirms⟩
    | _ => cases hconfirms
  | transferCmd cmd =>
    cases cmd with
    | ackPayerFundsReservedCmd payload =>
      obtain rfl := Option.some.inj hconfirms
      exact Or.inr ⟨_, transfer_of_advances hw (.reserve payload hstate) ht, rfl⟩
    | _ => cases hconfirms
  | _ => cases hconfirms

/-- An event of the transfers side that calls for a command to a participant the event handler
knows. -/
theorem react_transferEvt {evt : Transfers.Message} {cmd : Participants.Command}
    (hcmd : Switch.participantEvtHandler evt = some cmd)
    (hknown : Switch.KnownToHandler stores cmd.rootId) :
    (react B C Faults.none stores (.transferEvt evt)).2 = [.participantCmd cmd] := by
  change (Switch.reactToTransferEvt Faults.none stores evt).2 = _
  rw [Switch.reactToTransferEvt, hcmd]
  dsimp only
  rw [(Switch.lookUp_isSome stores cmd.rootId).mpr hknown]
  rfl

theorem knownToHandler_of_stored {participantId : String} {currency : CurrencyTypes}
    (h : Switch.HoldsAccount stores.participants participantId currency) :
    Switch.KnownToHandler stores participantId := by
  obtain ⟨participant, hstored, -⟩ := h
  refine Or.inr ?_
  have hget : stores.participants.repo.redis.get (Participants.keyWithPrefix participantId) =
      some participant := hstored
  rw [hget]
  rfl

/-- A message that pursues a transfer does so once it is in flight. -/
theorem pursues_of_mem {msgs : List DomainMessage} {m : DomainMessage} (hm : m ∈ msgs)
    {pursued : Option (String × TransferInternalStates)} (h : (Item.switch m).pursues = pursued) :
    ∃ next ∈ msgs.flatMap fanOut, next.pursues = pursued :=
  ⟨_, List.mem_flatMap.mpr ⟨m, hm, List.mem_cons_self⟩, h⟩

/-- A command to the transfer takes it further, unless it is a fulfil that does not fulfil the
condition. -/
theorem pursue_transferCmd (hw : WellKept stores) {cmd : Transfers.Command}
    (ht : stores.transfer id = some t)
    (hpursues : (Item.switch (.transferCmd cmd)).pursues = some (id, t.transferInternalState)) :
    (react B C Faults.none stores (.transferCmd cmd)).1.transfer id ≠ some t ∨
      (t.transferInternalState = .reserved ∧
        ¬ TransferState.Fulfils C t.condition Simulator.fulfilment) := by
  cases cmd with
  | prepareTransferCmd payload => cases hpursues
  | ackPayerFundsReservedCmd payload =>
    obtain ⟨rfl, hstate⟩ := Prod.mk.inj (Option.some.inj hpursues)
    exact Or.inl (moved_of_advances hw (.reserve payload hstate.symm) ht)
  | fulfilTransferCmd payload =>
    rw [Item.pursues] at hpursues
    split at hpursues
    · rename_i hfulfilment
      obtain ⟨rfl, hstate⟩ := Prod.mk.inj (Option.some.inj hpursues)
      by_cases hfulfils : TransferState.Fulfils C t.condition Simulator.fulfilment
      · rw [← hfulfilment] at hfulfils
        exact Or.inl (moved_of_advances hw (.fulfil payload hstate.symm hfulfils) ht)
      · exact Or.inr ⟨hstate.symm, hfulfils⟩
    · cases hpursues
  | ackPayeeFundsCommittedCmd payload =>
    obtain ⟨rfl, hstate⟩ := Prod.mk.inj (Option.some.inj hpursues)
    exact Or.inl (moved_of_advances hw (.commit payload hstate.symm) ht)

section Followed

variable {state : TransferInternalStates} {Res : TransferTerms → Prop}

/-- An event of the transfer makes the participants' handler send its command, unless the
handler does not know the payer. -/
theorem pursue_transferEvt {evt : Transfers.Message}
    (hg : Grounded (Accepted stores) Res (.transferEvt evt))
    (hparties : ∀ terms, Res terms → PartiesHold stores.participants terms)
    (hpursues : (Item.switch (.transferEvt evt)).pursues = some (id, state)) :
    (∃ next ∈ (react B C Faults.none stores (.transferEvt evt)).2.flatMap fanOut,
        next.pursues = some (id, state)) ∨
      (state = .receivedPrepare ∧ Done.TurnsDown id
        { item := .switch (.transferEvt evt)
          published := (react B C Faults.none stores (.transferEvt evt)).2 }) := by
  cases evt with
  | transferPrepareAcceptedEvt terms =>
    obtain ⟨hid, hstate⟩ := Prod.mk.inj (Option.some.inj hpursues)
    by_cases hknown : Switch.KnownToHandler stores terms.payerId
    · have hcmd : Switch.participantEvtHandler (.transferPrepareAcceptedEvt terms) =
          some (.reservePayerFundsCmd terms) := rfl
      refine Or.inl (pursues_of_mem (m := .participantCmd (.reservePayerFundsCmd terms)) ?_ hpursues)
      rw [react_transferEvt hcmd hknown]
      exact List.mem_cons_self
    · refine Or.inr ⟨hstate.symm, terms, hid, Or.inl ⟨rfl, ?_⟩⟩
      rw [← Switch.lookUp_isSome, Bool.not_eq_true] at hknown
      change (if (Switch.lookUp stores terms.payerId).2.isSome && true then _ else []) = _
      rw [hknown]
      rfl
  | transferFulfilAcceptedEvt terms =>
    have hcmd : Switch.participantEvtHandler (.transferFulfilAcceptedEvt terms) =
        some (.commitPayeeFundsCmd terms) := rfl
    refine Or.inl (pursues_of_mem (m := .participantCmd (.commitPayeeFundsCmd terms)) ?_ hpursues)
    rw [react_transferEvt hcmd (knownToHandler_of_stored (hparties terms hg).2)]
    exact List.mem_cons_self
  | _ => cases hpursues

/-- A command to a participant is answered with its event, unless it is a reserve that is
refused. -/
theorem pursue_participantCmd (hw : WellKept stores) {cmd : Participants.Command}
    (hg : Grounded (Accepted stores) Res (.participantCmd cmd))
    (hparties : ∀ terms, Res terms → PartiesHold stores.participants terms)
    (hpursues : (Item.switch (.participantCmd cmd)).pursues = some (id, state)) :
    (∃ next ∈ (react B C Faults.none stores (.participantCmd cmd)).2.flatMap fanOut,
        next.pursues = some (id, state)) ∨
      (state = .receivedPrepare ∧ Done.TurnsDown id
        { item := .switch (.participantCmd cmd)
          published := (react B C Faults.none stores (.participantCmd cmd)).2 }) := by
  cases cmd with
  | reservePayerFundsCmd terms =>
    obtain ⟨hid, hstate⟩ := Prod.mk.inj (Option.some.inj hpursues)
    by_cases hreserves : Done.Reserves id
        { item := .switch (.participantCmd (.reservePayerFundsCmd terms))
          published := (react B C Faults.none stores
            (.participantCmd (.reservePayerFundsCmd terms))).2 }
    · obtain ⟨payload, hm, hpayload⟩ := hreserves
      exact Or.inl (pursues_of_mem hm (by rw [← hpayload, ← hstate]; rfl))
    · exact Or.inr ⟨hstate.symm, terms, hid, Or.inr ⟨rfl, hreserves⟩⟩
  | commitPayeeFundsCmd terms =>
    obtain ⟨hid, hstate⟩ := Prod.mk.inj (Option.some.inj hpursues)
    obtain ⟨root, root', hmoves⟩ := Participants.ParticpantsAgg.admits_iff.mp
      (hparties terms hg).admits_commit
    rcases Switch.published_of_moves hw.participants hmoves with
      ⟨_, _, hcmd, -⟩ | ⟨_, payload, hcmd, hpayload, hm⟩
    · cases hcmd
    · cases hcmd
      refine Or.inl (pursues_of_mem (m := .participantEvt (.payeeFundsCommittedEvt payload))
        (List.mem_map_of_mem hm) ?_)
      rw [← hid, ← hpayload, ← hstate]
      rfl
  | _ => cases hpursues

end Followed

/-- A delivered item that pursues a transfer takes it further, is followed by another one, or
leaves it to itself. -/
theorem pursue_on (hw : WellKept stores) {item : Item} {Res : TransferTerms → Prop}
    (hg : Grounded (Accepted stores) Res item.msg)
    (hparties : ∀ terms, Res terms → PartiesHold stores.participants terms)
    (ht : stores.transfer id = some t) (hc : c.faults = Faults.none)
    (hpursues : item.pursues = some (id, t.transferInternalState)) :
    (∃ next ∈ (reactTo B C S c stores item).2.flatMap fanOut,
        next.pursues = some (id, t.transferInternalState)) ∨
      (reactTo B C S c stores item).1.transfer id ≠ some t ∨
      (t.transferInternalState = .receivedPrepare ∧
        Done.TurnsDown id { item := item, published := (reactTo B C S c stores item).2 }) ∨
      (t.transferInternalState = .reserved ∧
        ¬ TransferState.Fulfils C t.condition Simulator.fulfilment) := by
  cases item with
  | simulator msg =>
    cases msg with
    | transferEvt evt =>
      cases evt with
      | transferPreparedEvt payload =>
        refine Or.inl (pursues_of_mem (m := .transferFulfilRequestedEvt
          (S.transferFulfilRequestedEvtPayload c.now payload)) ?_ hpursues)
        rw [reactTo, Simulator.simulatorEvtHandler, hc]
        exact List.mem_cons_self
      | _ => cases hpursues
    | _ => cases hpursues
  | switch msg =>
    rw [reactTo, hc]
    cases msg with
    | transferPrepareRequestedEvt payload => cases hpursues
    | transferFulfilRequestedEvt payload =>
      exact Or.inl (pursues_of_mem List.mem_cons_self hpursues)
    | transferCmd cmd =>
      rcases pursue_transferCmd hw ht hpursues with hmoved | hunfulfilled
      · exact Or.inr (Or.inl hmoved)
      · exact Or.inr (Or.inr (Or.inr hunfulfilled))
    | transferEvt evt =>
      rcases pursue_transferEvt hg hparties hpursues with hnext | hdown
      · exact Or.inl hnext
      · exact Or.inr (Or.inr (Or.inl hdown))
    | participantCmd cmd =>
      rcases pursue_participantCmd hw hg hparties hpursues with hnext | hdown
      · exact Or.inl hnext
      · exact Or.inr (Or.inr (Or.inl hdown))
    | participantEvt evt =>
      cases evt with
      | payerFundsReservedEvt payload =>
        exact Or.inl (pursues_of_mem List.mem_cons_self hpursues)
      | payeeFundsCommittedEvt payload =>
        exact Or.inl (pursues_of_mem List.mem_cons_self hpursues)
      | _ => cases hpursues

end Reaction

/-! ## Every delivery -/

theorem msg_of_mem_fanOut {msg : DomainMessage} {item : Item} (h : item ∈ fanOut msg) :
    item.msg = msg := by
  rw [fanOut] at h
  rcases List.mem_cons.mp h with rfl | h
  · rfl
  · split at h
    · obtain rfl := List.mem_singleton.mp h
      rfl
    · cases h

section Handle

variable {B : BigNumber} {C : Crypto} {S : Simulator} {s : ClosedLoop} {item : Item}

/-- Nothing fails. -/
def calm (now : String) : Circumstances := { faults := Faults.none, now := now }

theorem reactTo_allStored (hw : WellKept s.stores) (hall : AllStored s.stores.participants)
    (now : String) (item : Item) :
    AllStored (reactTo B C S (calm now) s.stores item).1.participants := by
  cases item with
  | simulator msg => exact hall
  | switch msg =>
    cases msg with
    | participantCmd cmd => exact hall.process hw.participants B cmd
    | _ =>
      rw [reactTo, Switch.react_participants fun _ hm => by cases hm]
      exact hall

theorem reactTo_partiesHold (hw : WellKept s.stores) (hall : AllStored s.stores.participants)
    (now : String) (item : Item) {terms : TransferTerms}
    (h : PartiesHold s.stores.participants terms) :
    PartiesHold (reactTo B C S (calm now) s.stores item).1.participants terms := by
  cases item with
  | simulator msg => exact h
  | switch msg =>
    cases msg with
    | participantCmd cmd => exact h.process hw.participants hall
    | _ =>
      rw [reactTo, Switch.react_participants fun _ hm => by cases hm]
      exact h

theorem reactTo_accepted (hw : WellKept s.stores) (now : String) (item : Item)
    {terms : TransferTerms} (h : Accepted s.stores terms) :
    Accepted (reactTo B C S (calm now) s.stores item).1 terms := by
  cases item with
  | simulator msg => exact h
  | switch msg => exact h.react hw

/-- What is kept of a delivery is on record. -/
theorem mem_done_handle (rest : List Item) (now : String) :
    { item := item, published := (reactTo B C S (calm now) s.stores item).2 } ∈
      (handle B C S { s with pending := rest } item (calm now)).done :=
  List.mem_append_right _ List.mem_cons_self

theorem Backed.handle (hw : WellKept s.stores) (hall : AllStored s.stores.participants)
    (rest : List Item) (now : String) {terms : TransferTerms} (h : s.Backed terms) :
    (handle B C S { s with pending := rest } item (calm now)).Backed terms := by
  obtain ⟨hparties, d, hd, hreserves⟩ := h
  exact ⟨reactTo_partiesHold hw hall now item hparties, d, List.mem_append_left _ hd, hreserves⟩

/-- A reserve that goes through backs its terms. -/
theorem backed_of_moves (hw : WellKept s.stores) (hall : AllStored s.stores.participants)
    (rest : List Item) (now : String) {terms : TransferTerms}
    (hitem : item = .switch (.participantCmd (.reservePayerFundsCmd terms)))
    {root root' : Participants.ParticipantState}
    (h : Participants.ParticpantsAgg.Moves Participants.redisParticipantStateRepo B
      s.stores.participants (.reservePayerFundsCmd terms) root root') :
    (handle B C S { s with pending := rest } item (calm now)).Backed terms := by
  subst hitem
  refine ⟨reactTo_partiesHold hw hall now _ (Switch.partiesHold_of_moves hall h),
    _, mem_done_handle rest now, ?_⟩
  rcases Switch.published_of_moves hw.participants h with
    ⟨_, payload, hcmd, hpayload, hm⟩ | ⟨_, _, hcmd, -⟩
  · cases hcmd
    exact ⟨payload, List.mem_map_of_mem hm, hpayload⟩
  · cases hcmd

namespace Settling

/-- What is published is grounded, and the transfers stay held. -/
theorem custody (h : Settling C s) (rest : List Item) (now : String)
    (hg : Grounded (Accepted s.stores) s.Backed item.msg) :
    Held (Accepted (reactTo B C S (calm now) s.stores item).1)
        (handle B C S { s with pending := rest } item (calm now)).Backed
        (reactTo B C S (calm now) s.stores item).1.transfers ∧
      ∀ m ∈ (reactTo B C S (calm now) s.stores item).2,
        Grounded (Accepted (reactTo B C S (calm now) s.stores item).1)
          (handle B C S { s with pending := rest } item (calm now)).Backed m := by
  have hAcc : ∀ terms, Accepted s.stores terms →
      Accepted (reactTo B C S (calm now) s.stores item).1 terms :=
    fun _ ha => reactTo_accepted h.wellKept now item ha
  have hRes : ∀ terms, s.Backed terms →
      (handle B C S { s with pending := rest } item (calm now)).Backed terms :=
    fun _ hb => hb.handle h.wellKept h.allStored rest now
  cases item with
  | simulator msg =>
    refine ⟨h.held.mono hAcc hRes, fun m hm => ?_⟩
    obtain ⟨payload, rfl⟩ := S.mem_simulatorEvtHandler now hm
    trivial
  | switch msg =>
    exact Switch.react_grounded hAcc hRes (Switch.oneTerms_accepted _) h.wellKept h.held hg
      (fun terms hm => Switch.accepted_of_published h.wellKept hm)
      fun terms root root' hmsg hmoves =>
        backed_of_moves h.wellKept h.allStored rest now (by rw [hmsg]) hmoves

/-- What the delivery of an item leaves in flight. -/
theorem mem_pending_handle {rest : List Item} {now : String} {i : Item} :
    i ∈ (ClosedLoop.handle B C S { s with pending := rest } item (calm now)).pending ↔
      i ∈ rest ∨ i ∈ (reactTo B C S (calm now) s.stores item).2.flatMap fanOut := List.mem_append

theorem pursued_handle (h : Settling C s) {rest : List Item}
    (hrest : ∀ i ∈ s.pending, i = item ∨ i ∈ rest) (now : String)
    (hg : Grounded (Accepted s.stores) s.Backed item.msg) {id : String} {t : TransferState}
    (ht : (ClosedLoop.handle B C S { s with pending := rest } item (calm now)).stores.transfer id =
      some t) :
    (ClosedLoop.handle B C S { s with pending := rest } item (calm now)).Rests C id t ∨
      ∃ i ∈ (ClosedLoop.handle B C S { s with pending := rest } item (calm now)).pending,
        i.pursues = some (id, t.transferInternalState) := by
  have hcases : s.stores.transfer id = some t ∨ t.transferInternalState = .committed ∨
      ∃ i ∈ (reactTo B C S (calm now) s.stores item).2.flatMap fanOut,
        i.pursues = some (id, t.transferInternalState) := by
    cases item with
    | simulator msg => exact Or.inl ht
    | switch msg => exact stays_or_pursued h.wellKept msg ht
  rcases hcases with hbefore | hcommitted | ⟨i, hi, hpursues⟩
  · rcases h.pursued id t hbefore with hrests | ⟨i, hi, hpursues⟩
    · rcases hrests with hcommitted | ⟨hstate, d, hd, hdown⟩ | hreserved
      · exact Or.inl (Or.inl hcommitted)
      · exact Or.inl (Or.inr (Or.inl ⟨hstate, d, List.mem_append_left _ hd, hdown⟩))
      · exact Or.inl (Or.inr (Or.inr hreserved))
    · rcases hrest i hi with rfl | hi
      · rcases pursue_on (B := B) (S := S) h.wellKept hg (fun _ hb => hb.1) hbefore
          (c := calm now) rfl hpursues with ⟨next, hnext, hpursues'⟩ | hmoved | ⟨hstate, hdown⟩ | hres
        · exact Or.inr ⟨next, mem_pending_handle.mpr (Or.inr hnext), hpursues'⟩
        · exact absurd ht hmoved
        · exact Or.inl (Or.inr (Or.inl ⟨hstate, _, mem_done_handle rest now, hdown⟩))
        · exact Or.inl (Or.inr (Or.inr hres))
      · exact Or.inr ⟨i, mem_pending_handle.mpr (Or.inl hi), hpursues⟩
  · exact Or.inl (Or.inl hcommitted)
  · exact Or.inr ⟨i, mem_pending_handle.mpr (Or.inr hi), hpursues⟩

theorem confirmed_handle (h : Settling C s) {rest : List Item}
    (hrest : ∀ i ∈ s.pending, i = item ∨ i ∈ rest) (now : String)
    (hpub : ∀ m ∈ (reactTo B C S (calm now) s.stores item).2,
      Grounded (Accepted (reactTo B C S (calm now) s.stores item).1)
        (ClosedLoop.handle B C S { s with pending := rest } item (calm now)).Backed m)
    {d : Done} (hd : d ∈ (ClosedLoop.handle B C S { s with pending := rest } item (calm now)).done)
    {id : String} (hreserves : d.Reserves id) :
    ∃ t, (reactTo B C S (calm now) s.stores item).1.transfer id = some t ∧
      (t.transferInternalState = .receivedPrepare →
        ∃ i ∈ (ClosedLoop.handle B C S { s with pending := rest } item (calm now)).pending,
          i.confirms = some id) := by
  rcases List.mem_append.mp hd with hd | hd
  · obtain ⟨t, ht, hconfirmed⟩ := h.confirmed d hd id hreserves
    have hback : ∃ t', (reactTo B C S (calm now) s.stores item).1.transfer id = some t' ∧
        (t'.transferInternalState = .receivedPrepare → t' = t) := by
      cases item with
      | simulator msg => exact ⟨t, ht, fun _ => rfl⟩
      | switch msg => exact receivedPrepare_before h.wellKept msg ht
    obtain ⟨t', ht', hsame⟩ := hback
    refine ⟨t', ht', fun hstate => ?_⟩
    obtain rfl := hsame hstate
    obtain ⟨i, hi, hconfirms⟩ := hconfirmed hstate
    rcases hrest i hi with rfl | hi
    · cases i with
      | simulator msg => cases hconfirms
      | switch msg =>
        rcases confirms_on (B := B) (C := C) h.wellKept hconfirms ht hstate with
          ⟨next, hnext, hconfirms'⟩ | ⟨t'', ht'', hreserved⟩
        · exact ⟨next, mem_pending_handle.mpr (Or.inr hnext), hconfirms'⟩
        · have hsame' := Option.some.inj (ht''.symm.trans ht')
          rw [hsame', hstate] at hreserved
          cases hreserved
    · exact ⟨i, mem_pending_handle.mpr (Or.inl hi), hconfirms⟩
  · -- the reservation was just announced, for accepted terms
    obtain rfl := List.mem_singleton.mp hd
    obtain ⟨payload, hm, rfl⟩ := hreserves
    obtain ⟨terms, ⟨t, ht, hterms⟩, -, hid⟩ := hpub _ hm
    rw [hid] at ht
    refine ⟨t, ht, fun _ => ⟨.switch (.participantEvt (.payerFundsReservedEvt payload)), ?_, rfl⟩⟩
    exact mem_pending_handle.mpr (Or.inr (List.mem_flatMap.mpr ⟨_, hm, List.mem_cons_self⟩))

theorem handle (h : Settling C s) {rest : List Item} (hsub : ∀ i ∈ rest, i ∈ s.pending)
    (hrest : ∀ i ∈ s.pending, i = item ∨ i ∈ rest)
    (hitem : item ∈ s.pending ∨ item ∈ s.done.map (·.item)) (now : String) :
    Settling C (ClosedLoop.handle B C S { s with pending := rest } item (calm now)) := by
  have hg := h.grounded item hitem
  obtain ⟨hheld, hpub⟩ := h.custody (B := B) (S := S) rest now hg
  have hmono : ∀ i, Grounded (Accepted s.stores) s.Backed i → Grounded
      (Accepted (reactTo B C S (calm now) s.stores item).1)
      (ClosedLoop.handle B C S { s with pending := rest } item (calm now)).Backed i :=
    fun i hi => hi.mono (fun _ ha => reactTo_accepted h.wellKept now item ha)
      fun _ hb => hb.handle h.wellKept h.allStored rest now
  exact
    { wellKept := by
        cases item with
        | simulator msg => exact h.wellKept
        | switch msg => exact h.wellKept.react B C Faults.none msg
      allStored := reactTo_allStored h.wellKept h.allStored now item
      held := hheld
      grounded := fun i hi => by
        rcases hi with hi | hi
        · rcases mem_pending_handle.mp hi with hi | hi
          · exact hmono _ (h.grounded i (Or.inl (hsub i hi)))
          · obtain ⟨m, hm, hfan⟩ := List.mem_flatMap.mp hi
            rw [msg_of_mem_fanOut hfan]
            exact hpub m hm
        · rw [ClosedLoop.handle, List.map_append] at hi
          rcases List.mem_append.mp hi with hi | hi
          · exact hmono _ (h.grounded i (Or.inr hi))
          · obtain rfl := List.mem_singleton.mp hi
            exact hmono _ hg
      pursued := fun id t ht => h.pursued_handle hrest now hg ht
      confirmed := fun d hd id hreserves => h.confirmed_handle hrest now hpub hd hreserves }

theorem receive (h : Settling C s) (input : Input) :
    Settling C { s with pending := s.pending ++ fanOut input.message } where
  wellKept := h.wellKept
  allStored := h.allStored
  held := h.held
  grounded i hi := by
    rcases hi with hi | hi
    · rcases List.mem_append.mp hi with hi | hi
      · exact h.grounded i (Or.inl hi)
      · rw [msg_of_mem_fanOut hi]
        cases input <;> trivial
    · exact h.grounded i (Or.inr hi)
  pursued id t ht := by
    rcases h.pursued id t ht with hrests | ⟨i, hi, hpursues⟩
    · exact Or.inl hrests
    · exact Or.inr ⟨i, List.mem_append_left _ hi, hpursues⟩
  confirmed d hd id hreserves := by
    obtain ⟨t, ht, hconfirmed⟩ := h.confirmed d hd id hreserves
    refine ⟨t, ht, fun hstate => ?_⟩
    obtain ⟨i, hi, hconfirms⟩ := hconfirmed hstate
    exact ⟨i, List.mem_append_left _ hi, hconfirms⟩

theorem start (C : Crypto) (partitioner : String → Nat) :
    Settling C (ClosedLoop.start partitioner) where
  wellKept := Switch.wellKept_start partitioner
  allStored := Participants.ParticpantsAgg.allStored_start partitioner
  held := { accepted := fun id t h => (by cases h), reserved := fun id t h => (by cases h) }
  grounded i hi := by rcases hi with hi | hi <;> cases hi
  pursued id t ht := by cases ht
  confirmed d hd := by cases hd

theorem step (h : Settling C s) {l : Label} (hl : ∀ c ∈ l.circumstances, c.faults = Faults.none) :
    Settling C (ClosedLoop.step B C S s l) := by
  have hcalm : ∀ c : Circumstances, c.faults = Faults.none → c = calm c.now := by
    rintro ⟨faults, now⟩ rfl
    rfl
  cases l with
  | receive input => exact h.receive input
  | deliver item c =>
    rw [ClosedLoop.step, hcalm c (hl c rfl)]
    split
    · rename_i hmem
      exact h.handle (fun i hi => List.mem_of_mem_erase hi)
        (fun i hi => or_iff_not_imp_left.mpr fun hne => (List.mem_erase_of_ne hne).mpr hi)
        (Or.inl hmem) c.now
    · exact h
  | redeliver item c =>
    rw [ClosedLoop.step, hcalm c (hl c rfl)]
    split
    · rename_i hmem
      exact h.handle (fun i hi => hi) (fun i hi => Or.inr hi) (Or.inr hmem) c.now
    · exact h

/-- With nothing in flight, no transfer is pursued. -/
theorem atRest (h : Settling C s) (hidle : s.pending = []) : s.AtRest C := by
  refine ⟨hidle, fun id t ht => ⟨?_, ?_⟩⟩
  · rcases h.pursued id t ht with hrests | ⟨i, hi, -⟩
    · exact hrests
    · rw [hidle] at hi
      cases hi
  · constructor
    · rintro ⟨d, hd, hreserves⟩ hstate
      obtain ⟨t', ht', hconfirmed⟩ := h.confirmed d hd id hreserves
      rw [ht] at ht'
      obtain rfl := Option.some.inj ht'
      obtain ⟨i, hi, -⟩ := hconfirmed hstate
      rw [hidle] at hi
      cases hi
    · intro hstate
      obtain ⟨-, d, hd, hreserves⟩ := h.held.reserved id t ht hstate
      have hid : t.terms.transferId = id := h.wellKept.transfers.view_id id t ht
      rw [hid] at hreserves
      exact ⟨d, hd, hreserves⟩

end Settling

/-- A delivery without failures, of something in flight, takes something off. -/
theorem exists_lighter (h : Settling C s) (hbusy : ¬ s.pending = []) :
    ∃ l, (∃ item now, l = Label.deliver item (calm now)) ∧ Settling C (step B C S s l) ∧
      potential 1 (step B C S s l) < potential 1 s := by
  obtain ⟨item, rest, hpending⟩ := List.exists_cons_of_ne_nil hbusy
  have hcalm : ∀ c ∈ (Label.deliver item (calm "")).circumstances, c.faults = Faults.none := by
    rintro c hc
    obtain rfl := Option.some.inj hc
    rfl
  refine ⟨.deliver item (calm ""), ⟨item, "", rfl⟩, h.step hcalm, ?_⟩
  have hpaid := @potential_step B C S s false (.deliver item (calm "")) h.wellKept fun c hc => by
    have hnone := hcalm c hc
    rw [PublishesWithin, hnone]
    exact ⟨Or.inl ⟨rfl, Nat.le_refl 1⟩, Or.inl ⟨rfl, Nat.le_refl 1⟩⟩
  have hmem : item ∈ s.pending := by
    rw [hpending]
    exact List.mem_cons_self
  rw [delivers, if_pos (decide_eq_true hmem)] at hpaid
  change 1 + potential 1 _ ≤ potential 1 s + 0 at hpaid
  omega

end Handle

/-- No call fails in the run. -/
def NothingFails (labels : List Label) : Prop :=
  ∀ l ∈ labels, ∀ c ∈ l.circumstances, c.faults = Faults.none

theorem settling_run (B : BigNumber) (C : Crypto) (S : Simulator) (partitioner : String → Nat)
    {labels : List Label} (h : NothingFails labels) :
    Settling C (run B C S partitioner labels) :=
  Machine.run_invariant (P := fun _ l => ∀ c ∈ l.circumstances, c.faults = Faults.none)
    (fun _ _ hs hl => hs.step hl) (Settling.start C partitioner)
    (Machine.along_of_forall (fun _ _ hl => hl) _ h)

/-- In a run without failures nothing is left half done: when nothing is in flight any more, every
stored transfer is committed, turned down, or reserved for a fulfilment that the simulator does not
have, and funds are reserved for it exactly when it says so.  And every run can be brought there. -/
theorem comes_to_rest (B : BigNumber) (C : Crypto) (S : Simulator) (partitioner : String → Nat)
    {labels : List Label} (h : NothingFails labels) :
    ((run B C S partitioner labels).pending = [] → (run B C S partitioner labels).AtRest C) ∧
      ∃ more, (∀ l ∈ more, ∃ item now, l = Label.deliver item (calm now)) ∧
        (run B C S partitioner (labels ++ more)).AtRest C := by
  have hsettling := settling_run B C S partitioner h
  refine ⟨fun hidle => hsettling.atRest hidle, ?_⟩
  obtain ⟨more, hmore, hidle⟩ : ∃ more : List Label,
      (∀ l ∈ more, ∃ item now, l = Label.deliver item (calm now)) ∧
        (Machine.run (step B C S) (run B C S partitioner labels) more).pending = [] :=
    Machine.exists_idle (fun _ hs hbusy => exists_lighter hs hbusy) hsettling
  refine ⟨more, hmore, ?_⟩
  have hcalm : NothingFails (labels ++ more) := by
    intro l hl c hc
    rcases List.mem_append.mp hl with hl | hl
    · exact h l hl c hc
    · obtain ⟨item, now, rfl⟩ := hmore l hl
      obtain rfl := Option.some.inj hc
      rfl
  refine (settling_run B C S partitioner hcalm).atRest ?_
  rw [run, Machine.run_append]
  exact hidle

/-! ## A small example -/

/-- A data URI of the content type. -/
def sampleSimulator : Simulator where
  encodePayload payload contentType :=
    "data:" ++ contentType ++ ";base64," ++ Base64.encode payload.toUTF8.toList

/-- Two participants and a transfer between them. -/
def sampleInputs : List Label :=
  [.receive (.createParticipant (Participants.ParticpantsAgg.sampleParticipant "blue")),
    .receive (.createParticipant (Participants.ParticpantsAgg.sampleParticipant "green")),
    .receive (.prepareRequest Transfers.TransfersAgg.samplePrepare),
    .deliver (.switch (.transferPrepareRequestedEvt Transfers.TransfersAgg.samplePrepare))
      (calm "2020-06-29T12:00:00.000Z")]

theorem comes_to_rest_sample :
    ((run Participants.wholeNumbers Transfers.TransfersAgg.sampleCrypto sampleSimulator (fun _ => 0)
        sampleInputs).pending = [] →
      (run Participants.wholeNumbers Transfers.TransfersAgg.sampleCrypto sampleSimulator
        (fun _ => 0) sampleInputs).AtRest Transfers.TransfersAgg.sampleCrypto) ∧
      ∃ more, (∀ l ∈ more, ∃ item now, l = Label.deliver item (calm now)) ∧
        (run Participants.wholeNumbers Transfers.TransfersAgg.sampleCrypto sampleSimulator
          (fun _ => 0) (sampleInputs ++ more)).AtRest Transfers.TransfersAgg.sampleCrypto :=
  comes_to_rest Participants.wholeNumbers Transfers.TransfersAgg.sampleCrypto sampleSimulator
    (fun _ => 0) (by
      intro l hl c hc
      simp only [sampleInputs, List.mem_cons, List.not_mem_nil, or_false] at hl
      rcases hl with rfl | rfl | rfl | rfl <;> cases hc
      rfl)

end ClosedLoop

end Devtools
end PocArchitecture
