/-
Every request is paid.

Transfers compete for the room below the limit of their payer, and which of them are turned
down depends on the order in which the messages are delivered.  Where there is room for all of
them there is nothing to compete for: in whatever order, every request ends in a committed
transfer, and everyone ends where the requests by themselves say.
-/
import PocArchitecture.Devtools.Reconciled
import PocArchitecture.Participants.Room
import PocArchitecture.Switch.Requests

namespace PocArchitecture
namespace Devtools

open PublicMessages Infrastructure
open Participants (BigNumber HasRoom ParticipantState)
open Participants.ParticpantsAgg (AllStored HasPosition balance debit stored)
open Switch (Accepted DomainMessage DuplicatesStored Envelope Exchange Faults Grounded HoldsAccount
  Input Ledgered PartiesHold WellKept committed created reserved)
open Transfers (Crypto PrepareTransferCmdPayload TransferState)
open Transfers.TransfersAgg (prepareTransferData)

/-- The request to prepare a transfer that a label brings in. -/
def Label.request : Label → Option PrepareTransferCmdPayload
  | receive (.prepareRequest payload) => some payload
  | _ => none

def requests (labels : List Label) : List PrepareTransferCmdPayload :=
  labels.filterMap Label.request

/-- The terms of the requests. -/
def termsOf (asked : List PrepareTransferCmdPayload) : List TransferTerms :=
  asked.map PrepareTransferCmdPayload.terms

/-- Every request is between two that have accounts, moves something, has the condition of the
simulator's fulfilment, and its payer has room for all that it is asked to pay. -/
structure Ample (B : BigNumber) (C : Crypto) (w : Participants.World)
    (asked : List PrepareTransferCmdPayload) : Prop where
  parties : ∀ payload ∈ asked, PartiesHold w payload.terms
  amounts : ∀ payload ∈ asked, B.Positive payload.amount
  conditions : ∀ payload ∈ asked,
    TransferState.Fulfils C payload.condition Simulator.fulfilment
  room : ∀ payload ∈ asked, ∀ payer, stored w payload.payerId = some payer →
    HasRoom B payer payload.currency (payer.positionIn B payload.currency +
      ((termsOf asked).map (debit B payload.currency payload.payerId)).sum)

namespace ClosedLoop

/-- The requests in flight and the stored transfers are those asked for, everyone stored in `w` is
there, and none of the transfers has been turned down. -/
structure Underway (B : BigNumber) (C : Crypto) (w : Participants.World)
    (asked : List PrepareTransferCmdPayload) (s : ClosedLoop) : Prop where
  settling : Settling C s
  ledgered : Ledgered B s.exchange
  duplicates : DuplicatesStored s.stores
  pending : ∀ item ∈ s.pending, ∀ payload, item.msg.prepares = some payload → payload ∈ asked
  sourced : ∀ id t, s.stores.transfer id = some t →
    ∃ payload ∈ asked, t.prepareData = prepareTransferData payload
  stays : ∀ id p, stored w id = some p →
    ∃ p', stored s.stores.participants id = some p' ∧ p'.blank = p.blank
  opened : ∀ id p, stored w id = some p → ∃ p' ∈ created s.exchange.done, p'.id = id ∧
    ∀ currency, p'.positionIn B currency = p.positionIn B currency
  accepted : ∀ d ∈ s.done, ∀ id, ¬ d.TurnsDown id

/-- The request is in flight, or has become a transfer. -/
def Reached (payload : PrepareTransferCmdPayload) (s : ClosedLoop) : Prop :=
  (s.stores.transfer payload.transferId).isSome = true ∨
    ∃ msg, .switch msg ∈ s.pending ∧ msg.prepares = some payload

section Underway

variable {B : BigNumber} {C : Crypto} {S : Simulator} {w : Participants.World}
  {asked : List PrepareTransferCmdPayload} {s : ClosedLoop} {terms : TransferTerms} {item : Item}

theorem envelope_mem {msg : DomainMessage} (h : .switch msg ∈ s.pending) :
    { msg := msg, echo := false } ∈ s.exchange.pending :=
  List.mem_filterMap.mpr ⟨.switch msg, h, rfl⟩

/-- Whoever is stored stays, whatever is delivered. -/
theorem reactTo_keeps (hw : WellKept s.stores) (hall : AllStored s.stores.participants)
    (now : String) (item : Item) {id : String} {p : ParticipantState}
    (hp : stored s.stores.participants id = some p) :
    ∃ p', stored (reactTo B C S (calm now) s.stores item).1.participants id = some p' ∧
      p'.blank = p.blank := by
  cases item with
  | simulator msg => exact ⟨p, hp, rfl⟩
  | switch msg =>
    cases msg with
    | participantCmd cmd =>
      exact (Participants.ParticpantsAgg.process_effect hw.participants hall B cmd).keeps hp
    | _ =>
      rw [reactTo, Switch.react_participants fun _ hm => by cases hm]
      exact ⟨p, hp, rfl⟩

namespace Underway

theorem terms_asked (h : Underway B C w asked s) (hterms : Accepted s.stores terms) :
    ∃ payload ∈ asked, terms = payload.terms := by
  obtain ⟨t, ht, rfl⟩ := hterms
  obtain ⟨payload, hpayload, hdata⟩ := h.sourced _ t ht
  refine ⟨payload, hpayload, ?_⟩
  exact TransferState.terms_eq_of_prepareData
    (t := .prepareTransfer (prepareTransferData payload)) hdata

theorem holdsAccount (h : Underway B C w asked s) {id : String} {currency : CurrencyTypes}
    (hacc : HoldsAccount w id currency) : HoldsAccount s.stores.participants id currency := by
  obtain ⟨p, hp, hacc⟩ := hacc
  obtain ⟨p', hp', hblank⟩ := h.stays id p hp
  exact ⟨p', hp', ParticipantState.hasAccount_of_blank hblank hacc⟩

/-- Where everyone stands. -/
theorem positionIn_eq (h : Underway B C w asked s) {id : String} {p : ParticipantState}
    (hp : stored w id = some p) (currency : CurrencyTypes) :
    ∃ p', stored s.stores.participants id = some p' ∧ p'.FinitePositions B ∧ p'.blank = p.blank ∧
      p'.positionIn B currency = p.positionIn B currency +
        balance B currency id (reserved s.exchange.done) (committed s.exchange.done) := by
  obtain ⟨p', hp', hblank⟩ := h.stays id p hp
  obtain ⟨q, hq, rfl, hposition⟩ := h.opened id p hp
  obtain ⟨p'', hp'', hfinite, heq⟩ := h.ledgered.positionIn_eq hq currency
  obtain rfl := Option.some.inj (hp''.symm.trans hp')
  refine ⟨p'', hp', hfinite, hblank, ?_⟩
  rw [heq, hposition]

/-- A reserve that is in flight will go through: its payer has room for all the requests, and
the reserves so far are some of them. -/
theorem admits (h : Underway B C w asked s) (hample : Ample B C w asked)
    (hitem : .switch (.participantCmd (.reservePayerFundsCmd terms)) ∈ s.pending) :
    Participants.ParticpantsAgg.Admits Participants.redisParticipantStateRepo B
      s.stores.participants (.reservePayerFundsCmd terms) := by
  have hgrounded := h.settling.grounded _ (Or.inl hitem)
  obtain ⟨payload, hpayload, rfl⟩ := h.terms_asked hgrounded
  obtain ⟨⟨payer, hpayer, -⟩, hpayee⟩ := hample.parties payload hpayload
  obtain ⟨payer', hpayer', hfinite, hblank, hposition⟩ := h.positionIn_eq hpayer payload.currency
  have hreserved : ∀ t ∈ reserved s.exchange.done, t ∈ termsOf asked := by
    intro t ht
    obtain ⟨payload', hpayload', rfl⟩ := h.terms_asked (h.ledgered.accepted_of_reserved ht)
    exact List.mem_map_of_mem hpayload'
  have hamounts : ∀ t ∈ termsOf asked, 0 ≤ B.rat t.amount := by
    intro t ht
    obtain ⟨payload', hpayload', rfl⟩ := List.mem_map.mp ht
    obtain ⟨q, hq, hpos⟩ := hample.amounts payload' hpayload'
    show 0 ≤ B.rat payload'.amount
    rw [BigNumber.rat_of_valueOf hq]
    exact le_of_lt hpos
  have hle := h.ledgered.balance_add_debit_le (envelope_mem hitem) hreserved
    (List.mem_map_of_mem hpayload) hamounts payload.currency payload.payerId
  have hdebit : debit B payload.currency payload.payerId payload.terms = B.rat payload.amount := by
    exact (if_pos rfl).trans (if_pos rfl)
  rw [hdebit] at hle
  have hroom := (hample.room payload hpayload payer hpayer).of_blank hblank
  have hcached := h.settling.wellKept.participants.cached h.settling.allStored
  apply hcached.admits_reserve_iff.mpr
  refine Participants.ParticpantsAgg.reservable_of_room hpayer' hfinite (h.holdsAccount hpayee)
    (hample.amounts payload hpayload) (hroom.of_le ?_)
  show payer'.positionIn B payload.currency + B.rat payload.amount ≤ _
  rw [hposition, add_assoc]
  exact add_le_add_right hle _

/-- The event handler knows the payer of accepted terms. -/
theorem knowsPayer (h : Underway B C w asked s) (hample : Ample B C w asked)
    (hterms : Accepted s.stores terms) : Switch.KnownToHandler s.stores terms.payerId := by
  obtain ⟨payload, hpayload, rfl⟩ := h.terms_asked hterms
  exact knownToHandler_of_stored (h.holdsAccount (hample.parties payload hpayload).1)

/-- What is in flight is not turned down. -/
theorem not_turnsDown (h : Underway B C w asked s) (hample : Ample B C w asked)
    (hitem : item ∈ s.pending) (now : String) (id : String) :
    ¬ Done.TurnsDown id
      { item := item, published := (reactTo B C S (calm now) s.stores item).2 } := by
  rintro ⟨terms, hterms, hdown⟩
  have hgrounded := h.settling.grounded item (Or.inl hitem)
  rcases hdown with ⟨hitem', hpublished⟩ | ⟨hitem', hreserves⟩
  · change item = _ at hitem'
    subst hitem'
    have hcmd : Switch.participantEvtHandler (.transferPrepareAcceptedEvt terms) =
        some (.reservePayerFundsCmd terms) := rfl
    change (Switch.react B C Faults.none s.stores _).2 = [] at hpublished
    rw [react_transferEvt hcmd (h.knowsPayer hample hgrounded)] at hpublished
    cases hpublished
  · change item = _ at hitem'
    subst hitem'
    obtain ⟨root, root', hmoves⟩ :=
      Participants.ParticpantsAgg.admits_iff.mp (h.admits hample hitem)
    rcases Switch.published_of_moves h.settling.wellKept.participants hmoves with
      ⟨terms', payload, hcmd, hid, hm⟩ | ⟨terms', payload, hcmd, -⟩
    · cases hcmd
      apply hreserves
      exact ⟨payload, List.mem_map_of_mem hm, hid.trans hterms⟩
    · cases hcmd

theorem prepares_fanOut {msg : DomainMessage} (hitem : item ∈ fanOut msg) :
    item.msg.prepares = msg.prepares := by
  rw [msg_of_mem_fanOut hitem]

theorem receive (h : Underway B C w asked s) {input : Input}
    (hasked : ∀ payload ∈ (Label.receive input).request, payload ∈ asked)
    (hledgered : Ledgered B
      (exchange { s with pending := s.pending ++ fanOut input.message })) :
    Underway B C w asked { s with pending := s.pending ++ fanOut input.message } where
  settling := h.settling.receive input
  ledgered := hledgered
  duplicates := h.duplicates
  pending item hitem payload hpayload := by
    rcases List.mem_append.mp hitem with hitem | hitem
    · exact h.pending item hitem payload hpayload
    · rw [prepares_fanOut hitem] at hpayload
      cases input with
      | prepareRequest payload' => exact hasked payload hpayload
      | fulfilRequest payload' => cases hpayload
      | createParticipant participant => cases hpayload
  sourced := h.sourced
  stays := h.stays
  opened := h.opened
  accepted := h.accepted

/-- A delivered item passes a request on as it came. -/
theorem prepares_reactTo {now : String} {m : DomainMessage}
    (hm : m ∈ (reactTo B C S (calm now) s.stores item).2) {payload : PrepareTransferCmdPayload}
    (hpayload : m.prepares = some payload) : item.msg.prepares = some payload := by
  cases item with
  | simulator msg =>
    obtain ⟨payload', rfl⟩ := S.mem_simulatorEvtHandler now hm
    cases hpayload
  | switch msg => exact Switch.prepares_of_mem hm hpayload

theorem handle (h : Underway B C w asked s) (hample : Ample B C w asked)
    (hitem : item ∈ s.pending) (now : String)
    (hledgered : Ledgered B (ClosedLoop.handle B C S
      { s with pending := s.pending.erase item } item (calm now)).exchange) :
    Underway B C w asked (ClosedLoop.handle B C S
      { s with pending := s.pending.erase item } item (calm now)) := by
  have hw := h.settling.wellKept
  refine { settling := ?_, ledgered := hledgered, duplicates := ?_, pending := ?_, sourced := ?_,
           stays := ?_, opened := ?_, accepted := ?_ }
  · apply h.settling.handle (fun i hi => List.mem_of_mem_erase hi) ?_ (Or.inl hitem)
    intro i hi
    exact or_iff_not_imp_left.mpr fun hne => (List.mem_erase_of_ne hne).mpr hi
  · cases item with
    | simulator msg => exact h.duplicates
    | switch msg => exact h.duplicates.react hw msg
  · intro i hi payload hpayload
    rcases List.mem_append.mp hi with hi | hi
    · exact h.pending i (List.mem_of_mem_erase hi) payload hpayload
    · obtain ⟨m, hm, hfan⟩ := List.mem_flatMap.mp hi
      rw [prepares_fanOut hfan] at hpayload
      exact h.pending item hitem payload (prepares_reactTo hm hpayload)
  · intro id t ht
    cases item with
    | simulator msg => exact h.sourced id t ht
    | switch msg =>
      rcases Switch.stored_cases hw ht with ⟨t', ht', hdata⟩ | ⟨payload, hpayload, hdata⟩
      · obtain ⟨payload, hpayload, hdata'⟩ := h.sourced id t' ht'
        exact ⟨payload, hpayload, hdata.trans hdata'⟩
      · exact ⟨payload, h.pending _ hitem payload hpayload, hdata⟩
  · intro id p hp
    obtain ⟨p', hp', hblank⟩ := h.stays id p hp
    obtain ⟨p'', hp'', hblank'⟩ := reactTo_keeps hw h.settling.allStored now item hp'
    exact ⟨p'', hp'', hblank'.trans hblank⟩
  · intro id p hp
    obtain ⟨p', hp', hopened⟩ := h.opened id p hp
    refine ⟨p', ?_, hopened⟩
    show p' ∈ created ((s.done ++ [_]).filterMap Done.handled)
    rw [List.filterMap_append, created, List.filterMap_append]
    exact List.mem_append_left _ hp'
  · intro d hd id
    rcases List.mem_append.mp hd with hd | hd
    · exact h.accepted d hd id
    · obtain rfl := List.mem_singleton.mp hd
      exact h.not_turnsDown hample hitem now id

theorem step (h : Underway B C w asked s) (hample : Ample B C w asked) {l : Label}
    (hl : l.Plain B) (hasked : ∀ payload ∈ l.request, payload ∈ asked) :
    Underway B C w asked (ClosedLoop.step B C S s l) := by
  have hledgered := ledgered_step (C := C) (S := S) h.ledgered hl
  cases l with
  | receive input => exact h.receive hasked hledgered
  | redeliver item c => exact hl.elim
  | deliver item c =>
    obtain ⟨faults, now⟩ := c
    obtain rfl : faults = Faults.none := hl
    rw [ClosedLoop.step] at hledgered ⊢
    split
    · rename_i hitem
      rw [if_pos hitem] at hledgered
      exact h.handle hample hitem now hledgered
    · exact h

end Underway

/-- A request that is in flight stays there or becomes a transfer, and a transfer stays. -/
theorem Reached.step {payload : PrepareTransferCmdPayload} (h : Reached payload s)
    (hw : WellKept s.stores) (hduplicates : DuplicatesStored s.stores) {l : Label}
    (hl : l.Plain B) : Reached payload (ClosedLoop.step B C S s l) := by
  cases l with
  | receive input =>
    rcases h with h | ⟨msg, hmsg, hprepares⟩
    · exact Or.inl h
    · exact Or.inr ⟨msg, List.mem_append_left _ hmsg, hprepares⟩
  | redeliver item c => exact hl.elim
  | deliver item c =>
    obtain ⟨faults, now⟩ := c
    obtain rfl : faults = Faults.none := hl
    rw [ClosedLoop.step]
    split
    · rcases h with h | ⟨msg, hmsg, hprepares⟩
      · left
        cases item with
        | simulator msg => exact h
        | switch msg => exact Switch.isSome_react hw h
      · by_cases he : item = .switch msg
        · subst he
          rcases Switch.stored_or_prepares (B := B) (C := C) hw hduplicates hprepares with
            hstored | ⟨m, hm, hprepares'⟩
          · exact Or.inl hstored
          · refine Or.inr ⟨m, List.mem_append_right _ ?_, hprepares'⟩
            exact List.mem_flatMap.mpr ⟨m, hm, List.mem_cons_self⟩
        · refine Or.inr ⟨msg, List.mem_append_left _ ?_, hprepares⟩
          exact (List.mem_erase_of_ne fun hne => he hne.symm).mpr hmsg
    · exact h

/-- The labels are plain, and bring in no request but these. -/
def Asks (B : BigNumber) (asked : List PrepareTransferCmdPayload) (l : Label) : Prop :=
  l.Plain B ∧ ∀ payload ∈ l.request, payload ∈ asked

theorem underway_run (h : Underway B C w asked s) (hample : Ample B C w asked)
    {labels : List Label} (hlabels : ∀ l ∈ labels, Asks B asked l) :
    Underway B C w asked (Machine.run (step B C S) s labels) :=
  Machine.run_invariant (P := fun _ l => Asks B asked l)
    (fun _ _ hs hl => hs.step hample hl.1 hl.2) h (Machine.along_of_forall (fun _ _ hl => hl) _ hlabels)

theorem reached_run (h : Underway B C w asked s) (hample : Ample B C w asked)
    {payload : PrepareTransferCmdPayload} (hreached : Reached payload s) {labels : List Label}
    (hlabels : ∀ l ∈ labels, Asks B asked l) :
    Reached payload (Machine.run (step B C S) s labels) := by
  refine (Machine.run_invariant (P := fun _ l => Asks B asked l)
    (I := fun s => Underway B C w asked s ∧ Reached payload s) ?_ ⟨h, hreached⟩
    (Machine.along_of_forall (fun _ _ hl => hl) _ hlabels)).2
  rintro s l ⟨hs, hreached⟩ hl
  exact ⟨hs.step hample hl.1 hl.2, hreached.step hs.settling.wellKept hs.duplicates hl.1⟩

/-- Every request of the run is reached. -/
theorem reached_of_mem (h : Underway B C w asked s) (hample : Ample B C w asked)
    {labels : List Label} (hlabels : ∀ l ∈ labels, Asks B asked l)
    {payload : PrepareTransferCmdPayload} (hpayload : payload ∈ requests labels) :
    Reached payload (Machine.run (step B C S) s labels) := by
  obtain ⟨l, hl, hrequest⟩ := List.mem_filterMap.mp hpayload
  obtain ⟨before, after, rfl⟩ := List.append_of_mem hl
  have hbefore : ∀ l ∈ before, Asks B asked l :=
    fun l hl => hlabels l (List.mem_append_left _ hl)
  have hafter : ∀ l ∈ after, Asks B asked l :=
    fun l hl => hlabels l (List.mem_append_right _ (List.mem_cons_of_mem _ hl))
  have hrun := underway_run (S := S) h hample hbefore
  rw [Machine.run_append]
  apply reached_run (hrun.step hample (hlabels l hl).1 (hlabels l hl).2) hample ?_ hafter
  cases l with
  | receive input =>
    cases input with
    | prepareRequest payload' =>
      obtain rfl := Option.some.inj hrequest
      exact Or.inr ⟨_, List.mem_append_right _ List.mem_cons_self, rfl⟩
    | _ => cases hrequest
  | _ => cases hrequest

theorem duplicatesStored_run (partitioner : String → Nat) {labels : List Label}
    (h : ∀ l ∈ labels, l.Plain B) : DuplicatesStored (run B C S partitioner labels).stores := by
  refine (Machine.run_invariant (P := fun _ (l : Label) => l.Plain B)
    (I := fun s : ClosedLoop => WellKept s.stores ∧ DuplicatesStored s.stores) ?_ ?_
    (Machine.along_of_forall (fun _ _ hl => hl) _ h)).2
  · rintro s l ⟨hw, hduplicates⟩ hl
    refine ⟨wellKept_step hw l, ?_⟩
    cases l with
    | receive input => exact hduplicates
    | redeliver item c => exact hl.elim
    | deliver item c =>
      obtain ⟨faults, now⟩ := c
      obtain rfl : faults = Faults.none := hl
      rw [step]
      split
      · cases item with
        | simulator msg => exact hduplicates
        | switch msg => exact hduplicates.react hw msg
      · exact hduplicates
  · refine ⟨Switch.wellKept_start partitioner, ?_⟩
    intro id hid
    exact absurd hid (Finset.notMem_empty id)

/-- Before there are transfers nothing has been reserved. -/
theorem underway_start (hsettling : Settling C s) (hledgered : Ledgered B s.exchange)
    (hduplicates : DuplicatesStored s.stores) (hidle : s.pending = [])
    (hnone : ∀ id, s.stores.transfer id = none) :
    Underway B C s.stores.participants asked s := by
  have hnothing : ∀ terms, ¬ Accepted s.stores terms := by
    rintro terms ⟨t, ht, -⟩
    rw [hnone] at ht
    cases ht
  have hreserved : ∀ terms, terms ∉ reserved s.exchange.done :=
    fun terms hterms => hnothing terms (hledgered.accepted_of_reserved hterms)
  refine { settling := hsettling, ledgered := hledgered, duplicates := hduplicates, pending := ?_,
           sourced := ?_, stays := fun id p hp => ⟨p, hp, rfl⟩, opened := ?_, accepted := ?_ }
  · intro item hitem
    rw [hidle] at hitem
    cases hitem
  · intro id t ht
    rw [hnone] at ht
    cases ht
  · intro id p hp
    have hcreated : id ∈ (created s.exchange.done).map (·.id) := by
      apply (hledgered.balanced.books.everyone id).mp
      exact congrArg Option.isSome hp
    obtain ⟨p', hp', rfl⟩ := List.mem_map.mp hcreated
    refine ⟨p', hp', rfl, fun currency => ?_⟩
    obtain ⟨p'', hp'', -, hposition⟩ := hledgered.positionIn_eq hp' currency
    obtain rfl := Option.some.inj (hp''.symm.trans hp)
    rw [hposition, Participants.ParticpantsAgg.balance_eq_zero, add_zero]
    · exact fun terms hterms => absurd hterms (hreserved terms)
    · intro terms hterms
      exact absurd (hledgered.balanced.reserved_of_committed terms hterms) (hreserved terms)
  · rintro d hd id ⟨terms, -, hdown⟩
    have hgrounded := hsettling.grounded d.item (Or.inr (List.mem_map_of_mem hd))
    apply hnothing terms
    rcases hdown with ⟨hitem, -⟩ | ⟨hitem, -⟩
    · rw [hitem] at hgrounded
      exact hgrounded
    · rw [hitem] at hgrounded
      exact hgrounded

/-! ## At rest -/

/-- Nothing is left to itself but committed transfers. -/
theorem Underway.committed_of_atRest (h : Underway B C w asked s) (hample : Ample B C w asked)
    (hrest : s.AtRest C) {id : String} {t : TransferState} (ht : s.stores.transfer id = some t) :
    t.transferInternalState = .committed := by
  rcases (hrest.2 id t ht).1 with hcommitted | ⟨-, d, hd, hdown⟩ | ⟨-, hfulfils⟩
  · exact hcommitted
  · exact absurd hdown (h.accepted d hd id)
  · obtain ⟨payload, hpayload, hdata⟩ := h.sourced id t ht
    have hcondition : t.condition = payload.condition :=
      congrArg Transfers.PrepareTransferData.condition hdata
    apply absurd (hample.conditions payload hpayload)
    rw [← hcondition]
    exact hfulfils

end Underway

/-- Every request has become a committed transfer.  If no two go by the same id, each transfer is as
it was asked for, and everyone has moved by what the requests say. -/
structure Paid (B : BigNumber) (w : Participants.World) (asked : List PrepareTransferCmdPayload)
    (s : ClosedLoop) : Prop where
  committed : ∀ payload ∈ asked, ∃ t, s.stores.transfer payload.transferId = some t ∧
    t.transferInternalState = .committed
  asAsked : (asked.map (·.transferId)).Nodup → ∀ payload ∈ asked,
    ∃ t, s.stores.transfer payload.transferId = some t ∧
      t.prepareData = prepareTransferData payload
  moved : (asked.map (·.transferId)).Nodup → ∀ id p, stored w id = some p → ∀ currency,
    ∃ p', stored s.stores.participants id = some p' ∧
      p'.positionIn B currency = p.positionIn B currency +
        balance B currency id (termsOf asked) (termsOf asked)

section Paid

variable {B : BigNumber} {C : Crypto} {S : Simulator} {w : Participants.World}
  {asked : List PrepareTransferCmdPayload} {s : ClosedLoop}

theorem Underway.asAsked (h : Underway B C w asked s) (hids : (asked.map (·.transferId)).Nodup)
    {payload : PrepareTransferCmdPayload} (hpayload : payload ∈ asked) {t : TransferState}
    (ht : s.stores.transfer payload.transferId = some t) :
    t.prepareData = prepareTransferData payload := by
  obtain ⟨payload', hpayload', hdata⟩ := h.sourced _ t ht
  have hid : payload'.transferId = payload.transferId := by
    rw [← h.settling.wellKept.transfers.view_id _ t ht]
    exact (congrArg Transfers.PrepareTransferData.id hdata).symm
  rw [hdata, List.inj_on_of_nodup_map hids hpayload' hpayload hid]

/-- At rest the account of everyone is made of the requests. -/
theorem Underway.balance_eq (h : Underway B C w asked s) (hids : (asked.map (·.transferId)).Nodup)
    (hreserved : ∀ terms, terms ∈ reserved s.exchange.done ↔ terms ∈ termsOf asked)
    (hcommitted : ∀ terms, terms ∈ Switch.committed s.exchange.done ↔ terms ∈ termsOf asked)
    (currency : CurrencyTypes) (id : String) :
    balance B currency id (reserved s.exchange.done) (Switch.committed s.exchange.done) =
      balance B currency id (termsOf asked) (termsOf asked) := by
  have hterms : (termsOf asked).Nodup := by
    apply List.Nodup.of_map (·.transferId)
    rw [termsOf, List.map_map]
    exact hids
  rw [balance, balance, KeyedSum.sum_map_eq h.ledgered.balanced.reserved_nodup.of_map hterms hreserved,
    KeyedSum.sum_map_eq h.ledgered.balanced.committed_nodup.of_map hterms hcommitted]

theorem Underway.paid (h : Underway B C w asked s) (hample : Ample B C w asked)
    (hannounced : s.Announced) (hreached : ∀ payload ∈ asked, Reached payload s)
    (hidle : s.pending = []) : Paid B w asked s := by
  have hrest := h.settling.atRest hidle
  have hstored : ∀ payload ∈ asked, ∃ t, s.stores.transfer payload.transferId = some t ∧
      t.transferInternalState = .committed := by
    intro payload hpayload
    rcases hreached payload hpayload with hsome | ⟨msg, hmsg, -⟩
    · obtain ⟨t, ht⟩ := Option.isSome_iff_exists.mp hsome
      exact ⟨t, ht, h.committed_of_atRest hample hrest ht⟩
    · rw [hidle] at hmsg
      cases hmsg
  have hmem : (asked.map (·.transferId)).Nodup → ∀ terms, terms ∈ termsOf asked ↔
      ∃ t, s.stores.transfer terms.transferId = some t ∧ t.terms = terms := by
    intro hids terms
    constructor
    · intro hterms
      obtain ⟨payload, hpayload, rfl⟩ := List.mem_map.mp hterms
      obtain ⟨t, ht, -⟩ := hstored payload hpayload
      refine ⟨t, ht, ?_⟩
      exact TransferState.terms_eq_of_prepareData
        (t := .prepareTransfer (prepareTransferData payload)) (h.asAsked hids hpayload ht)
    · intro hterms
      obtain ⟨payload, hpayload, rfl⟩ := h.terms_asked hterms
      exact List.mem_map_of_mem hpayload
  refine { committed := hstored, asAsked := ?_, moved := ?_ }
  · intro hids payload hpayload
    obtain ⟨t, ht, -⟩ := hstored payload hpayload
    exact ⟨t, ht, h.asAsked hids hpayload ht⟩
  · intro hids id p hp currency
    obtain ⟨p', hp', -, -, hposition⟩ := h.positionIn_eq hp currency
    refine ⟨p', hp', ?_⟩
    rw [hposition, h.balance_eq hids ?_ ?_]
    · intro terms
      rw [mem_reserved_iff h.ledgered hannounced hrest, hmem hids]
      constructor
      · rintro ⟨t, ht, hsame, -⟩
        exact ⟨t, ht, hsame⟩
      · rintro ⟨t, ht, hsame⟩
        refine ⟨t, ht, hsame, ?_⟩
        rw [h.committed_of_atRest hample hrest ht]
        decide
    · intro terms
      rw [mem_committed_iff h.ledgered hrest, hmem hids]
      constructor
      · rintro ⟨t, ht, hsame, -⟩
        exact ⟨t, ht, hsame⟩
      · rintro ⟨t, ht, hsame⟩
        exact ⟨t, ht, hsame, h.committed_of_atRest hample hrest ht⟩

end Paid

/-- From where there are participants and no transfers yet: if there is room for all the requests
that come in, then however they are delivered, once nothing is in flight all of them are paid, and
everyone stands where the requests say, whatever the order. -/
theorem all_paid (B : BigNumber) (C : Crypto) (S : Simulator) (partitioner : String → Nat)
    {opening labels : List Label} (hplain : ∀ l ∈ opening ++ labels, l.Plain B)
    (hidle : (run B C S partitioner opening).pending = [])
    (hnone : ∀ id, (run B C S partitioner opening).stores.transfer id = none)
    (hample : Ample B C (run B C S partitioner opening).stores.participants (requests labels))
    (hrest : (run B C S partitioner (opening ++ labels)).pending = []) :
    Paid B (run B C S partitioner opening).stores.participants (requests labels)
      (run B C S partitioner (opening ++ labels)) := by
  have hopening : ∀ l ∈ opening, l.Plain B := fun l hl => hplain l (List.mem_append_left _ hl)
  have hlabels : ∀ l ∈ labels, Asks B (requests labels) l := by
    intro l hl
    refine ⟨hplain l (List.mem_append_right _ hl), fun payload hpayload => ?_⟩
    exact List.mem_filterMap.mpr ⟨l, hl, hpayload⟩
  have hstart : Underway B C (run B C S partitioner opening).stores.participants (requests labels)
      (run B C S partitioner opening) :=
    underway_start (announced_run partitioner hopening).1 (ledgered_run partitioner hopening)
      (duplicatesStored_run partitioner hopening) hidle hnone
  have hannounced := (announced_run (B := B) (C := C) (S := S) partitioner hplain).2
  have hrun : run B C S partitioner (opening ++ labels) =
      Machine.run (step B C S) (run B C S partitioner opening) labels :=
    Machine.run_append _ _ _ _
  rw [hrun] at hrest hannounced ⊢
  apply (underway_run hstart hample hlabels).paid hample hannounced ?_ hrest
  intro payload hpayload
  exact reached_of_mem hstart hample hlabels hpayload

/-! ## A small example -/

/-- The deliveries of whatever comes first, until nothing is in flight. -/
def drain (B : BigNumber) (C : Crypto) (S : Simulator) (now : String) : Nat → ClosedLoop → List Label
  | 0, _ => []
  | n + 1, s =>
    match s.pending with
    | [] => []
    | item :: _ =>
      .deliver item (calm now) :: drain B C S now n (step B C S s (.deliver item (calm now)))

theorem plain_drain {B : BigNumber} {C : Crypto} {S : Simulator} {now : String} (n : Nat)
    (s : ClosedLoop) : ∀ l ∈ drain B C S now n s, l.Plain B := by
  induction n generalizing s with
  | zero =>
    intro l hl
    cases hl
  | succ n ih =>
    unfold drain
    split
    · intro l hl
      cases hl
    · rename_i item rest hpending
      intro l hl
      rcases List.mem_cons.mp hl with rfl | hl
      · rfl
      · exact ih _ l hl

def sampleRun (labels : List Label) : ClosedLoop :=
  run Participants.wholeNumbers Transfers.TransfersAgg.sampleCrypto sampleSimulator (fun _ => 0)
    labels

def sampleDrain (n : Nat) (labels : List Label) : List Label :=
  drain Participants.wholeNumbers Transfers.TransfersAgg.sampleCrypto sampleSimulator
    "2020-06-29T12:00:00.000Z" n (sampleRun labels)

/-- Two participants are created. -/
def sampleOpening : List Label := sampleInputs.take 2 ++ sampleDrain 6 (sampleInputs.take 2)

def sampleRequest : Label := .receive (.prepareRequest Transfers.TransfersAgg.samplePrepare)

/-- A transfer between them. -/
def samplePayment : List Label := sampleRequest :: sampleDrain 22 (sampleOpening ++ [sampleRequest])

theorem plain_sample : ∀ l ∈ sampleOpening ++ samplePayment, l.Plain Participants.wholeNumbers := by
  intro l hl
  rcases List.mem_append.mp hl with hl | hl
  · rcases List.mem_append.mp hl with hl | hl
    · rcases List.mem_pair.mp hl with rfl | rfl
      · exact Switch.sampleParticipant_finite "blue"
      · exact Switch.sampleParticipant_finite "green"
    · exact plain_drain _ _ l hl
  · rcases List.mem_cons.mp hl with rfl | hl
    · trivial
    · exact plain_drain _ _ l hl

theorem all_paid_sample :
    Paid Participants.wholeNumbers (sampleRun sampleOpening).stores.participants
      (requests samplePayment) (sampleRun (sampleOpening ++ samplePayment)) := by
  have hblue : stored (sampleRun sampleOpening).stores.participants "blue" =
      some (Participants.ParticpantsAgg.sampleParticipant "blue") := by decide +kernel
  have hgreen : stored (sampleRun sampleOpening).stores.participants "green" =
      some (Participants.ParticpantsAgg.sampleParticipant "green") := by decide +kernel
  have hrequests : requests samplePayment = [Transfers.TransfersAgg.samplePrepare] := by
    decide +kernel
  refine all_paid Participants.wholeNumbers Transfers.TransfersAgg.sampleCrypto sampleSimulator
    (fun _ => 0) plain_sample (by decide +kernel) (fun _ => rfl) ?_ (by decide +kernel)
  rw [hrequests]
  refine { parties := ?_, amounts := ?_, conditions := ?_, room := ?_ }
  · intro payload hpayload
    obtain rfl := List.mem_singleton.mp hpayload
    exact ⟨⟨_, hblue, by decide⟩, _, hgreen, by decide⟩
  · intro payload hpayload
    obtain rfl := List.mem_singleton.mp hpayload
    exact ⟨10, rfl, by decide⟩
  · intro payload hpayload
    obtain rfl := List.mem_singleton.mp hpayload
    exact ⟨by decide +kernel, by decide +kernel⟩
  · intro payload hpayload payer hpayer
    obtain rfl := List.mem_singleton.mp hpayload
    obtain rfl := Option.some.inj (hblue.symm.trans hpayer)
    exact ⟨_, _, rfl, rfl, by decide +kernel⟩

end ClosedLoop

end Devtools
end PocArchitecture
