/-
The books at rest.

Without failures and redeliveries the loop is a run of the switch by itself: what the
simulator publishes comes in as a request from the outside.  So the accounts of the
participants are those of the switch, and once nothing is in flight the transfers as they
are stored tell what is in them.
-/
import PocArchitecture.Devtools.Settled
import PocArchitecture.Switch.Ledger

namespace PocArchitecture
namespace Devtools

open PublicMessages Infrastructure
open Switch (Delivery DomainMessage Envelope Exchange Faults Handled Input Ledgered Stores
  committed created react reserved)
open Participants (BigNumber ParticipantState)
open Participants.ParticpantsAgg (balance stored)
open Transfers (Crypto TransferInternalStates TransferState)

/-- The item as the switch sees it. -/
def Item.envelope : Item → Option Envelope
  | switch msg => some { msg := msg, echo := false }
  | simulator _ => none

/-- The same for a handled one. -/
def Done.handled (d : Done) : Option Handled :=
  match d.item with
  | .switch msg => some { msg := msg, echo := false, published := d.published }
  | .simulator _ => none

theorem filterMap_fanOut (msg : DomainMessage) :
    (fanOut msg).filterMap Item.envelope = [{ msg := msg, echo := false }] := by
  rw [fanOut]
  split <;> rfl

theorem filterMap_flatMap_fanOut (msgs : List DomainMessage) :
    (msgs.flatMap fanOut).filterMap Item.envelope =
      msgs.map fun msg => { msg := msg, echo := false } := by
  induction msgs with
  | nil => rfl
  | cons msg msgs ih =>
    rw [List.flatMap_cons, List.filterMap_append, filterMap_fanOut, ih, List.map_cons,
      List.singleton_append]

theorem filterMap_erase_switch (items : List Item) (msg : DomainMessage) :
    (items.erase (.switch msg)).filterMap Item.envelope =
      (items.filterMap Item.envelope).erase { msg := msg, echo := false } := by
  induction items with
  | nil => rfl
  | cons item items ih =>
    by_cases hitem : item = .switch msg
    · subst hitem
      rw [List.erase_cons_head]
      show _ = List.erase (_ :: _) _
      rw [List.erase_cons_head]
    · rw [List.erase_cons_tail (by simpa using hitem)]
      cases item with
      | simulator msg' => exact ih
      | switch msg' =>
        have hne : ({ msg := msg', echo := false } : Envelope) ≠ { msg := msg, echo := false } := by
          intro he
          apply hitem
          rw [(Envelope.mk.inj he).1]
        show _ :: List.filterMap Item.envelope _ = List.erase (_ :: _) _
        rw [ih, List.erase_cons_tail (by simpa using hne)]

theorem filterMap_erase_simulator (items : List Item) (msg : DomainMessage) :
    (items.erase (.simulator msg)).filterMap Item.envelope = items.filterMap Item.envelope := by
  induction items with
  | nil => rfl
  | cons item items ih =>
    by_cases hitem : item = .simulator msg
    · subst hitem
      rw [List.erase_cons_head]
      rfl
    · rw [List.erase_cons_tail (by simpa using hitem), List.filterMap_cons, List.filterMap_cons, ih]

/-- Nothing fails, nothing is delivered again, and positions are finite from the start. -/
def Label.Plain (B : BigNumber) : Label → Prop
  | .receive (.createParticipant p) => p.FinitePositions B
  | .receive _ => True
  | .deliver _ c => c.faults = Faults.none
  | .redeliver _ _ => False

theorem Label.Plain.faults_eq {B : BigNumber} {l : Label} (h : l.Plain B) :
    ∀ c ∈ l.circumstances, c.faults = Faults.none := by
  intro c hc
  cases l with
  | receive input => cases hc
  | deliver item c' =>
    obtain rfl := Option.some.inj hc
    exact h
  | redeliver item c' => exact h.elim

/-- The same of the switch by itself. -/
def PlainDelivery (B : BigNumber) (d : Delivery) : Prop :=
  d.isRedelivery = false ∧ ∀ p, d = .receive (.createParticipant p) → p.FinitePositions B

theorem plainDelivery_deliver (B : BigNumber) (e : Envelope) : PlainDelivery B (.deliver e) :=
  ⟨rfl, fun p hp => by cases hp⟩

namespace ClosedLoop

/-- The switch by itself. -/
def exchange (s : ClosedLoop) : Exchange :=
  { stores := s.stores, pending := s.pending.filterMap Item.envelope,
    done := s.done.filterMap Done.handled }

section Refinement

variable {B : BigNumber} {C : Crypto} {S : Simulator} {s : ClosedLoop}

theorem exchange_receive (input : Input) :
    exchange { s with pending := s.pending ++ fanOut input.message } =
      Exchange.step B C s.exchange (.receive input) := by
  rw [exchange, List.filterMap_append, filterMap_fanOut]
  rfl

theorem exchange_handle_switch (rest : List Item) (msg : DomainMessage) (now : String) :
    (handle B C S { s with pending := rest } (.switch msg) (calm now)).exchange =
      Exchange.handle B C { s.exchange with pending := rest.filterMap Item.envelope }
        { msg := msg, echo := false } := by
  rw [exchange, handle, Exchange.handle, List.filterMap_append, filterMap_flatMap_fanOut,
    List.filterMap_append]
  rfl

theorem exchange_deliver_switch {msg : DomainMessage} (hmem : .switch msg ∈ s.pending)
    (now : String) :
    (handle B C S { s with pending := s.pending.erase (.switch msg) } (.switch msg)
        (calm now)).exchange =
      Exchange.step B C s.exchange (.deliver { msg := msg, echo := false }) := by
  have henvelope : ({ msg := msg, echo := false } : Envelope) ∈ s.exchange.pending :=
    List.mem_filterMap.mpr ⟨.switch msg, hmem, rfl⟩
  rw [exchange_handle_switch, filterMap_erase_switch, Exchange.step, if_pos henvelope]
  rfl

/-- The simulator publishes nothing, or asks for one fulfilment. -/
theorem simulatorEvtHandler_cases (S : Simulator) (now : String) (publishes : Bool)
    (msg : DomainMessage) :
    S.simulatorEvtHandler now publishes msg = [] ∨
      ∃ payload, S.simulatorEvtHandler now publishes msg = [.transferFulfilRequestedEvt payload] := by
  unfold Simulator.simulatorEvtHandler
  split
  · cases publishes with
    | true => exact Or.inr ⟨_, rfl⟩
    | false => exact Or.inl rfl
  · exact Or.inl rfl

theorem exchange_deliver_simulator (msg : DomainMessage) (now : String) :
    (handle B C S { s with pending := s.pending.erase (.simulator msg) } (.simulator msg)
        (calm now)).exchange = s.exchange ∨
      ∃ payload, (handle B C S { s with pending := s.pending.erase (.simulator msg) }
          (.simulator msg) (calm now)).exchange =
        Exchange.step B C s.exchange (.receive (.fulfilRequest payload)) := by
  have hexchange : ∀ msgs, S.simulatorEvtHandler now true msg = msgs →
      (handle B C S { s with pending := s.pending.erase (.simulator msg) } (.simulator msg)
        (calm now)).exchange =
      { s.exchange with
        pending := s.exchange.pending ++ msgs.map fun msg => { msg := msg, echo := false } } := by
    rintro msgs rfl
    rw [exchange, handle, List.filterMap_append, filterMap_flatMap_fanOut,
      filterMap_erase_simulator, List.filterMap_append]
    show ({ .. } : Exchange) = _
    rw [exchange, Exchange.mk.injEq]
    exact ⟨rfl, rfl, List.append_nil _⟩
  rcases simulatorEvtHandler_cases S now true msg with hnone | ⟨payload, hone⟩
  · left
    rw [hexchange [] hnone, List.map_nil, List.append_nil]
  · right
    exact ⟨payload, hexchange _ hone⟩

/-- A delivery of the loop is one of the switch, or what the simulator asks for. -/
theorem exchange_step (s : ClosedLoop) (l : Label) (hl : l.Plain B) :
    ∃ ds, (∀ d ∈ ds, PlainDelivery B d) ∧
      (step B C S s l).exchange = Machine.run (Exchange.step B C) s.exchange ds := by
  cases l with
  | receive input =>
    refine ⟨[.receive input], fun d hd => ?_, exchange_receive (B := B) (C := C) input⟩
    obtain rfl := List.mem_singleton.mp hd
    refine ⟨rfl, fun p hp => ?_⟩
    cases hp
    exact hl
  | redeliver item c => exact hl.elim
  | deliver item c =>
    obtain ⟨faults, now⟩ := c
    obtain rfl : faults = Faults.none := hl
    rw [step]
    split
    · rename_i hmem
      cases item with
      | switch msg =>
        refine ⟨[.deliver { msg := msg, echo := false }], fun d hd => ?_,
          exchange_deliver_switch hmem now⟩
        obtain rfl := List.mem_singleton.mp hd
        exact plainDelivery_deliver B _
      | simulator msg =>
        rcases exchange_deliver_simulator (B := B) (C := C) (S := S) (s := s) msg now with
          hsame | ⟨payload, hreceive⟩
        · exact ⟨[], fun d hd => absurd hd List.not_mem_nil, hsame⟩
        · refine ⟨[.receive (.fulfilRequest payload)], fun d hd => ?_, hreceive⟩
          obtain rfl := List.mem_singleton.mp hd
          exact ⟨rfl, fun p hp => by cases hp⟩
    · exact ⟨[], fun d hd => absurd hd List.not_mem_nil, rfl⟩

/-- A plain run of the loop is a run of the switch by itself. -/
theorem exists_exchange_run (partitioner : String → Nat) {labels : List Label}
    (h : ∀ l ∈ labels, l.Plain B) :
    ∃ ds, (∀ d ∈ ds, PlainDelivery B d) ∧
      (run B C S partitioner labels).exchange = Exchange.run B C partitioner ds :=
  Machine.exists_run_of_step (fun s l hl => exchange_step s l hl) (start partitioner) h

theorem ledgered_deliveries {e : Exchange} (h : Ledgered B e) {ds : List Delivery}
    (hds : ∀ d ∈ ds, PlainDelivery B d) : Ledgered B (Machine.run (Exchange.step B C) e ds) :=
  Machine.run_invariant (P := fun _ d => PlainDelivery B d)
    (fun _ _ hs hd => hs.step hd.1 hd.2) h (Machine.along_of_forall (fun _ _ hd => hd) _ hds)

theorem ledgered_step (h : Ledgered B s.exchange) {l : Label} (hl : l.Plain B) :
    Ledgered B (step B C S s l).exchange := by
  obtain ⟨ds, hds, hstep⟩ := exchange_step (C := C) (S := S) s l hl
  rw [hstep]
  exact ledgered_deliveries h hds

theorem ledgered_run (partitioner : String → Nat) {labels : List Label}
    (h : ∀ l ∈ labels, l.Plain B) : Ledgered B (run B C S partitioner labels).exchange := by
  obtain ⟨ds, hds, hrun⟩ := exists_exchange_run (C := C) (S := S) partitioner h
  rw [hrun]
  exact ledgered_deliveries (Ledgered.start partitioner) hds

end Refinement

/-! ## Reservations on record -/

/-- A reserve that moved a position has announced it. -/
def Announced (s : ClosedLoop) : Prop :=
  ∀ d ∈ s.done, ∀ h terms, d.handled = some h → h.reserve = some terms →
    d.Reserves terms.transferId

section Announcements

variable {B : BigNumber} {C : Crypto} {S : Simulator} {s : ClosedLoop}

theorem Announced.handle (h : s.Announced) (hw : Switch.WellKept s.stores)
    (hall : Participants.ParticpantsAgg.AllStored s.stores.participants) (rest : List Item)
    (item : Item) (now : String) :
    (handle B C S { s with pending := rest } item (calm now)).Announced := by
  intro d hd handled terms hhandled hreserve
  rcases List.mem_append.mp hd with hd | hd
  · exact h d hd handled terms hhandled hreserve
  · obtain rfl := List.mem_singleton.mp hd
    cases item with
    | simulator msg => cases hhandled
    | switch msg =>
      obtain rfl := Option.some.inj hhandled
      have hmsg : msg = .participantCmd (.reservePayerFundsCmd terms) :=
        Handled.msg_of_reserve hreserve
      subst hmsg
      have hmoved : (Exchange.entry B C s.stores
          { msg := .participantCmd (.reservePayerFundsCmd terms), echo := false }).moved = true := by
        by_contra hnot
        have hnone : (none : Option TransferTerms) = some terms := by
          rw [← hreserve]
          exact (if_neg hnot).symm
        cases hnone
      obtain ⟨cmd, hcmd, hadmits⟩ := (Switch.moved_entry hw hall).mp hmoved
      obtain ⟨root, root', hmoves⟩ := Participants.ParticpantsAgg.admits_iff.mp hadmits
      rcases Switch.published_of_moves hw.participants hmoves with
        ⟨terms', payload, rfl, hid, hm⟩ | ⟨terms', payload, rfl, -, -⟩
      · cases hcmd
        exact ⟨payload, List.mem_map_of_mem hm, hid⟩
      · cases hcmd

theorem Announced.step (h : s.Announced) (hs : Settling C s) {l : Label} (hl : l.Plain B) :
    (ClosedLoop.step B C S s l).Announced := by
  cases l with
  | receive input => exact h
  | redeliver item c => exact hl.elim
  | deliver item c =>
    obtain ⟨faults, now⟩ := c
    obtain rfl : faults = Faults.none := hl
    rw [ClosedLoop.step]
    split
    · exact h.handle hs.wellKept hs.allStored _ item now
    · exact h

theorem announced_run (partitioner : String → Nat) {labels : List Label}
    (h : ∀ l ∈ labels, l.Plain B) :
    Settling C (run B C S partitioner labels) ∧ (run B C S partitioner labels).Announced :=
  Machine.run_invariant (P := fun _ (l : Label) => l.Plain B)
    (I := fun s => Settling C s ∧ s.Announced)
    (fun _ _ hs hl => ⟨hs.1.step hl.faults_eq, hs.2.step hs.1 hl⟩)
    ⟨Settling.start C partitioner, fun _ hd => absurd hd List.not_mem_nil⟩
    (Machine.along_of_forall (fun _ _ hl => hl) _ h)

end Announcements

/-! ## The books -/

/-- Every position is what its owner was created with and the balance of its account.  At rest
the account is made of the transfers: a reserve for each one stored as reserved or later, a
commit for each committed one. -/
structure Reconciled (B : BigNumber) (s : ClosedLoop) : Prop where
  everyone : ∀ id, (stored s.stores.participants id).isSome = true ↔
    id ∈ (created s.exchange.done).map (·.id)
  reservedOnce : ((reserved s.exchange.done).map (·.transferId)).Nodup
  committedOnce : ((committed s.exchange.done).map (·.transferId)).Nodup
  position : ∀ p ∈ created s.exchange.done, ∀ currency,
    ∃ p', stored s.stores.participants p.id = some p' ∧ p'.FinitePositions B ∧
      p'.positionIn B currency = p.positionIn B currency +
        balance B currency p.id (reserved s.exchange.done) (committed s.exchange.done)
  reserves : s.pending = [] → ∀ terms, terms ∈ reserved s.exchange.done ↔
    ∃ t, s.stores.transfer terms.transferId = some t ∧ t.terms = terms ∧
      t.transferInternalState ≠ .receivedPrepare
  commits : s.pending = [] → ∀ terms, terms ∈ committed s.exchange.done ↔
    ∃ t, s.stores.transfer terms.transferId = some t ∧ t.terms = terms ∧
      t.transferInternalState = .committed

section Books

variable {B : BigNumber} {C : Crypto} {s : ClosedLoop}

/-- At rest the reserves are those of the stored transfers. -/
theorem mem_reserved_iff (hledger : Ledgered B s.exchange) (hannounced : s.Announced)
    (hrest : s.AtRest C) (terms : TransferTerms) :
    terms ∈ reserved s.exchange.done ↔
      ∃ t, s.stores.transfer terms.transferId = some t ∧ t.terms = terms ∧
        t.transferInternalState ≠ .receivedPrepare := by
  constructor
  · intro hterms
    obtain ⟨t, ht, hsame⟩ := hledger.accepted_of_reserved hterms
    refine ⟨t, ht, hsame, (hrest.2 _ t ht).2.mp ?_⟩
    obtain ⟨handled, hhandled, hreserve⟩ := List.mem_filterMap.mp hterms
    obtain ⟨d, hd, hd'⟩ := List.mem_filterMap.mp hhandled
    exact ⟨d, hd, hannounced d hd handled terms hd' hreserve⟩
  · rintro ⟨t, ht, rfl, hstate⟩
    exact hledger.balanced.orderly.held.reserved _ t ht hstate

/-- At rest the commits are those of the committed transfers. -/
theorem mem_committed_iff (hledger : Ledgered B s.exchange) (hrest : s.AtRest C)
    (terms : TransferTerms) :
    terms ∈ committed s.exchange.done ↔
      ∃ t, s.stores.transfer terms.transferId = some t ∧ t.terms = terms ∧
        t.transferInternalState = .committed := by
  constructor
  · intro hterms
    obtain ⟨t, ht, hsame, hstate⟩ := hledger.stored_of_committed hterms
    refine ⟨t, ht, hsame, ?_⟩
    rcases (hrest.2 _ t ht).1 with hcommitted | ⟨hprepare, -⟩ | ⟨hreserved, -⟩
    · exact hcommitted
    · rw [hprepare] at hstate
      rcases hstate with hstate | hstate <;> cases hstate
    · rw [hreserved] at hstate
      rcases hstate with hstate | hstate <;> cases hstate
  · rintro ⟨t, ht, rfl, hstate⟩
    exact hledger.committed_of_stored ht hstate

end Books

/-- In every run of the loop without failures and redeliveries the accounts add up, and at rest
they agree with the transfers. -/
theorem books_reconcile (B : BigNumber) (C : Crypto) (S : Simulator) (partitioner : String → Nat)
    {labels : List Label} (h : ∀ l ∈ labels, l.Plain B) :
    Reconciled B (run B C S partitioner labels) := by
  have hledger := ledgered_run (C := C) (S := S) partitioner h
  obtain ⟨hsettling, hannounced⟩ := announced_run (B := B) (C := C) (S := S) partitioner h
  exact
    { everyone := hledger.balanced.books.everyone
      reservedOnce := hledger.balanced.reserved_nodup
      committedOnce := hledger.balanced.committed_nodup
      position := fun p hp currency => hledger.positionIn_eq hp currency
      reserves := fun hidle => mem_reserved_iff hledger hannounced (hsettling.atRest hidle)
      commits := fun hidle => mem_committed_iff hledger (hsettling.atRest hidle) }

theorem books_reconcile_sample :
    Reconciled Participants.wholeNumbers (run Participants.wholeNumbers
      Transfers.TransfersAgg.sampleCrypto sampleSimulator (fun _ => 0) sampleInputs) :=
  books_reconcile Participants.wholeNumbers Transfers.TransfersAgg.sampleCrypto sampleSimulator
    (fun _ => 0) (by
      intro l hl
      simp only [sampleInputs, List.mem_cons, List.not_mem_nil, or_false] at hl
      rcases hl with rfl | rfl | rfl | rfl
      · exact Switch.sampleParticipant_finite "blue"
      · exact Switch.sampleParticipant_finite "green"
      · trivial
      · rfl)

end ClosedLoop

end Devtools
end PocArchitecture
