/-
The accounts of the participants in the composed system.

As in `Conservation` every message is delivered once and nothing fails, and the accounts are
kept from the record of what was handled.  The transfers know of the same movements: one that
is stored as reserved or later has its reserve on record, and a committed one its commit.
-/
import PocArchitecture.Participants.Ledger
import PocArchitecture.Switch.Conservation

namespace PocArchitecture
namespace Switch

open PublicMessages Infrastructure
open Participants (ParticipantState BigNumber redisParticipantStateRepo)
open Participants.ParticpantsAgg (AllStored Books Posted balance)
open Transfers (Crypto TransferState)

/-! ## Posting -/

section Entries

variable {B : BigNumber} {C : Crypto} {stores : Stores}

/-- What a message leaves in the accounts. -/
theorem posted_entry (hw : WellKept stores) (hall : AllStored stores.participants)
    {people : List ParticipantState} {held spent : List TransferTerms}
    (hbooks : Books B stores.participants people held spent)
    (h : Posted B stores.participants people held spent)
    (hspent : ∀ terms ∈ spent, terms ∈ held) {e : Envelope}
    (hcommit : ∀ terms, e.msg = .participantCmd (.commitPayeeFundsCmd terms) → terms ∈ held) :
    Posted B (react B C Faults.none stores e.msg).1.participants
      (people ++ (Exchange.entry B C stores e).creation.toList)
      (held ++ (Exchange.entry B C stores e).reserve.toList)
      (spent ++ (Exchange.entry B C stores e).commit.toList) := by
  obtain ⟨msg, echo⟩ := e
  cases msg with
  | participantCmd cmd =>
    have heff := Participants.ParticpantsAgg.process_effect hw.participants hall B cmd
    change Posted B (Participants.ParticpantsAgg.process B stores.participants cmd).repo _ _ _
    cases cmd with
    | createParticipantCmd p =>
      simp only [Handled.creation, Handled.reserve, Handled.commit, Exchange.entry_msg,
        Option.toList_none, List.append_nil]
      by_cases hmem : .participantEvt (.participantCreatedEvt p.id p.name) ∈
          (Exchange.entry B C stores
            { msg := .participantCmd (.createParticipantCmd p), echo := echo }).published
      · rw [if_pos hmem]
        exact h.create hbooks hspent heff (mem_entry.mp hmem)
      · rw [if_neg hmem, Option.toList_none, List.append_nil]
        apply h.silent heff
        · intro p' hp' hm
          cases hp'
          exact hmem (mem_entry.mpr hm)
        · exact fun hadmits => hadmits
    | reservePayerFundsCmd terms =>
      have hmoved := moved_entry (B := B) (C := C) hw hall
        (e := { msg := .participantCmd (.reservePayerFundsCmd terms), echo := echo })
      simp only [Handled.creation, Handled.reserve, Handled.commit, Exchange.entry_msg,
        Option.toList_none, List.append_nil]
      by_cases hadmits : Participants.ParticpantsAgg.Admits redisParticipantStateRepo B
          stores.participants (.reservePayerFundsCmd terms)
      · rw [if_pos (hmoved.mpr ⟨_, rfl, hadmits⟩)]
        exact h.reserve hbooks heff hadmits
      · have hstill : ¬ Handled.moved (Exchange.entry B C stores
            { msg := .participantCmd (.reservePayerFundsCmd terms), echo := echo }) = true := by
          intro hm
          obtain ⟨cmd, hcmd, hadmits'⟩ := hmoved.mp hm
          cases hcmd
          exact hadmits hadmits'
        rw [if_neg hstill, Option.toList_none, List.append_nil]
        exact h.silent heff (fun p hp => by cases hp) hadmits
    | commitPayeeFundsCmd terms =>
      simp only [Handled.creation, Handled.reserve, Handled.commit, Exchange.entry_msg,
        Option.toList_none, List.append_nil]
      exact h.commit hbooks heff (hcommit terms rfl)
    | snapshotParticipantStateCmd participantId =>
      simp only [Handled.creation, Handled.reserve, Handled.commit, Exchange.entry_msg,
        Option.toList_none, List.append_nil]
      exact h.silent heff (fun p hp => by cases hp) fun hadmits => hadmits
  | _ =>
    rw [react_participants fun _ hmsg => by cases hmsg]
    simpa only [Handled.creation, Handled.reserve, Handled.commit, Exchange.entry_msg,
      Option.toList_none, List.append_nil] using h

end Entries

/-! ## Confirmed commits -/

/-- The transfer a message confirms the commit of. -/
def DomainMessage.confirmsCommit : DomainMessage → Option String
  | participantEvt (.payeeFundsCommittedEvt payload) => some payload.transferId
  | transferCmd (.ackPayeeFundsCommittedCmd payload) => some payload.transferId
  | _ => none

/-- The transfers with a handled commit. -/
def spentIds (done : List Handled) : List String := (committed done).map (·.transferId)

/-- A published commit: the command it answers. -/
theorem published_committed {B : BigNumber} {f : Participants.Faults} {w : Participants.World}
    {cmd : Participants.Command}
    (hw : Participants.ParticpantsAgg.WellKept redisParticipantStateRepo w)
    {payload : PayeeFundsCommittedEvtPayload}
    (h : .payeeFundsCommittedEvt payload ∈ (Participants.ParticpantsAgg.processCommand
      redisParticipantStateRepo B f w cmd).published) :
    ∃ terms, cmd = .commitPayeeFundsCmd terms ∧ payload.transferId = terms.transferId := by
  rw [Participants.ParticpantsAgg.processCommand_published Participants.redis_lawful
    (hw.keyed cmd)] at h
  have hmem := Participants.ParticpantsAgg.mem_published h
  cases hv : Participants.ParticpantsAgg.verdict redisParticipantStateRepo B w cmd with
  | reject => rw [hv] at hmem; cases hmem
  | refuse root events =>
    obtain ⟨m, rfl, hm⟩ := Participants.ParticpantsAgg.verdict_refuse hv
    rw [hv] at hmem
    obtain rfl := List.mem_singleton.mp hmem
    cases hm
  | create participant =>
    rw [hv] at hmem
    rcases List.mem_pair.mp hmem with he | he <;> cases he
  | snapshot root =>
    rw [hv] at hmem
    cases List.mem_singleton.mp hmem
  | move root root' events stateEvent =>
    obtain ⟨-, _, _, _, -, -, -, -, -, rfl⟩ := Participants.ParticpantsAgg.verdict_move hv
    rw [hv] at hmem
    rcases Participants.ParticpantsAgg.verdict_move_event hv with
      ⟨terms, payload', rfl, rfl, hid⟩ | ⟨terms, payload', rfl, rfl, hid⟩
    · rcases List.mem_pair.mp hmem with he | he <;> cases he
    · rcases List.mem_pair.mp hmem with he | he
      · cases he
        exact ⟨terms, rfl, hid⟩
      · cases he

section Confirmation

variable {B : BigNumber} {C : Crypto} {stores : Stores} {msg m : DomainMessage} {id : String}
  {t : TransferState}

/-- A commit is confirmed when it is handled, and the confirmation is passed on. -/
theorem confirmsCommit_of_mem (hw : WellKept stores)
    (hm : m ∈ (react B C Faults.none stores msg).2) (hid : m.confirmsCommit = some id) :
    msg.confirmsCommit = some id ∨
      ∃ terms, msg = .participantCmd (.commitPayeeFundsCmd terms) ∧ terms.transferId = id := by
  cases publishes_of_mem hm with
  | transferEvt cmd evt hevt => cases hid
  | participantCmd evt cmd hcmd => cases hid
  | transferCmd _ cmd hcmd =>
    left
    cases cmd with
    | ackPayeeFundsCommittedCmd payload =>
      cases msg with
      | participantEvt evt =>
        cases evt with
        | payeeFundsCommittedEvt payload' =>
          cases hcmd
          exact hid
        | _ => cases hcmd
      | _ => cases hcmd
    | _ => cases hid
  | participantEvt cmd evt hevt =>
    right
    cases evt with
    | payeeFundsCommittedEvt payload =>
      obtain rfl := Option.some.inj hid
      obtain ⟨terms, rfl, hterms⟩ := published_committed hw.participants hevt
      exact ⟨terms, rfl, hterms.symm⟩
    | _ => cases hid

/-- A transfer becomes committed by the confirmation of its commit. -/
theorem confirmsCommit_of_committed (hw : WellKept stores)
    (ht : (react B C Faults.none stores msg).1.transfer id = some t)
    (hstate : t.transferInternalState = .committed) :
    stores.transfer id = some t ∨ msg.confirmsCommit = some id := by
  cases msg with
  | transferCmd cmd =>
    by_cases hid : id = cmd.transferId
    · subst hid
      have hview := (Transfers.TransfersAgg.processCommand_view_self (C := C)
        (f := Transfers.Faults.none) Transfers.redis_lawful (hw.transfers.keyed cmd)).symm.trans ht
      rcases Transfers.TransfersAgg.finalView_some hview with
        hbefore | ⟨haccepted, -⟩ | ⟨_, -, halias⟩
      · exact Or.inl hbefore
      · right
        rcases Transfers.TransfersAgg.verdict_cases Transfers.redisTransferStateRepo C
            Transfers.Faults.none stores.transfers cmd with
          ⟨-, hv⟩ | ⟨payload, -, -, hv⟩ | ⟨_, _, hv, -⟩ | ⟨s, s', events, hv, -, hadv⟩
        · rw [hv] at haccepted
          cases haccepted
        · rw [hv] at haccepted
          obtain rfl := Option.some.inj haccepted
          cases hstate
        · rw [hv] at haccepted
          cases haccepted
        · rw [hv] at haccepted
          obtain rfl := Option.some.inj haccepted
          cases hadv with
          | reserve payload _ => cases hstate
          | fulfil payload _ _ => cases hstate
          | commit payload _ => rfl
      · cases halias
    · left
      rw [← ht]
      exact (Transfers.TransfersAgg.processCommand_view_ne Transfers.redis_lawful
        (hw.transfers.keyed cmd) hid).symm
  | _ =>
    left
    rw [← ht, Stores.transfer, Stores.transfer, react_transfers fun _ he => by cases he]

end Confirmation

/-! ## The invariant -/

/-- The accounts follow the record, and whatever is confirmed was handled. -/
structure Ledgered (B : BigNumber) (s : Exchange) : Prop where
  balanced : Balanced B s
  posted : Posted B s.stores.participants (created s.done) (reserved s.done) (committed s.done)
  confirmed : ∀ e ∈ s.pending, ∀ id, e.msg.confirmsCommit = some id → id ∈ spentIds s.done
  committed : ∀ id t, s.stores.transfer id = some t → t.transferInternalState = .committed →
    id ∈ spentIds s.done

theorem spentIds_concat (done : List Handled) (h : Handled) :
    spentIds (done ++ [h]) = spentIds done ++ (h.commit.map (·.transferId)).toList := by
  rw [spentIds, committed_concat, List.map_append, spentIds]
  cases h.commit <;> rfl

namespace Ledgered

variable {B : BigNumber} {C : Crypto} {s : Exchange} {d : Delivery}

theorem start (partitioner : String → Nat) : Ledgered B (Exchange.start partitioner) where
  balanced := Balanced.start partitioner
  posted := Posted.start partitioner
  confirmed e he := absurd he List.not_mem_nil
  committed id t ht := by cases ht

theorem receive (h : Ledgered B s) {input : Input}
    (hbalanced : Balanced B
      { s with pending := s.pending ++ [{ msg := input.message, echo := false }] }) :
    Ledgered B { s with pending := s.pending ++ [{ msg := input.message, echo := false }] } where
  balanced := hbalanced
  posted := h.posted
  confirmed e he id hid := by
    rcases List.mem_append.mp he with he | he
    · exact h.confirmed e he id hid
    · obtain rfl := List.mem_singleton.mp he
      cases input <;> cases hid
  committed := h.committed

/-- A confirmation that is published by a handled message is of a handled commit. -/
theorem mem_spentIds (h : Ledgered B s) {e : Envelope} (he : e ∈ s.pending) {m : DomainMessage}
    (hm : m ∈ (react B C Faults.none s.stores e.msg).2) {id : String}
    (hid : m.confirmsCommit = some id) :
    id ∈ spentIds (s.done ++ [Exchange.entry B C s.stores e]) := by
  rw [spentIds_concat, List.mem_append]
  rcases confirmsCommit_of_mem h.balanced.orderly.wellKept hm hid with hold | ⟨terms, hmsg, hterms⟩
  · exact Or.inl (h.confirmed e he id hold)
  · right
    rw [Handled.commit, Exchange.entry_msg, hmsg, ← hterms]
    exact List.mem_cons_self

theorem handle (h : Ledgered B s) {e : Envelope} (he : e ∈ s.pending) {rest : List Envelope}
    (hrest : ∀ e ∈ rest, e ∈ s.pending)
    (hbalanced : Balanced B (Exchange.handle B C { s with pending := rest } e)) :
    Ledgered B (Exchange.handle B C { s with pending := rest } e) := by
  have horderly := h.balanced.orderly
  have hcommit : ∀ terms, e.msg = .participantCmd (.commitPayeeFundsCmd terms) →
      terms ∈ reserved s.done := by
    intro terms hmsg
    have hgrounded := horderly.pending e he
    rw [hmsg] at hgrounded
    exact hgrounded
  have hposted := posted_entry (C := C) horderly.wellKept horderly.allStored h.balanced.books
    h.posted h.balanced.reserved_of_committed hcommit
  rw [← created_concat, ← reserved_concat, ← committed_concat] at hposted
  have hgrow : ∀ id, id ∈ spentIds s.done →
      id ∈ spentIds (s.done ++ [Exchange.entry B C s.stores e]) := by
    intro id hid
    rw [spentIds_concat]
    exact List.mem_append_left _ hid
  refine { balanced := hbalanced, posted := hposted, confirmed := ?_, committed := ?_ }
  · intro e' he' id hid
    rcases List.mem_append.mp he' with he' | he'
    · exact hgrow id (h.confirmed e' (hrest e' he') id hid)
    · obtain ⟨m, hm, rfl⟩ := List.mem_map.mp he'
      exact h.mem_spentIds he hm hid
  · intro id t ht hstate
    apply hgrow
    rcases confirmsCommit_of_committed horderly.wellKept ht hstate with hbefore | hconfirms
    · exact h.committed id t hbefore hstate
    · exact h.confirmed e he id hconfirms

theorem step (h : Ledgered B s) (hd : d.isRedelivery = false)
    (hinput : ∀ p, d = .receive (.createParticipant p) → p.FinitePositions B) :
    Ledgered B (Exchange.step B C s d) := by
  have hbalanced := h.balanced.step (C := C) hd hinput
  have htook := Exchange.took B C s d
  generalize Exchange.step B C s d = s' at hbalanced htook ⊢
  cases htook with
  | receive input hreceive => exact h.receive hbalanced
  | handle e rest htaken hrest hknown hfresh =>
    have he : e ∈ s.pending := by
      rcases hknown with he | hre
      · exact he
      · rw [hd] at hre
        cases hre.1
    exact h.handle he hrest hbalanced
  | idle htaken => exact h

/-- Reserves are of accepted transfers. -/
theorem accepted_of_reserved (h : Ledgered B s) {terms : TransferTerms}
    (hterms : terms ∈ reserved s.done) : Accepted s.stores terms := by
  obtain ⟨done, hdone, hreserve⟩ := List.mem_filterMap.mp hterms
  have hgrounded := h.balanced.orderly.done done hdone
  rw [Handled.msg_of_reserve hreserve] at hgrounded
  exact hgrounded

/-- A committed transfer was committed on its terms. -/
theorem committed_of_stored (h : Ledgered B s) {id : String} {t : TransferState}
    (ht : s.stores.transfer id = some t) (hstate : t.transferInternalState = .committed) :
    t.terms ∈ Switch.committed s.done := by
  obtain ⟨terms, hterms, hid⟩ := List.mem_map.mp (h.committed id t ht hstate)
  obtain ⟨t', ht', rfl⟩ := h.accepted_of_reserved (h.balanced.reserved_of_committed terms hterms)
  rw [hid, ht] at ht'
  obtain rfl := Option.some.inj ht'
  exact hterms

/-- The commit of a transfer comes after its fulfilment. -/
theorem stored_of_committed (h : Ledgered B s) {terms : TransferTerms}
    (hterms : terms ∈ Switch.committed s.done) :
    ∃ t, s.stores.transfer terms.transferId = some t ∧ t.terms = terms ∧
      (t.transferInternalState = .receivedFulfil ∨ t.transferInternalState = .committed) := by
  have horderly := h.balanced.orderly
  obtain ⟨t, ht, hsame⟩ := h.accepted_of_reserved (h.balanced.reserved_of_committed terms hterms)
  refine ⟨t, ht, hsame, ?_⟩
  have hhandled : 0 < s.handledFresh (commitFor terms.transferId) := by
    obtain ⟨done, hdone, hcommit⟩ := List.mem_filterMap.mp hterms
    apply List.countP_pos_iff.mpr
    refine ⟨done, hdone, ?_⟩
    rw [h.balanced.doneFresh done hdone, Handled.msg_of_commit hcommit]
    exact decide_eq_true rfl
  have hpassed : 0 < (s.stores.passedBy terms.transferId).count .receivedFulfil :=
    calc 0 < s.handledFresh (commitFor terms.transferId) := hhandled
      _ ≤ s.fresh (commitFor terms.transferId) := s.handledFresh_le_fresh _
      _ ≤ s.handledFresh (announces terms.transferId .receivedFulfil) := horderly.commits _
      _ ≤ s.fresh (announces terms.transferId .receivedFulfil) := s.handledFresh_le_fresh _
      _ ≤ (s.stores.passedBy terms.transferId).count .receivedFulfil := horderly.announced _ _
  rw [Stores.passedBy, ht, Option.map_some] at hpassed
  cases hstate : t.transferInternalState with
  | receivedFulfil => exact Or.inl rfl
  | committed => exact Or.inr rfl
  | _ =>
    rw [hstate] at hpassed
    exact absurd hpassed (by decide)

/-- Where everyone stands. -/
theorem positionIn_eq (h : Ledgered B s) {p : ParticipantState} (hp : p ∈ created s.done)
    (currency : CurrencyTypes) :
    ∃ p', Participants.ParticpantsAgg.stored s.stores.participants p.id = some p' ∧
      p'.FinitePositions B ∧ p'.positionIn B currency = p.positionIn B currency +
        balance B currency p.id (reserved s.done) (Switch.committed s.done) := by
  have hsome := (h.balanced.books.everyone p.id).mpr (List.mem_map_of_mem hp)
  obtain ⟨p', hp'⟩ := Option.isSome_iff_exists.mp hsome
  have hgain := h.posted p hp currency
  rw [Participants.ParticpantsAgg.gain, hp', Option.elim_some] at hgain
  refine ⟨p', hp', h.balanced.books.finite _ p' hp', ?_⟩
  rw [← hgain]
  abel

/-- A reserve that is in flight has not been handled. -/
theorem not_mem_reserved (h : Ledgered B s) {terms : TransferTerms}
    (he : { msg := .participantCmd (.reservePayerFundsCmd terms), echo := false } ∈ s.pending) :
    terms.transferId ∉ (reserved s.done).map (·.transferId) := by
  have hcount : ((s.done.filterMap Handled.reserve).map (·.transferId)).count terms.transferId ≤
      s.handledFresh (reserveFor terms.transferId) :=
    h.balanced.count_le fun _ _ hterms hid => by
      rw [Handled.msg_of_reserve hterms]
      exact decide_eq_true hid
  have hpending : 0 < s.pending.countP fun e => !e.echo && reserveFor terms.transferId e.msg := by
    apply List.countP_pos_iff.mpr
    exact ⟨_, he, decide_eq_true rfl⟩
  have hfresh : s.fresh (reserveFor terms.transferId) ≤ 1 :=
    calc s.fresh (reserveFor terms.transferId)
      _ ≤ s.handledFresh (announces terms.transferId .receivedPrepare) :=
        h.balanced.orderly.reserves _
      _ ≤ s.fresh (announces terms.transferId .receivedPrepare) := s.handledFresh_le_fresh _
      _ ≤ (s.stores.passedBy terms.transferId).count .receivedPrepare :=
        h.balanced.orderly.announced _ _
      _ ≤ 1 := passed_count_le_one _ _
  change _ + s.handledFresh _ ≤ 1 at hfresh
  apply List.count_eq_zero.mp
  change List.count terms.transferId ((s.done.filterMap Handled.reserve).map (·.transferId)) = 0
  omega

/-- With a reserve that is in flight, an account stays within all there is to reserve. -/
theorem balance_add_debit_le (h : Ledgered B s) {terms : TransferTerms}
    (he : { msg := .participantCmd (.reservePayerFundsCmd terms), echo := false } ∈ s.pending)
    {all : List TransferTerms} (hall : ∀ t ∈ reserved s.done, t ∈ all) (hterms : terms ∈ all)
    (hamount : ∀ t ∈ all, 0 ≤ B.rat t.amount) (currency : CurrencyTypes) (id : String) :
    balance B currency id (reserved s.done) (Switch.committed s.done) +
        Participants.ParticpantsAgg.debit B currency id terms ≤
      (all.map (Participants.ParticpantsAgg.debit B currency id)).sum := by
  have hids : ((reserved s.done ++ [terms]).map (·.transferId)).Nodup := by
    rw [List.map_append, List.map_singleton]
    refine List.nodup_append.mpr ⟨h.balanced.reserved_nodup, List.nodup_singleton _, ?_⟩
    intro i hi j hj hij
    rw [List.mem_singleton.mp hj] at hij
    rw [hij] at hi
    exact h.not_mem_reserved he hi
  have hsub : ∀ t ∈ reserved s.done ++ [terms], t ∈ all := by
    intro t ht
    rcases List.mem_append.mp ht with ht | ht
    · exact hall t ht
    · rw [List.mem_singleton.mp ht]
      exact hterms
  have hle := KeyedSum.sum_map_le hids.of_map hsub
    (f := Participants.ParticpantsAgg.debit B currency id)
    fun t ht => Participants.ParticpantsAgg.debit_nonneg (hamount t ht)
  rw [List.map_append, List.sum_append, List.map_singleton, List.sum_singleton] at hle
  refine le_trans (add_le_add_left ?_ _) hle
  apply Participants.ParticpantsAgg.balance_le
  intro t ht
  exact hamount t (hall t (h.balanced.reserved_of_committed t ht))

end Ledgered

end Switch
end PocArchitecture
