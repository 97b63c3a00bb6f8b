/-
Conservation of funds in the composed system.

Every message is delivered once, in any order, and nothing fails.  The books of the
participants are kept from the record of what was handled: a commit is handled for terms
that are reserved, and since a transfer is reserved and committed at most once, what was
reserved less what was committed is the sum over the transfers that still wait for their
commit.
-/
import PocArchitecture.Participants.Accounting
import PocArchitecture.Switch.Orderly

namespace PocArchitecture
namespace Switch

open PublicMessages Infrastructure
open Participants (ParticipantState BigNumber)
open Participants.ParticpantsAgg (AllStored Books amountIn gain stored)
open Transfers (Crypto)

/-- The participant a command created. -/
def Handled.creation (h : Handled) : Option ParticipantState :=
  match h.msg with
  | .participantCmd (.createParticipantCmd p) =>
    if .participantEvt (.participantCreatedEvt p.id p.name) ∈ h.published then some p else none
  | _ => none

/-- The participants there are, as they were created. -/
def created (done : List Handled) : List ParticipantState := done.filterMap (·.creation)

/-- The transfers with a reserve that went through and no commit processed. -/
def outstanding (done : List Handled) : List TransferTerms :=
  (reserved done).filter fun terms => !decide (terms.transferId ∈ (committed done).map (·.transferId))

theorem created_concat (done : List Handled) (h : Handled) :
    created (done ++ [h]) = created done ++ h.creation.toList := Timeline.filterMap_concat _ _ _

/-! ## Entries in the books -/

section Entries

variable {B : BigNumber} {C : Crypto} {stores : Stores}

theorem mem_entry {cmd : Participants.Command} {echo : Bool} {evt : Participants.Message} :
    .participantEvt evt ∈
        (Exchange.entry B C stores { msg := .participantCmd cmd, echo := echo }).published ↔
      evt ∈ (Participants.ParticpantsAgg.process B stores.participants cmd).published := by
  refine ⟨fun h => ?_, List.mem_map_of_mem⟩
  cases publishes_of_mem h with
  | participantEvt _ _ hevt => exact hevt

/-- What a message leaves in the books. -/
theorem books_entry (hw : WellKept stores) (hall : AllStored stores.participants)
    {people : List ParticipantState} {held spent : List TransferTerms}
    (h : Books B stores.participants people held spent) {e : Envelope}
    (hcreation : ∀ p, e.msg = .participantCmd (.createParticipantCmd p) → p.FinitePositions B)
    (hcommit : ∀ terms, e.msg = .participantCmd (.commitPayeeFundsCmd terms) → terms ∈ held) :
    Books B (react B C Faults.none stores e.msg).1.participants
      (people ++ (Exchange.entry B C stores e).creation.toList)
      (held ++ (Exchange.entry B C stores e).reserve.toList)
      (spent ++ (Exchange.entry B C stores e).commit.toList) := by
  obtain ⟨msg, echo⟩ := e
  cases msg with
  | participantCmd cmd =>
    have heff := Participants.ParticpantsAgg.process_effect hw.participants hall B cmd
    change Books B (Participants.ParticpantsAgg.process B stores.participants cmd).repo _ _ _
    cases cmd with
    | createParticipantCmd p =>
      simp only [Handled.creation, Handled.reserve, Handled.commit, Exchange.entry_msg,
        Option.toList_none, List.append_nil]
      by_cases hmem : .participantEvt (.participantCreatedEvt p.id p.name) ∈
          (Exchange.entry B C stores
            { msg := .participantCmd (.createParticipantCmd p), echo := echo }).published
      · rw [if_pos hmem]
        exact h.create heff (mem_entry.mp hmem) (hcreation p rfl)
      · rw [if_neg hmem, Option.toList_none, List.append_nil]
        refine h.silent heff (fun p' hp' hm => ?_) fun hadmits => hadmits
        cases hp'
        exact hmem (mem_entry.mpr hm)
    | reservePayerFundsCmd terms =>
      have hmoved := moved_entry (B := B) (C := C) hw hall
        (e := { msg := .participantCmd (.reservePayerFundsCmd terms), echo := echo })
      simp only [Handled.creation, Handled.reserve, Handled.commit, Exchange.entry_msg,
        Option.toList_none, List.append_nil]
      by_cases hadmits : Participants.ParticpantsAgg.Admits Participants.redisParticipantStateRepo B
          stores.participants (.reservePayerFundsCmd terms)
      · rw [if_pos (hmoved.mpr ⟨_, rfl, hadmits⟩)]
        exact h.reserve heff hadmits
      · rw [if_neg fun h => ?_, Option.toList_none, List.append_nil]
        · exact h.silent heff (fun p hp => by cases hp) hadmits
        · obtain ⟨cmd, hcmd, hadmits'⟩ := hmoved.mp h
          cases hcmd
          exact hadmits hadmits'
    | commitPayeeFundsCmd terms =>
      simp only [Handled.creation, Handled.reserve, Handled.commit, Exchange.entry_msg,
        Option.toList_none, List.append_nil]
      exact h.commit heff (hcommit terms rfl)
    | snapshotParticipantStateCmd participantId =>
      simp only [Handled.creation, Handled.reserve, Handled.commit, Exchange.entry_msg,
        Option.toList_none, List.append_nil]
      exact h.silent heff (fun p hp => by cases hp) fun hadmits => hadmits
  | _ =>
    rw [react_participants fun _ hmsg => by cases hmsg]
    simpa only [Handled.creation, Handled.reserve, Handled.commit, Exchange.entry_msg,
      Option.toList_none, List.append_nil] using h

end Entries

/-! ## The invariant -/

structure Balanced (B : BigNumber) (s : Exchange) : Prop where
  orderly : Orderly s
  pendingFresh : ∀ e ∈ s.pending, e.echo = false
  doneFresh : ∀ h ∈ s.done, h.echo = false
  creations : ∀ e ∈ s.pending, ∀ p, e.msg = .participantCmd (.createParticipantCmd p) →
    p.FinitePositions B
  books : Books B s.stores.participants (created s.done) (reserved s.done) (committed s.done)
  preceded : ∀ before h, before ++ [h] <+: s.done → ∀ terms, h.commit = some terms →
    terms ∈ reserved before

namespace Balanced

variable {B : BigNumber} {C : Crypto} {s : Exchange} {d : Delivery}

theorem start (partitioner : String → Nat) : Balanced B (Exchange.start partitioner) where
  orderly := Orderly.start partitioner
  pendingFresh _ he := absurd he List.not_mem_nil
  doneFresh _ hh := absurd hh List.not_mem_nil
  creations _ he := absurd he List.not_mem_nil
  books := Books.start partitioner
  preceded before h hprefix := by
    have := List.prefix_nil.mp hprefix
    simp at this

theorem receive (h : Balanced B s) {input : Input}
    (hinput : ∀ p, input = .createParticipant p → p.FinitePositions B) :
    Balanced B { s with pending := s.pending ++ [{ msg := input.message, echo := false }] } where
  orderly := h.orderly.receive input
  pendingFresh e he := by
    rcases List.mem_append.mp he with he | he
    · exact h.pendingFresh e he
    · rw [List.mem_singleton.mp he]
  doneFresh := h.doneFresh
  creations e he p hp := by
    rcases List.mem_append.mp he with he | he
    · exact h.creations e he p hp
    · obtain rfl := List.mem_singleton.mp he
      cases input with
      | createParticipant p' =>
        cases hp
        exact hinput p rfl
      | _ => cases hp
  books := h.books
  preceded := h.preceded

/-- A pending message in the consumer's hands. -/
theorem handle (h : Balanced B s) {e : Envelope} (he : e ∈ s.pending) {rest : List Envelope}
    (hrest : ∀ e ∈ rest, e ∈ s.pending)
    (horderly : Orderly (Exchange.handle B C { s with pending := rest } e)) :
    Balanced B (Exchange.handle B C { s with pending := rest } e) := by
  have hfresh : e.echo = false := h.pendingFresh e he
  -- a commit in flight is for reserved terms
  have hcommit : ∀ terms, e.msg = .participantCmd (.commitPayeeFundsCmd terms) →
      terms ∈ reserved s.done := by
    intro terms hmsg
    have hgrounded := h.orderly.pending e he
    rw [hmsg] at hgrounded
    exact hgrounded
  have hbooks := books_entry (C := C) h.orderly.wellKept h.orderly.allStored h.books
    (h.creations e he) hcommit
  rw [← created_concat, ← reserved_concat, ← committed_concat] at hbooks
  exact
    { orderly := horderly
      pendingFresh := fun e' he' => by
        rcases List.mem_append.mp he' with he' | he'
        · exact h.pendingFresh e' (hrest e' he')
        · obtain ⟨m, hm, rfl⟩ := List.mem_map.mp he'
          exact hfresh
      doneFresh := fun h' hh' => by
        rcases List.mem_append.mp hh' with hh' | hh'
        · exact h.doneFresh h' hh'
        · rw [List.mem_singleton.mp hh']
          exact hfresh
      creations := fun e' he' p hp => by
        rcases List.mem_append.mp he' with he' | he'
        · exact h.creations e' (hrest e' he') p hp
        · obtain ⟨m, hm, rfl⟩ := List.mem_map.mp he'
          subst hp
          exact absurd hm react_creates_nobody
      books := hbooks
      preceded := fun before h' hprefix terms hterms => by
        rcases List.prefix_concat_iff.mp hprefix with heq | hprefix
        · obtain ⟨rfl, hlast⟩ := List.append_inj' heq rfl
          obtain rfl := List.singleton_inj.mp hlast
          exact hcommit terms (Handled.msg_of_commit hterms)
        · exact h.preceded before h' hprefix terms hterms }

theorem step (h : Balanced B s) (hd : d.isRedelivery = false)
    (hinput : ∀ p, d = .receive (.createParticipant p) → p.FinitePositions B) :
    Balanced B (Exchange.step B C s d) := by
  have horderly := h.orderly.step B C d
  have htook := Exchange.took B C s d
  generalize Exchange.step B C s d = s' at htook horderly ⊢
  cases htook with
  | receive input hreceive => exact h.receive fun p hp => hinput p (hp ▸ hreceive)
  | handle e rest htaken hrest hknown hfresh =>
    -- without redeliveries the message is a pending one
    have he : e ∈ s.pending := hknown.resolve_right fun hre => by
      rw [hd] at hre
      cases hre.1
    exact h.handle he hrest horderly
  | idle htaken => exact h

theorem count_le (h : Balanced B s) {f : Handled → Option TransferTerms}
    {p : DomainMessage → Bool} {id : String}
    (hf : ∀ h terms, f h = some terms → terms.transferId = id → p h.msg = true) :
    ((s.done.filterMap f).map (·.transferId)).count id ≤ s.handledFresh p := by
  rw [List.count, List.countP_map, List.countP_filterMap, Exchange.handledFresh]
  refine List.countP_mono_left fun h' hh' hcount => ?_
  rw [h.doneFresh h' hh', Bool.not_false, Bool.true_and]
  cases hterms : f h' with
  | none =>
    rw [hterms] at hcount
    cases hcount
  | some terms =>
    rw [hterms] at hcount
    exact hf h' terms hterms (beq_iff_eq.mp hcount)

theorem reserved_nodup (h : Balanced B s) : ((reserved s.done).map (·.transferId)).Nodup :=
  List.nodup_iff_count_le_one.mpr fun id => le_trans
    (h.count_le fun _ _ hterms hid => by
      rw [Handled.msg_of_reserve hterms]
      exact decide_eq_true hid) (h.orderly.reserve_once id)

theorem committed_nodup (h : Balanced B s) : ((committed s.done).map (·.transferId)).Nodup :=
  List.nodup_iff_count_le_one.mpr fun id => le_trans
    (h.count_le fun _ _ hterms hid => by
      rw [Handled.msg_of_commit hterms]
      exact decide_eq_true hid) (h.orderly.commit_once id)

theorem reserved_of_committed (h : Balanced B s) :
    ∀ terms ∈ committed s.done, terms ∈ reserved s.done := by
  intro terms ht
  obtain ⟨h', hh', hterms⟩ := List.mem_filterMap.mp ht
  have hgrounded := h.orderly.done h' hh'
  rw [Handled.msg_of_commit hterms] at hgrounded
  exact hgrounded

end Balanced

/-! ## Conservation -/

/-- The funds are accounted for: everyone stored was created once, all positions are
finite, and in every currency the participants have gained since their creation the
amounts of the transfers reserved, once each, and not yet committed; and every commit
was for terms reserved before. -/
structure Conserved (B : BigNumber) (s : Exchange) : Prop where
  everyone : ∀ id, (stored s.stores.participants id).isSome = true ↔
    id ∈ (created s.done).map (·.id)
  createdOnce : ((created s.done).map (·.id)).Nodup
  finite : ∀ id p, stored s.stores.participants id = some p → p.FinitePositions B
  balance : ∀ currency,
    ((created s.done).map fun p => gain B s.stores.participants currency p).sum =
      (((outstanding s.done).filter fun terms => currency = terms.currency).map
        fun terms => B.rat terms.amount).sum
  reservedOnce : ((reserved s.done).map (·.transferId)).Nodup
  preceded : ∀ before h, before ++ [h] <+: s.done → ∀ terms, h.commit = some terms →
    terms ∈ reserved before

theorem Balanced.conserved {B : BigNumber} {s : Exchange} (h : Balanced B s) : Conserved B s where
  everyone := h.books.everyone
  createdOnce := h.books.once
  finite := h.books.finite
  balance currency := by
    rw [KeyedSum.sum_map_filter]
    simp only [decide_eq_true_eq]
    exact (h.books.balance currency).trans (KeyedSum.sum_absent h.reserved_nodup h.committed_nodup
      h.reserved_of_committed (amountIn B currency)).symm
  reservedOnce := h.reserved_nodup
  preceded := h.preceded

/-- Funds are conserved in every run without redeliveries, in whatever order the messages
are delivered, if participants are created with finite positions. -/
theorem conservation (B : BigNumber) (C : Crypto) (partitioner : String → Nat)
    (deliveries : List Delivery) (honce : ∀ d ∈ deliveries, d.isRedelivery = false)
    (hfinite : ∀ p, .receive (.createParticipant p) ∈ deliveries → p.FinitePositions B) :
    Conserved B (Exchange.run B C partitioner deliveries) := by
  refine Balanced.conserved (Machine.run_invariant (P := fun _ d => d ∈ deliveries)
    (fun s d h hd => ?_) (Balanced.start partitioner)
    (Machine.along_of_forall (fun _ _ hd => hd) _ fun _ hd => hd))
  exact h.step (honce d hd) fun p hp => hfinite p (hp ▸ hd)

theorem sampleParticipant_finite (id : String) :
    (Participants.ParticpantsAgg.sampleParticipant id).FinitePositions Participants.wholeNumbers := by
  intro currency account hacc
  obtain rfl := List.mem_singleton.mp (List.mem_of_find?_eq_some hacc)
  exact ⟨0, rfl⟩

/-- Ten are reserved and not committed. -/
theorem conservation_sample :
    Conserved Participants.wholeNumbers (Exchange.run Participants.wholeNumbers
      Transfers.TransfersAgg.sampleCrypto (fun _ => 0) (sampleReservation "10")) :=
  conservation Participants.wholeNumbers Transfers.TransfersAgg.sampleCrypto (fun _ => 0)
    (sampleReservation "10") (by decide +kernel)
    (fun p hp => by
      simp only [sampleReservation, List.mem_append, List.mem_cons, List.map_cons, List.map_nil,
        Delivery.receive.injEq, Input.createParticipant.injEq, reduceCtorEq, or_false,
        List.not_mem_nil] at hp
      rcases hp with rfl | rfl <;> exact sampleParticipant_finite _)

example : outstanding (Exchange.run Participants.wholeNumbers Transfers.TransfersAgg.sampleCrypto
    (fun _ => 0) (sampleReservation "10")).done = [(samplePrepare "10").terms] := by
  decide +kernel

end Switch
end PocArchitecture
