/-
What the messages of an exchange are worth.

`Orderly` ties the messages, fresh or echoes, to the stores and to the record.  The terms a
message carries are those of a stored transfer, and the funds it builds on are reserved.
For each transfer and each step of its life there is at most one fresh announcement, and a
fresh reserve or commit only for a handled one; so a reserve is handled at most once but
for echoes, and a commit too.
-/
import PocArchitecture.Switch.Delivery

namespace PocArchitecture
namespace Switch

open PublicMessages Infrastructure
open Participants (ParticipantState BigNumber redisParticipantStateRepo)
open Participants.ParticpantsAgg (Admits AllStored Moves)
open Transfers (Crypto TransferState TransferInternalStates)

/-- A transfer with these terms is stored. -/
def Accepted (stores : Stores) (terms : TransferTerms) : Prop :=
  ∃ t, stores.transfer terms.transferId = some t ∧ t.terms = terms

theorem oneTerms_accepted (stores : Stores) : OneTerms (Accepted stores) := by
  rintro a b ⟨t, ht, rfl⟩ ⟨t', ht', rfl⟩ hid
  rw [hid] at ht
  rw [Option.some.inj (ht.symm.trans ht')]

section Reaction

variable {B : BigNumber} {C : Crypto} {stores : Stores} {msg : DomainMessage}

theorem Accepted.react (hw : WellKept stores) {terms : TransferTerms} (h : Accepted stores terms) :
    Accepted (Switch.react B C Faults.none stores msg).1 terms := by
  obtain ⟨t, ht, rfl⟩ := h
  obtain ⟨msgs, hstep, -⟩ := react_lifeStep B C hw msg t.terms.transferId
  rcases hstep.prepareData_map with hnone | hsame
  · rw [hnone] at ht
    cases ht
  · rw [ht] at hsame
    obtain ⟨t', ht', hdata⟩ := Option.map_eq_some_iff.mp hsame
    exact ⟨t', ht', TransferState.terms_eq_of_prepareData hdata⟩

/-- Accepted terms are stored before they are announced to anyone. -/
theorem accepted_of_published (hw : WellKept stores) {terms : TransferTerms}
    (h : .transferEvt (.transferPrepareAcceptedEvt terms) ∈ (react B C Faults.none stores msg).2) :
    Accepted (react B C Faults.none stores msg).1 terms := by
  cases publishes_of_mem h with
  | transferEvt cmd evt hevt =>
    exact Transfers.TransfersAgg.stored_of_accepted hw.transfers hevt

/-- A message moves a position when it is a command that the participants admit. -/
theorem moved_entry (hw : WellKept stores) (hall : AllStored stores.participants) {e : Envelope} :
    (Exchange.entry B C stores e).moved = true ↔
      ∃ cmd, e.msg = .participantCmd cmd ∧
        Admits redisParticipantStateRepo B stores.participants cmd := by
  obtain ⟨msg, echo⟩ := e
  rw [Handled.moved, List.any_eq_true]
  constructor
  · rintro ⟨m, hm, hmove⟩
    cases publishes_of_mem hm with
    | participantEvt cmd evt hevt =>
      exact ⟨cmd, rfl, (Participants.ParticpantsAgg.process_effect hw.participants hall B
        cmd).moves_iff.mp ⟨evt, hevt, hmove⟩⟩
    | _ => cases hmove
  · rintro ⟨cmd, rfl, hadmits⟩
    obtain ⟨evt, hevt, hmove⟩ := (Participants.ParticpantsAgg.process_effect hw.participants hall B
      cmd).moves_iff.mpr hadmits
    exact ⟨.participantEvt evt, List.mem_map_of_mem hevt, hmove⟩

end Reaction

/-! ## The invariant -/

structure Orderly (s : Exchange) : Prop where
  wellKept : WellKept s.stores
  allStored : AllStored s.stores.participants
  held : Held (Accepted s.stores) (· ∈ reserved s.done) s.stores.transfers
  pending : ∀ e ∈ s.pending, Grounded (Accepted s.stores) (· ∈ reserved s.done) e.msg
  done : ∀ h ∈ s.done, Grounded (Accepted s.stores) (· ∈ reserved s.done) h.msg
  announced : ∀ id state, s.fresh (announces id state) ≤ (s.stores.passedBy id).count state
  reserves : ∀ id, s.fresh (reserveFor id) ≤ s.handledFresh (announces id .receivedPrepare)
  commits : ∀ id, s.fresh (commitFor id) ≤ s.handledFresh (announces id .receivedFulfil)

namespace Orderly

variable {B : BigNumber} {C : Crypto} {s : Exchange}

theorem start (partitioner : String → Nat) : Orderly (Exchange.start partitioner) where
  wellKept := wellKept_start partitioner
  allStored := Participants.ParticpantsAgg.allStored_start partitioner
  held := { accepted := fun id t h => (by cases h), reserved := fun id t h => (by cases h) }
  pending e h := absurd h List.not_mem_nil
  done h hh := absurd hh List.not_mem_nil
  announced id state := Nat.zero_le _
  reserves id := Nat.le_refl 0
  commits id := Nat.le_refl 0

theorem receive (h : Orderly s) (input : Input) :
    Orderly { s with pending := s.pending ++ [{ msg := input.message, echo := false }] } where
  wellKept := h.wellKept
  allStored := h.allStored
  held := h.held
  pending e he := by
    rcases List.mem_append.mp he with he | he
    · exact h.pending e he
    · obtain rfl := List.mem_singleton.mp he
      cases input <;> trivial
  done := h.done
  announced id state := by
    rw [Exchange.fresh_receive, if_neg (by cases input <;> exact Bool.false_ne_true)]
    exact h.announced id state
  reserves id := by
    rw [Exchange.fresh_receive, if_neg (by cases input <;> exact Bool.false_ne_true)]
    exact h.reserves id
  commits id := by
    rw [Exchange.fresh_receive, if_neg (by cases input <;> exact Bool.false_ne_true)]
    exact h.commits id

/-- A message in the consumer's hands, whether it was pending or is seen again. -/
theorem handle (h : Orderly s) {rest : List Envelope} (hrest : ∀ e ∈ rest, e ∈ s.pending)
    {e : Envelope} (he : Grounded (Accepted s.stores) (· ∈ reserved s.done) e.msg)
    (hfresh : ∀ p, (Exchange.handle B C { s with pending := rest } e).fresh p =
      s.fresh p + if e.echo then 0 else (react B C Faults.none s.stores e.msg).2.countP p) :
    Orderly (Exchange.handle B C { s with pending := rest } e) := by
  have hAcc : ∀ terms, Accepted s.stores terms →
      Accepted (react B C Faults.none s.stores e.msg).1 terms := fun _ ha => ha.react h.wellKept
  have hRes : ∀ terms, terms ∈ reserved s.done →
      terms ∈ reserved (Exchange.handle B C { s with pending := rest } e).done := by
    intro terms ht
    rw [Exchange.handle, reserved_concat]
    exact List.mem_append_left _ ht
  obtain ⟨hheld, hgrounded⟩ := react_grounded hAcc hRes (oneTerms_accepted _) h.wellKept h.held he
    (fun terms hm => accepted_of_published h.wellKept hm) (fun terms root root' hmsg hmoves => by
      have hmoved := (moved_entry (C := C) h.wellKept h.allStored).mpr
        ⟨_, hmsg, Participants.ParticpantsAgg.admits_iff.mpr ⟨root, root', hmoves⟩⟩
      refine List.mem_filterMap.mpr ⟨_, List.mem_append_right _ List.mem_cons_self, ?_⟩
      exact Handled.reserve_of_moved hmoved hmsg)
  -- a fresh command comes from a fresh event, and is one more for one more handled
  have hcommands : ∀ p q : DomainMessage → Bool, s.fresh p ≤ s.handledFresh q →
      (react B C Faults.none s.stores e.msg).2.countP p ≤ (if q e.msg then 1 else 0) →
      (Exchange.handle B C { s with pending := rest } e).fresh p ≤
        (Exchange.handle B C { s with pending := rest } e).handledFresh q := by
    intro p q hle hcount
    rw [hfresh, Exchange.handledFresh_handle]
    refine Nat.add_le_add hle ?_
    cases e.echo with
    | true => exact Nat.zero_le _
    | false => exact hcount
  exact
    { wellKept := h.wellKept.react B C Faults.none e.msg
      allStored := by
        change AllStored (react B C Faults.none s.stores e.msg).1.participants
        cases e.msg with
        | participantCmd cmd => exact h.allStored.process h.wellKept.participants B cmd
        | _ =>
          rw [react_participants fun _ hm => by cases hm]
          exact h.allStored
      held := hheld
      pending := fun e' he' => by
        rcases List.mem_append.mp he' with he' | he'
        · exact (h.pending e' (hrest e' he')).mono hAcc hRes
        · obtain ⟨m, hm, rfl⟩ := List.mem_map.mp he'
          exact hgrounded m hm
      done := fun h' hh' => by
        rcases List.mem_append.mp hh' with hh' | hh'
        · exact (h.done h' hh').mono hAcc hRes
        · obtain rfl := List.mem_singleton.mp hh'
          exact he.mono hAcc hRes
      announced := fun id state => by
        rw [hfresh]
        refine le_trans (Nat.add_le_add (h.announced id state) ?_)
          (react_announcements h.wellKept id state).ge
        split
        · exact Nat.zero_le _
        · exact Nat.le_refl _
      reserves := fun id => hcommands _ _ (h.reserves id) (countP_reserveFor_le id)
      commits := fun id => hcommands _ _ (h.commits id) (countP_commitFor_le id) }

theorem step (h : Orderly s) (B : BigNumber) (C : Crypto) (d : Delivery) :
    Orderly (Exchange.step B C s d) := by
  have htook := Exchange.took B C s d
  generalize Exchange.step B C s d = s' at htook ⊢
  cases htook with
  | receive input hd => exact h.receive input
  | handle e rest htaken hrest hknown hfresh =>
    refine h.handle hrest ?_ hfresh
    rcases hknown with he | ⟨-, -, -, done, hdone, hmsg⟩
    · exact h.pending e he
    · rw [← hmsg]
      exact h.done done hdone
  | idle htaken => exact h

/-- Every run is orderly, redeliveries included. -/
theorem run (B : BigNumber) (C : Crypto) (partitioner : String → Nat) (deliveries : List Delivery) :
    Orderly (Exchange.run B C partitioner deliveries) :=
  Machine.run_always (fun _ d h => h.step B C d) (start partitioner) deliveries

/-- No reserve is handled twice, echoes apart. -/
theorem reserve_once (h : Orderly s) (id : String) : s.handledFresh (reserveFor id) ≤ 1 :=
  calc s.handledFresh (reserveFor id)
    _ ≤ s.fresh (reserveFor id) := s.handledFresh_le_fresh _
    _ ≤ s.handledFresh (announces id .receivedPrepare) := h.reserves id
    _ ≤ s.fresh (announces id .receivedPrepare) := s.handledFresh_le_fresh _
    _ ≤ (s.stores.passedBy id).count .receivedPrepare := h.announced id _
    _ ≤ 1 := passed_count_le_one _ _

/-- No commit is handled twice, echoes apart. -/
theorem commit_once (h : Orderly s) (id : String) : s.handledFresh (commitFor id) ≤ 1 :=
  calc s.handledFresh (commitFor id)
    _ ≤ s.fresh (commitFor id) := s.handledFresh_le_fresh _
    _ ≤ s.handledFresh (announces id .receivedFulfil) := h.commits id
    _ ≤ s.fresh (announces id .receivedFulfil) := s.handledFresh_le_fresh _
    _ ≤ (s.stores.passedBy id).count .receivedFulfil := h.announced id _
    _ ≤ 1 := passed_count_le_one _ _

end Orderly

end Switch
end PocArchitecture
