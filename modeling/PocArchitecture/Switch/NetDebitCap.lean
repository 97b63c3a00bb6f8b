/-
The net debit cap in the composed system.

Every message ever published stays deliverable, at any time and any number of times, and
every call may fail.  A commit checks nothing about its amount; it is harmless because
the amount it carries is the one a reserve has passed with.  `Sound` ties the messages
in flight, the duplicate set, the stored transfers and the participants together.
-/
import PocArchitecture.Participants.Limits
import PocArchitecture.Switch.Custody

namespace PocArchitecture
namespace Switch

open PublicMessages Infrastructure
open Domain.BaseEventSourcingAggregate (lookup lookup_of_view)
open Participants (ParticipantState BigNumber redisParticipantStateRepo)
open Participants.ParticpantsAgg (Capped WithinLimits applyStateEvent)
open Transfers (Crypto redisTransferStateRepo)

/-- The stores, and every message published so far. -/
structure Network where
  stores : Stores
  net : List DomainMessage

inductive Action where
  | receive (input : Input)
  | deliver (msg : DomainMessage) (f : Faults)
  deriving DecidableEq

namespace Network

def start (partitioner : String → Nat) : Network := { stores := Stores.start partitioner, net := [] }

/-- A delivery leaves the message where it was. -/
def step (B : BigNumber) (C : Crypto) (s : Network) : Action → Network
  | .receive input => { s with net := s.net ++ [input.message] }
  | .deliver msg f =>
    if msg ∈ s.net then
      let reaction := react B C f s.stores msg
      { stores := reaction.1, net := s.net ++ reaction.2 }
    else s

def run (B : BigNumber) (C : Crypto) (partitioner : String → Nat) (actions : List Action) : Network :=
  Machine.run (step B C) (start partitioner) actions

end Network

/-- These terms were accepted and announced. -/
def Announced (net : List DomainMessage) (terms : TransferTerms) : Prop :=
  .transferEvt (.transferPrepareAcceptedEvt terms) ∈ net

theorem Announced.append {net : List DomainMessage} {terms : TransferTerms}
    (h : Announced net terms) (more : List DomainMessage) : Announced (net ++ more) terms :=
  List.mem_append_left more h

section Publications

variable {B : BigNumber} {C : Crypto} {f : Faults} {stores : Stores} {msg : DomainMessage}

/-- Terms are announced for a prepare whose id was not seen before. -/
theorem react_announced {terms : TransferTerms}
    (h : .transferEvt (.transferPrepareAcceptedEvt terms) ∈ (react B C f stores msg).2) :
    ∃ payload, msg = .transferCmd (.prepareTransferCmd payload) ∧ terms = payload.terms ∧
      payload.transferId ∉ stores.transfers.duplicates ∧
      (react B C f stores msg).1.transfers.duplicates =
        insert payload.transferId stores.transfers.duplicates := by
  cases publishes_of_mem h with
  | transferEvt cmd evt hevt =>
    rw [react]
    dsimp only
    rw [Transfers.TransfersAgg.processCommand_duplicates Transfers.redis_lawful]
    rw [Transfers.TransfersAgg.processCommand_published Transfers.redis_lawful] at hevt
    have hmem := Transfers.TransfersAgg.Verdict.mem_events_of_mem_published hevt
    rcases Transfers.TransfersAgg.verdict_cases redisTransferStateRepo C f.transfers
      stores.transfers cmd with
      ⟨-, hv⟩ | ⟨payload, rfl, hnew, hv⟩ | ⟨_, m, hv, hm, -⟩ | ⟨s, s', events, hv, -, hadv⟩
    · rw [hv] at hmem
      cases hmem
    · rw [hv] at hmem ⊢
      rcases List.mem_pair.mp hmem with he | he <;> cases he
      exact ⟨payload, rfl, rfl, hnew, rfl⟩
    · rw [hv] at hmem
      obtain rfl := List.mem_singleton.mp hmem
      cases hm
    · rw [hv] at hmem
      cases hadv with
      | reserve payload hstate => rcases List.mem_pair.mp hmem with he | he <;> cases he
      | fulfil payload hstate hfulfils => rcases List.mem_pair.mp hmem with he | he <;> cases he
      | commit payload hstate => rcases List.mem_pair.mp hmem with he | he <;> cases he

/-- The duplicate set never forgets. -/
theorem react_duplicates :
    stores.transfers.duplicates ⊆ (react B C f stores msg).1.transfers.duplicates := by
  cases msg with
  | transferCmd cmd =>
    rw [react]
    dsimp only
    rw [Transfers.TransfersAgg.processCommand_duplicates Transfers.redis_lawful]
    exact Transfers.TransfersAgg.subset_duplicates _ _
  | _ => rw [react_transfers fun _ he => by cases he]

end Publications

/-! ## The invariant -/

/-- `created` are the participants that come in from the outside. -/
structure Sound (B : BigNumber) (created : ParticipantState → Prop) (s : Network) : Prop where
  wellKept : WellKept s.stores
  seen : ∀ terms, Announced s.net terms → terms.transferId ∈ s.stores.transfers.duplicates
  one : OneTerms (Announced s.net)
  grounded : ∀ m ∈ s.net, Grounded (Announced s.net) (fun terms => B.Positive terms.amount) m
  held : Held (Announced s.net) (fun terms => B.Positive terms.amount) s.stores.transfers
  creations : ∀ p, .participantCmd (.createParticipantCmd p) ∈ s.net → created p
  limits : WithinLimits redisParticipantStateRepo B created s.stores.participants

section Invariant

variable {B : BigNumber} {C : Crypto} {created : ParticipantState → Prop} {s : Network}

theorem sound_start (partitioner : String → Nat) : Sound B created (Network.start partitioner) where
  wellKept := wellKept_start partitioner
  seen terms h := absurd h List.not_mem_nil
  one a b h := absurd h List.not_mem_nil
  grounded m h := absurd h List.not_mem_nil
  held := { accepted := fun id s h => (by cases h), reserved := fun id s h => (by cases h) }
  creations p h := absurd h List.not_mem_nil
  limits := { capped := fun id s h => (by cases h), origin := fun id s h => (by cases h) }

theorem Sound.receive (h : Sound B created s) {input : Input}
    (hinput : ∀ p, input = .createParticipant p → created p) :
    Sound B created { s with net := s.net ++ [input.message] } := by
  have hsame : ∀ terms, Announced (s.net ++ [input.message]) terms → Announced s.net terms := by
    intro terms ht
    rcases List.mem_append.mp ht with ht | ht
    · exact ht
    · cases input <;> cases List.mem_singleton.mp ht
  have hgrow : ∀ terms, Announced s.net terms → Announced (s.net ++ [input.message]) terms :=
    fun terms ht => ht.append _
  exact
    { wellKept := h.wellKept
      seen := fun terms ht => h.seen terms (hsame terms ht)
      one := fun a b ha hb => h.one a b (hsame a ha) (hsame b hb)
      grounded := fun m hm => by
        rcases List.mem_append.mp hm with hm | hm
        · exact (h.grounded m hm).mono hgrow fun _ hp => hp
        · obtain rfl := List.mem_singleton.mp hm
          cases input <;> trivial
      held := h.held.mono hgrow fun _ hp => hp
      creations := fun p hp => by
        rcases List.mem_append.mp hp with hp | hp
        · exact h.creations p hp
        · cases input with
          | createParticipant p' =>
            cases List.mem_singleton.mp hp
            exact hinput _ rfl
          | prepareRequest payload => cases List.mem_singleton.mp hp
          | fulfilRequest payload => cases List.mem_singleton.mp hp
      limits := h.limits }

/-- Two announcements of one id are the same, also across a delivery. -/
theorem Sound.oneTerms_deliver (h : Sound B created s) (msg : DomainMessage) (f : Faults) :
    OneTerms (Announced (s.net ++ (react B C f s.stores msg).2)) := by
  intro a b ha hb hid
  rcases List.mem_append.mp ha with ha | ha <;> rcases List.mem_append.mp hb with hb | hb
  · exact h.one a b ha hb hid
  · obtain ⟨payload, -, rfl, hnew, -⟩ := react_announced hb
    have hseen := h.seen a ha
    rw [hid] at hseen
    exact absurd hseen hnew
  · obtain ⟨payload, -, rfl, hnew, -⟩ := react_announced ha
    have hseen := h.seen b hb
    rw [← hid] at hseen
    exact absurd hseen hnew
  · obtain ⟨payload, hmsg, rfl, -, -⟩ := react_announced ha
    obtain ⟨payload', hmsg', rfl, -, -⟩ := react_announced hb
    rw [hmsg] at hmsg'
    cases hmsg'
    rfl

theorem Sound.deliver (h : Sound B created s) (hcreated : ∀ p, created p → Capped B p)
    {msg : DomainMessage} (hmsg : msg ∈ s.net) (f : Faults) :
    Sound B created { stores := (react B C f s.stores msg).1,
                      net := s.net ++ (react B C f s.stores msg).2 } := by
  have hgrow : ∀ terms, Announced s.net terms →
      Announced (s.net ++ (react B C f s.stores msg).2) terms := fun terms ht => ht.append _
  obtain ⟨hheld, hgrounded⟩ := react_grounded hgrow (fun _ hp => hp) h.one h.wellKept h.held (h.grounded msg hmsg)
    (fun terms ht => List.mem_append_right _ ht)
    (fun terms root root' _ hmoves => h.limits.positive hmoves)
  exact
    { wellKept := h.wellKept.react B C f msg
      seen := fun terms ht => by
        rcases List.mem_append.mp ht with ht | ht
        · exact react_duplicates (h.seen terms ht)
        · obtain ⟨payload, -, rfl, -, hdup⟩ := react_announced ht
          change payload.transferId ∈ (react B C f s.stores msg).1.transfers.duplicates
          rw [hdup]
          exact Finset.mem_insert_self _ _
      one := h.oneTerms_deliver msg f
      grounded := fun m hm => by
        rcases List.mem_append.mp hm with hm | hm
        · exact (h.grounded m hm).mono (fun terms ht => ht.append _) fun _ hp => hp
        · exact hgrounded m hm
      held := hheld
      creations := fun p hp => by
        rcases List.mem_append.mp hp with hp | hp
        · exact h.creations p hp
        · exact absurd hp react_creates_nobody
      limits := by
        cases msg with
        | participantCmd cmd =>
          refine h.limits.processCommand Participants.redis_lawful h.wellKept.participants (fun _ hp => hp)
            (fun p hp => ?_) (fun terms ht => ?_) f.participants
          · subst hp
            exact ⟨h.creations p hmsg, hcreated p (h.creations p hmsg)⟩
          · subst ht
            exact h.grounded _ hmsg
        | _ =>
          rw [react_participants fun _ he => by cases he]
          exact h.limits }

end Invariant

/-- Whatever is delivered, in whatever order and however often, and whatever fails: a stored
participant is one of those created but for its positions, and those are finite and
strictly below their caps, if this is so at creation. -/
theorem net_debit_cap (B : BigNumber) (C : Crypto) (partitioner : String → Nat)
    (actions : List Action)
    (hcreated : ∀ p, .receive (.createParticipant p) ∈ actions → Capped B p)
    (id : String) {s : ParticipantState}
    (hs : redisParticipantStateRepo.view
      (Network.run B C partitioner actions).stores.participants.repo id = some s) :
    Capped B s ∧
      ∃ p, .receive (.createParticipant p) ∈ actions ∧ s.blank = p.blank := by
  have hsound : Sound B (fun p => .receive (.createParticipant p) ∈ actions)
      (Network.run B C partitioner actions) := by
    refine Machine.run_invariant (P := fun _ a => a ∈ actions) (fun s a hinv ha => ?_)
      (sound_start partitioner) (Machine.along_of_forall (fun _ _ ha => ha) _ fun _ ha => ha)
    cases a with
    | receive input => exact hinv.receive fun p hp => hp ▸ ha
    | deliver msg f =>
      rw [Network.step]
      split
      · exact hinv.deliver hcreated ‹_› f
      · exact hinv
  exact ⟨hsound.limits.capped id s (lookup_of_view hs), hsound.limits.origin id s (lookup_of_view hs)⟩

/-- Two participants, and the sample transfer up to its reservation, which is delivered twice. -/
def sampleActions : List Action :=
  [.receive (.createParticipant (Participants.ParticpantsAgg.sampleParticipant "blue")),
    .receive (.createParticipant (Participants.ParticpantsAgg.sampleParticipant "green")),
    .receive (.prepareRequest Transfers.TransfersAgg.samplePrepare)] ++
  ([.participantCmd (.createParticipantCmd (Participants.ParticpantsAgg.sampleParticipant "blue")),
    .participantCmd (.createParticipantCmd (Participants.ParticpantsAgg.sampleParticipant "green")),
    .transferPrepareRequestedEvt Transfers.TransfersAgg.samplePrepare,
    .transferCmd (.prepareTransferCmd Transfers.TransfersAgg.samplePrepare),
    .transferEvt (.transferPrepareAcceptedEvt Transfers.TransfersAgg.samplePrepare.terms),
    .participantCmd (.reservePayerFundsCmd Transfers.TransfersAgg.samplePrepare.terms),
    .participantCmd (.reservePayerFundsCmd Transfers.TransfersAgg.samplePrepare.terms)].map
      fun msg => .deliver msg Faults.none)

theorem sampleParticipant_capped (id : String) :
    Capped Participants.wholeNumbers (Participants.ParticpantsAgg.sampleParticipant id) := by
  intro currency account hacc
  have hmem := List.mem_of_find?_eq_some hacc
  obtain rfl := List.mem_singleton.mp hmem
  exact ⟨_, rfl, ⟨0, rfl⟩, by decide +kernel⟩

theorem net_debit_cap_sample :
    Capped Participants.wholeNumbers
        ((Participants.ParticpantsAgg.sampleParticipant "blue").setPosition "USD" "20") ∧
      ∃ p, .receive (.createParticipant p) ∈ sampleActions ∧
        ((Participants.ParticpantsAgg.sampleParticipant "blue").setPosition "USD" "20").blank =
          p.blank :=
  net_debit_cap Participants.wholeNumbers Transfers.TransfersAgg.sampleCrypto (fun _ => 0)
    sampleActions
    (fun p hp => by
      simp only [sampleActions, List.mem_append, List.mem_cons, List.map_cons, List.map_nil,
        Action.receive.injEq, Input.createParticipant.injEq, reduceCtorEq, or_false,
        List.not_mem_nil] at hp
      rcases hp with rfl | rfl <;> exact sampleParticipant_capped _)
    "blue" (by decide +kernel)

end Switch
end PocArchitecture
