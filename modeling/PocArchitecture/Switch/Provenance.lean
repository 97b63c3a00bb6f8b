/-
Where the data of a message comes from.

Whatever fails, and however often and in whatever order the messages are delivered: the
terms, the condition and the raw request that travel with a transfer are those of one
request to prepare it, the raw fulfilment is that of a request whose fulfilment meets the
condition, and the endpoints are those the two parties were created with.  `Traced` says so
of a message, `Sourced` of a stored transfer.
-/
import PocArchitecture.Switch.NetDebitCap

namespace PocArchitecture
namespace Switch

open PublicMessages Infrastructure
open Domain.BaseEventSourcingAggregate (lookup lookup_of_view)
open Participants (ParticipantState BigNumber redisParticipantStateRepo)
open Participants.ParticpantsAgg (applyStateEvent)
open Transfers (Crypto TransferState redisTransferStateRepo)
open Transfers.TransfersAgg (Advances Verdict prepareTransferData finalView_some
  processCommand_published processCommand_view_ne processCommand_view_self verdict_cases)

/-- A participant was created with this id and these endpoints. -/
def Registered (net : List DomainMessage) (id : String) (endpoints : List ParticipantEndpoint) :
    Prop :=
  ∃ p, .participantCmd (.createParticipantCmd p) ∈ net ∧ p.id = id ∧ p.endpoints = endpoints

/-- The endpoints of the two parties to the accepted terms that go by this id. -/
def Routed (net : List DomainMessage) (transferId : String)
    (payerEndPoints payeeEndPoints : List ParticipantEndpoint) : Prop :=
  ∃ terms, Announced net terms ∧ terms.transferId = transferId ∧
    Registered net terms.payerId payerEndPoints ∧ Registered net terms.payeeId payeeEndPoints

/-- The fulfilment of a transfer was requested, and it meets the condition. -/
def FulfilRequested (C : Crypto) (net : List DomainMessage) (s : TransferState) : Prop :=
  ∃ payload, .transferFulfilRequestedEvt payload ∈ net ∧ payload.transferId = s.id ∧
    TransferState.Fulfils C s.condition payload.fulfilment ∧
    s.fulfil = some (.copy payload.fulfil)

structure Sourced (C : Crypto) (net : List DomainMessage) (s : TransferState) : Prop where
  announced : Announced net s.terms
  requested : ∃ payload, .transferPrepareRequestedEvt payload ∈ net ∧
    s.prepareData = prepareTransferData payload
  fulfilled : s.transferInternalState = .receivedFulfil ∨ s.transferInternalState = .committed →
    FulfilRequested C net s

def Traced (C : Crypto) (net : List DomainMessage) : DomainMessage → Prop
  | .transferCmd (.prepareTransferCmd payload) => .transferPrepareRequestedEvt payload ∈ net
  | .transferCmd (.fulfilTransferCmd payload) => .transferFulfilRequestedEvt payload ∈ net
  | .transferCmd (.ackPayerFundsReservedCmd payload)
  | .transferCmd (.ackPayeeFundsCommittedCmd payload) =>
    Routed net payload.transferId payload.payerEndPoints payload.payeeEndPoints
  | .participantEvt (.payerFundsReservedEvt payload) =>
    Routed net payload.transferId payload.payerEndPoints payload.payeeEndPoints
  | .participantEvt (.payeeFundsCommittedEvt payload) =>
    Routed net payload.transferId payload.payerEndPoints payload.payeeEndPoints
  | .participantCmd (.reservePayerFundsCmd terms) | .participantCmd (.commitPayeeFundsCmd terms)
  | .transferEvt (.transferFulfilAcceptedEvt terms) => Announced net terms
  | .transferEvt (.transferPreparedEvt payload) =>
    ∃ s, Sourced C net s ∧ payload.terms = s.terms ∧ payload.prepare = s.prepare ∧
      Routed net s.id payload.payerEndPoints payload.payeeEndPoints
  | .transferEvt (.transferFulfilledEvt payload) =>
    ∃ s, Sourced C net s ∧ FulfilRequested C net s ∧ payload.terms = s.terms ∧
      payload.fulfil = s.fulfil ∧ Routed net s.id payload.payerEndPoints payload.payeeEndPoints
  | _ => True

section Growth

variable {C : Crypto} {net : List DomainMessage}

theorem Registered.append {id : String} {endpoints : List ParticipantEndpoint}
    (h : Registered net id endpoints) (more : List DomainMessage) :
    Registered (net ++ more) id endpoints := by
  obtain ⟨p, hp, hid, hendpoints⟩ := h
  exact ⟨p, List.mem_append_left more hp, hid, hendpoints⟩

theorem Routed.append {transferId : String}
    {payerEndPoints payeeEndPoints : List ParticipantEndpoint}
    (h : Routed net transferId payerEndPoints payeeEndPoints) (more : List DomainMessage) :
    Routed (net ++ more) transferId payerEndPoints payeeEndPoints := by
  obtain ⟨terms, hannounced, hid, hpayer, hpayee⟩ := h
  exact ⟨terms, hannounced.append more, hid, hpayer.append more, hpayee.append more⟩

theorem FulfilRequested.append {s : TransferState} (h : FulfilRequested C net s)
    (more : List DomainMessage) : FulfilRequested C (net ++ more) s := by
  obtain ⟨payload, hmem, hrest⟩ := h
  exact ⟨payload, List.mem_append_left more hmem, hrest⟩

theorem Sourced.append {s : TransferState} (h : Sourced C net s) (more : List DomainMessage) :
    Sourced C (net ++ more) s where
  announced := h.announced.append more
  requested := by
    obtain ⟨payload, hmem, hdata⟩ := h.requested
    exact ⟨payload, List.mem_append_left more hmem, hdata⟩
  fulfilled hstate := (h.fulfilled hstate).append more

theorem Traced.append {m : DomainMessage} (h : Traced C net m) (more : List DomainMessage) :
    Traced C (net ++ more) m := by
  cases m with
  | transferPrepareRequestedEvt payload => trivial
  | transferFulfilRequestedEvt payload => trivial
  | transferCmd cmd =>
    cases cmd with
    | prepareTransferCmd payload => exact List.mem_append_left more h
    | fulfilTransferCmd payload => exact List.mem_append_left more h
    | ackPayerFundsReservedCmd payload => exact Routed.append h more
    | ackPayeeFundsCommittedCmd payload => exact Routed.append h more
  | transferEvt evt =>
    cases evt with
    | transferFulfilAcceptedEvt terms => exact Announced.append h more
    | transferPreparedEvt payload =>
      obtain ⟨s, hs, hterms, hprepare, hrouted⟩ := h
      exact ⟨s, hs.append more, hterms, hprepare, hrouted.append more⟩
    | transferFulfilledEvt payload =>
      obtain ⟨s, hs, hfulfil, hterms, hraw, hrouted⟩ := h
      exact ⟨s, hs.append more, hfulfil.append more, hterms, hraw, hrouted.append more⟩
    | _ => trivial
  | participantCmd cmd =>
    cases cmd with
    | reservePayerFundsCmd terms => exact Announced.append h more
    | commitPayeeFundsCmd terms => exact Announced.append h more
    | _ => trivial
  | participantEvt evt =>
    cases evt with
    | payerFundsReservedEvt payload => exact Routed.append h more
    | payeeFundsCommittedEvt payload => exact Routed.append h more
    | _ => trivial

end Growth

/-! ## What is published -/

section Publications

variable {B : BigNumber} {C : Crypto} {net : List DomainMessage}

/-- Whatever is stored after a command was stored before it, or is what the command accepted
and published. -/
theorem stored_after {w : Transfers.World}
    (hw : Transfers.TransfersAgg.WellKept redisTransferStateRepo w) {f : Transfers.Faults}
    {cmd : Transfers.Command} {id : String} {s : TransferState}
    (h : redisTransferStateRepo.view
      (Transfers.TransfersAgg.processCommand redisTransferStateRepo C f w cmd).repo.repo id =
        some s) :
    redisTransferStateRepo.view w.repo id = some s ∨
      ((Transfers.TransfersAgg.verdict redisTransferStateRepo C f w cmd).accepted = some s ∧
        f.publish₁.isOk = true) := by
  by_cases hid : id = cmd.transferId
  · subst hid
    rw [processCommand_view_self Transfers.redis_lawful (hw.keyed cmd)] at h
    rcases finalView_some h with hb | ⟨ha, halias | hok⟩ | ⟨_, -, halias⟩
    · exact Or.inl hb
    · cases halias
    · exact Or.inr ⟨ha, hok⟩
    · cases halias
  · rw [processCommand_view_ne Transfers.redis_lawful (hw.keyed cmd) hid] at h
    exact Or.inl h

/-- A step keeps a transfer sourced, and what it announces is traced. -/
theorem advance_traced {s s' : TransferState} {cmd : Transfers.Command}
    {events : List Transfers.Message} (hs : Sourced C net s) (hid : s.id = cmd.transferId)
    (hcmd : Traced C net (.transferCmd cmd)) (hadv : Advances C s cmd s' events) :
    Sourced C net s' ∧ ∀ m ∈ events, Traced C net (.transferEvt m) := by
  have hrequested := hs.requested
  rw [← hadv.prepareData_eq] at hrequested
  have hannounced := hs.announced
  rw [← TransferState.terms_eq_of_prepareData hadv.prepareData_eq] at hannounced
  cases hadv with
  | reserve payload hstate =>
    refine ⟨⟨hannounced, hrequested, fun h => by rcases h with h | h <;> cases h⟩, fun m hm => ?_⟩
    rcases List.mem_pair.mp hm with rfl | rfl
    · refine ⟨s, hs, rfl, rfl, ?_⟩
      rw [hid]
      exact hcmd
    · trivial
  | fulfil payload hstate hfulfils =>
    refine ⟨⟨hannounced, hrequested, fun _ => ⟨payload, hcmd, hid.symm, hfulfils, rfl⟩⟩,
      fun m hm => ?_⟩
    rcases List.mem_pair.mp hm with rfl | rfl
    · exact hs.announced
    · trivial
  | commit payload hstate =>
    have hfulfil := hs.fulfilled (Or.inl hstate)
    refine ⟨⟨hannounced, hrequested, fun _ => hfulfil⟩, fun m hm => ?_⟩
    rcases List.mem_pair.mp hm with rfl | rfl
    · refine ⟨s, hs, hfulfil, rfl, rfl, ?_⟩
      rw [hid]
      exact hcmd
    · trivial

/-- An event without a milestone carries nothing on. -/
theorem traced_of_silent {evt : Transfers.Message} (h : evt.milestone = none) :
    Traced C net (.transferEvt evt) := by
  cases evt with
  | transferPreparedEvt payload => cases h
  | transferFulfilAcceptedEvt terms => cases h
  | transferFulfilledEvt payload => cases h
  | _ => trivial

/-- A transfer command: stored transfers stay sourced, and its events are traced. -/
theorem processCommand_traced {w : Transfers.World}
    (hw : Transfers.TransfersAgg.WellKept redisTransferStateRepo w)
    (hstored : ∀ id s, redisTransferStateRepo.view w.repo id = some s → Sourced C net s)
    {cmd : Transfers.Command} (hcmd : Traced C net (.transferCmd cmd)) (f : Transfers.Faults) :
    (∀ id s, redisTransferStateRepo.view (Transfers.TransfersAgg.processCommand
        redisTransferStateRepo C f w cmd).repo.repo id = some s →
      Sourced C (net ++ (Transfers.TransfersAgg.processCommand redisTransferStateRepo C f w
        cmd).published.map .transferEvt) s) ∧
      ∀ m ∈ (Transfers.TransfersAgg.processCommand redisTransferStateRepo C f w cmd).published,
        Traced C net (.transferEvt m) := by
  have hcases := verdict_cases redisTransferStateRepo C f w cmd
  rw [processCommand_published Transfers.redis_lawful]
  constructor
  · intro id s hs
    rcases stored_after hw hs with hbefore | ⟨haccepted, hok⟩
    · exact (hstored id s hbefore).append _
    · rcases hcases with ⟨-, hv⟩ | ⟨payload, rfl, -, hv⟩ | ⟨_, m, hv, -, -⟩ |
        ⟨root, root', events, hv, hroot, hadv⟩
      · rw [hv] at haccepted
        cases haccepted
      · rw [hv] at haccepted ⊢
        obtain rfl := Option.some.inj haccepted
        refine ⟨?_, ⟨payload, List.mem_append_left _ hcmd, rfl⟩, fun h => by
          rcases h with h | h <;> cases h⟩
        refine List.mem_append_right _ (List.mem_map_of_mem ?_)
        rw [Verdict.published, if_pos hok]
        exact List.mem_cons_self
      · rw [hv] at haccepted
        cases haccepted
      · rw [hv] at haccepted
        obtain rfl := Option.some.inj haccepted
        exact (advance_traced (hstored _ root hroot) (hw.keyed cmd root hroot) hcmd hadv).1.append _
  · intro m hm
    have hmem := Verdict.mem_events_of_mem_published hm
    rcases hcases with ⟨-, hv⟩ | ⟨payload, rfl, -, hv⟩ | ⟨_, m', hv, hm', -⟩ |
      ⟨root, root', events, hv, hroot, hadv⟩
    · rw [hv] at hmem
      cases hmem
    · rw [hv] at hmem
      rcases List.mem_pair.mp hmem with rfl | rfl <;> trivial
    · rw [hv] at hmem
      obtain rfl := List.mem_singleton.mp hmem
      exact traced_of_silent hm'
    · rw [hv] at hmem
      exact (advance_traced (hstored _ root hroot) (hw.keyed cmd root hroot) hcmd hadv).2 m hmem

/-- Every participant a load finds is one of those created, but for the positions. -/
def Origin (net : List DomainMessage) (w : Participants.World) : Prop :=
  ∀ id p, lookup redisParticipantStateRepo applyStateEvent w id = .found p →
    ∃ created, .participantCmd (.createParticipantCmd created) ∈ net ∧ p.blank = created.blank

theorem registered_of_lookup {w : Participants.World}
    (hw : Participants.ParticpantsAgg.WellKept redisParticipantStateRepo w) (h : Origin net w)
    {id : String} {p : ParticipantState}
    (hp : lookup redisParticipantStateRepo applyStateEvent w id = .found p) :
    Registered net id p.endpoints := by
  obtain ⟨created, hmem, hblank⟩ := h id p hp
  have hid : p.id = created.id := by
    change p.blank.id = created.blank.id
    rw [hblank]
  have hendpoints : p.endpoints = created.endpoints := by
    change p.blank.endpoints = created.blank.endpoints
    rw [hblank]
  exact ⟨created, hmem, by rw [← hid, hw.lookup_id hp], hendpoints.symm⟩

theorem processCommand_origin {w : Participants.World}
    (hw : Participants.ParticpantsAgg.WellKept redisParticipantStateRepo w) (h : Origin net w)
    {cmd : Participants.Command} (hcmd : .participantCmd cmd ∈ net) (f : Participants.Faults) :
    Origin net (Participants.ParticpantsAgg.processCommand redisParticipantStateRepo B f w
      cmd).repo := by
  intro id p hp
  rcases Participants.ParticpantsAgg.lookup_after Participants.redis_lawful hw hp with
    hbefore | rfl | ⟨root, root', hroot, hmoves, hsame⟩
  · exact h id p hbefore
  · exact ⟨p, hcmd, rfl⟩
  · obtain ⟨created, hmem, hblank⟩ := h id root hroot
    exact ⟨created, hmem, by rw [hsame.blank, hmoves.blank_eq, hblank]⟩

/-- A participant command for announced terms publishes the endpoints of the two parties. -/
theorem participantEvt_traced {w : Participants.World}
    (hw : Participants.ParticpantsAgg.WellKept redisParticipantStateRepo w) (h : Origin net w)
    {cmd : Participants.Command} (hcmd : Traced C net (.participantCmd cmd))
    {f : Participants.Faults} {evt : Participants.Message}
    (hevt : evt ∈ (Participants.ParticpantsAgg.processCommand redisParticipantStateRepo B f w
      cmd).published) : Traced C net (.participantEvt evt) := by
  rw [Participants.ParticpantsAgg.processCommand_published Participants.redis_lawful
    (hw.keyed cmd)] at hevt
  have hmem := Participants.ParticpantsAgg.mem_published hevt
  have hregistered : ∀ {id : String} {p : ParticipantState},
      redisParticipantStateRepo.view w.repo id = some p → Registered net id p.endpoints :=
    fun hp => registered_of_lookup hw h (lookup_of_view hp)
  cases hv : Participants.ParticpantsAgg.verdict redisParticipantStateRepo B w cmd with
  | reject =>
    rw [hv] at hmem
    cases hmem
  | refuse root events =>
    obtain ⟨m, rfl, hm⟩ := Participants.ParticpantsAgg.verdict_refuse hv
    rw [hv] at hmem
    obtain rfl := List.mem_singleton.mp hmem
    cases evt with
    | payerFundsReservedEvt payload => cases hm
    | payeeFundsCommittedEvt payload => cases hm
    | _ => trivial
  | create participant =>
    rw [hv] at hmem
    rcases List.mem_pair.mp hmem with rfl | rfl <;> trivial
  | snapshot root =>
    rw [hv] at hmem
    obtain rfl := List.mem_singleton.mp hmem
    trivial
  | move root root' events stateEvent =>
    rw [hv] at hmem
    cases cmd with
    | createParticipantCmd participant =>
      exact (Participants.ParticpantsAgg.verdict_move hv).1.elim
    | snapshotParticipantStateCmd participantId =>
      exact (Participants.ParticpantsAgg.verdict_move hv).1.elim
    | reservePayerFundsCmd terms =>
      rw [Participants.ParticpantsAgg.verdict] at hv
      split at hv
      · cases hv
      · cases hv
      · rename_i payer hroot
        obtain ⟨rfl, hd⟩ := Participants.ParticpantsAgg.Decision.verdict_move hv
        have hto := Participants.ParticpantsAgg.decideReserve_movesTo hd
        obtain ⟨payee, _, hpayee, -, -, -, rfl, rfl⟩ :=
          Participants.ParticpantsAgg.decideReserve_accept hd
        rcases List.mem_pair.mp hmem with rfl | rfl
        · refine ⟨terms, hcmd, rfl, ?_, hregistered hpayee⟩
          rw [hto.endpoints_eq]
          exact registered_of_lookup hw h hroot
        · trivial
    | commitPayeeFundsCmd terms =>
      rw [Participants.ParticpantsAgg.verdict] at hv
      split at hv
      · cases hv
      · cases hv
      · rename_i payee hroot
        split at hv
        · obtain ⟨rfl, hd⟩ := Participants.ParticpantsAgg.Decision.verdict_move hv
          have hto := Participants.ParticpantsAgg.decideCommit_movesTo hd
          obtain ⟨payer, _, hpayer, -, -, -, rfl, rfl⟩ :=
            Participants.ParticpantsAgg.decideCommit_accept hd
          rcases List.mem_pair.mp hmem with rfl | rfl
          · refine ⟨terms, hcmd, rfl, hregistered hpayer, ?_⟩
            rw [hto.endpoints_eq]
            exact registered_of_lookup hw h hroot
          · trivial
        · cases hv

end Publications

/-! ## The invariant -/

structure Traceable (C : Crypto) (s : Network) : Prop where
  wellKept : WellKept s.stores
  seen : ∀ terms, Announced s.net terms → terms.transferId ∈ s.stores.transfers.duplicates
  one : OneTerms (Announced s.net)
  traced : ∀ m ∈ s.net, Traced C s.net m
  stored : ∀ id t, redisTransferStateRepo.view s.stores.transfers.repo id = some t →
    Sourced C s.net t
  origin : Origin s.net s.stores.participants

namespace Traceable

variable {B : BigNumber} {C : Crypto} {s : Network}

theorem start (C : Crypto) (partitioner : String → Nat) :
    Traceable C (Network.start partitioner) where
  wellKept := wellKept_start partitioner
  seen terms h := absurd h List.not_mem_nil
  one a b h := absurd h List.not_mem_nil
  traced m h := absurd h List.not_mem_nil
  stored id t h := by cases h
  origin id p h := by cases h

theorem receive (h : Traceable C s) (input : Input) :
    Traceable C { s with net := s.net ++ [input.message] } := by
  have hsame : ∀ terms, Announced (s.net ++ [input.message]) terms → Announced s.net terms := by
    intro terms ht
    rcases List.mem_append.mp ht with ht | ht
    · exact ht
    · cases input <;> cases List.mem_singleton.mp ht
  exact
    { wellKept := h.wellKept
      seen := fun terms ht => h.seen terms (hsame terms ht)
      one := fun a b ha hb => h.one a b (hsame a ha) (hsame b hb)
      traced := fun m hm => by
        rcases List.mem_append.mp hm with hm | hm
        · exact (h.traced m hm).append _
        · obtain rfl := List.mem_singleton.mp hm
          cases input <;> trivial
      stored := fun id t ht => (h.stored id t ht).append _
      origin := fun id p hp => by
        obtain ⟨created, hmem, hblank⟩ := h.origin id p hp
        exact ⟨created, List.mem_append_left _ hmem, hblank⟩ }

/-- Two announcements of one id are the same, also across a delivery. -/
theorem oneTerms_deliver (h : Traceable C s) (msg : DomainMessage) (f : Faults) :
    OneTerms (Announced (s.net ++ (react B C f s.stores msg).2)) := by
  intro a b ha hb hid
  rcases List.mem_append.mp ha with ha | ha <;> rcases List.mem_append.mp hb with hb | hb
  · exact h.one a b ha hb hid
  · obtain ⟨payload, -, rfl, hnew, -⟩ := react_announced hb
    have hseen := h.seen a ha
    rw [hid] at hseen
    exact absurd hseen hnew
  · obtain ⟨payload, -, rfl, hnew, -⟩ := react_announced ha
    have hseen := h.seen b hb
    rw [← hid] at hseen
    exact absurd hseen hnew
  · obtain ⟨payload, hmsg, rfl, -, -⟩ := react_announced ha
    obtain ⟨payload', hmsg', rfl, -, -⟩ := react_announced hb
    rw [hmsg] at hmsg'
    cases hmsg'
    rfl

theorem published_traced (h : Traceable C s) {msg : DomainMessage} (hmsg : msg ∈ s.net)
    (f : Faults) {m : DomainMessage} (hm : m ∈ (react B C f s.stores msg).2) :
    Traced C s.net m := by
  cases publishes_of_mem hm with
  | transferEvt cmd evt hevt =>
    exact (processCommand_traced h.wellKept.transfers h.stored (h.traced _ hmsg) _).2 evt hevt
  | participantEvt cmd evt hevt =>
    exact participantEvt_traced h.wellKept.participants h.origin (h.traced _ hmsg) hevt
  | participantCmd evt cmd hcmd =>
    cases evt with
    | transferPrepareAcceptedEvt terms =>
      cases hcmd
      exact hmsg
    | transferFulfilAcceptedEvt terms =>
      have htraced := h.traced _ hmsg
      cases hcmd
      exact htraced
    | _ => cases hcmd
  | transferCmd _ cmd hcmd =>
    have htraced := h.traced _ hmsg
    cases msg with
    | participantEvt evt =>
      cases evt with
      | payerFundsReservedEvt payload =>
        cases hcmd
        exact htraced
      | payeeFundsCommittedEvt payload =>
        cases hcmd
        exact htraced
      | _ => cases hcmd
    | transferPrepareRequestedEvt payload =>
      cases hcmd
      exact hmsg
    | transferFulfilRequestedEvt payload =>
      cases hcmd
      exact hmsg
    | _ => cases hcmd

theorem deliver (h : Traceable C s) {msg : DomainMessage} (hmsg : msg ∈ s.net) (B : BigNumber)
    (f : Faults) :
    Traceable C { stores := (react B C f s.stores msg).1
                  net := s.net ++ (react B C f s.stores msg).2 } where
  wellKept := h.wellKept.react B C f msg
  seen terms ht := by
    rcases List.mem_append.mp ht with ht | ht
    · exact react_duplicates (h.seen terms ht)
    · obtain ⟨payload, -, rfl, -, hdup⟩ := react_announced ht
      change payload.transferId ∈ (react B C f s.stores msg).1.transfers.duplicates
      rw [hdup]
      exact Finset.mem_insert_self _ _
  one := h.oneTerms_deliver msg f
  traced m hm := by
    rcases List.mem_append.mp hm with hm | hm
    · exact (h.traced m hm).append _
    · exact (h.published_traced hmsg f hm).append _
  stored id t ht := by
    cases msg with
    | transferCmd cmd =>
      exact (processCommand_traced h.wellKept.transfers h.stored (h.traced _ hmsg)
        f.transfers).1 id t ht
    | _ =>
      rw [react_transfers fun _ he => by cases he] at ht
      exact (h.stored id t ht).append _
  origin id p hp := by
    have hkept : Origin s.net (react B C f s.stores msg).1.participants := by
      cases msg with
      | participantCmd cmd =>
        exact processCommand_origin h.wellKept.participants h.origin hmsg f.participants
      | _ =>
        rw [react_participants fun _ he => by cases he]
        exact h.origin
    obtain ⟨created, hmem, hblank⟩ := hkept id p hp
    exact ⟨created, List.mem_append_left _ hmem, hblank⟩

theorem step (h : Traceable C s) (B : BigNumber) (a : Action) :
    Traceable C (Network.step B C s a) := by
  cases a with
  | receive input => exact h.receive input
  | deliver msg f =>
    rw [Network.step]
    split
    · exact h.deliver ‹_› B f
    · exact h

/-- Every run can be traced, whatever fails. -/
theorem run (B : BigNumber) (C : Crypto) (partitioner : String → Nat) (actions : List Action) :
    Traceable C (Network.run B C partitioner actions) :=
  Machine.run_always (fun _ a h => h.step B a) (start C partitioner) actions

end Traceable

end Switch
end PocArchitecture
