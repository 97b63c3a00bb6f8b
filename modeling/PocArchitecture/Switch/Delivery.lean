/-
Deliveries one by one.

Here every published message is delivered once, in any order, and nothing fails; on top
of that the consumer may be handed a message again that it has already handled.  Such a
redelivery, and everything that comes of it, is marked as an echo; the other messages are
fresh, and `fresh` counts them.  Every handled message is on record, with what was
published for it.
-/
import PocArchitecture.Lib.Timeline
import PocArchitecture.Participants.FailureFree
import PocArchitecture.Switch.Custody

namespace PocArchitecture
namespace Switch

open PublicMessages Infrastructure
open Participants (ParticipantState BigNumber redisParticipantStateRepo)
open Participants.ParticpantsAgg (Admits AllStored)
open Transfers (Crypto TransferInternalStates redisTransferStateRepo milestones passed)
open Transfers.TransfersAgg (stored LifeStep)

structure Envelope where
  msg : DomainMessage
  echo : Bool
  deriving DecidableEq

/-- A handled message and what was published for it. -/
structure Handled where
  msg : DomainMessage
  echo : Bool
  published : List DomainMessage

structure Exchange where
  stores : Stores
  pending : List Envelope
  done : List Handled

inductive Delivery where
  | receive (input : Input)
  | deliver (e : Envelope)
  | redeliver (msg : DomainMessage)
  deriving DecidableEq

def Delivery.isRedelivery : Delivery → Bool
  | redeliver _ => true
  | _ => false

/-- The events and commands between the two sides that lead to a position. -/
def DomainMessage.redeliverable : DomainMessage → Bool
  | transferEvt (.transferPrepareAcceptedEvt _) | transferEvt (.transferFulfilAcceptedEvt _)
  | participantCmd (.reservePayerFundsCmd _) | participantCmd (.commitPayeeFundsCmd _) => true
  | _ => false

namespace Exchange

def start (partitioner : String → Nat) : Exchange :=
  { stores := Stores.start partitioner, pending := [], done := [] }

section Step

variable (B : BigNumber) (C : Crypto)

def entry (stores : Stores) (e : Envelope) : Handled :=
  { msg := e.msg, echo := e.echo, published := (react B C Faults.none stores e.msg).2 }

/-- The consumer's turn; what is published for an echo is an echo. -/
def handle (s : Exchange) (e : Envelope) : Exchange :=
  let reaction := react B C Faults.none s.stores e.msg
  { stores := reaction.1
    pending := s.pending ++ reaction.2.map fun msg => { msg := msg, echo := e.echo }
    done := s.done ++ [entry B C s.stores e] }

def step (s : Exchange) : Delivery → Exchange
  | .receive input => { s with pending := s.pending ++ [{ msg := input.message, echo := false }] }
  | .deliver e =>
    if e ∈ s.pending then handle B C { s with pending := s.pending.erase e } e else s
  | .redeliver msg =>
    if msg.redeliverable = true ∧ msg ∈ s.done.map (·.msg) then
      handle B C s { msg := msg, echo := true }
    else s

/-- The message a step puts in the consumer's hands. -/
def taken (s : Exchange) : Delivery → Option Envelope
  | .receive _ => none
  | .deliver e => if e ∈ s.pending then some e else none
  | .redeliver msg =>
    if msg.redeliverable = true ∧ msg ∈ s.done.map (·.msg) then some { msg := msg, echo := true }
    else none

def run (partitioner : String → Nat) (deliveries : List Delivery) : Exchange :=
  Machine.run (step B C) (start partitioner) deliveries

end Step

end Exchange

/-! ## What was done -/

/-- The position was moved, and this was announced. -/
def Handled.moved (h : Handled) : Bool :=
  h.published.any fun
    | .participantEvt evt => evt.movement.isSome
    | _ => false

/-- The terms of a reserve that went through. -/
def Handled.reserve (h : Handled) : Option TransferTerms :=
  match h.msg with
  | .participantCmd (.reservePayerFundsCmd terms) => if h.moved then some terms else none
  | _ => none

theorem Handled.reserve_of_moved {h : Handled} {terms : TransferTerms} (hmoved : h.moved = true)
    (hmsg : h.msg = .participantCmd (.reservePayerFundsCmd terms)) : h.reserve = some terms := by
  rw [Handled.reserve, hmsg]
  exact if_pos hmoved

/-- The terms of a commit, whatever came of it. -/
def Handled.commit (h : Handled) : Option TransferTerms :=
  match h.msg with
  | .participantCmd (.commitPayeeFundsCmd terms) => some terms
  | _ => none

theorem Handled.msg_of_reserve {h : Handled} {terms : TransferTerms}
    (hterms : h.reserve = some terms) : h.msg = .participantCmd (.reservePayerFundsCmd terms) := by
  rw [reserve] at hterms
  split at hterms
  · split at hterms
    · rwa [← Option.some.inj hterms]
    · cases hterms
  · cases hterms

theorem Handled.msg_of_commit {h : Handled} {terms : TransferTerms}
    (hterms : h.commit = some terms) : h.msg = .participantCmd (.commitPayeeFundsCmd terms) := by
  rw [commit] at hterms
  split at hterms
  · rwa [← Option.some.inj hterms]
  · cases hterms

/-- The reserves that went through. -/
def reserved (done : List Handled) : List TransferTerms := done.filterMap (·.reserve)

/-- The commits that were processed. -/
def committed (done : List Handled) : List TransferTerms := done.filterMap (·.commit)

theorem reserved_concat (done : List Handled) (h : Handled) :
    reserved (done ++ [h]) = reserved done ++ h.reserve.toList := Timeline.filterMap_concat _ _ _

theorem committed_concat (done : List Handled) (h : Handled) :
    committed (done ++ [h]) = committed done ++ h.commit.toList := Timeline.filterMap_concat _ _ _

/-! ## Counting messages -/

/-- This step of this transfer is announced. -/
def announces (transferId : String) (state : TransferInternalStates) : DomainMessage → Bool
  | .transferEvt evt => decide (evt.milestone = some (transferId, state))
  | _ => false

def reserveFor (transferId : String) : DomainMessage → Bool
  | .participantCmd (.reservePayerFundsCmd terms) => decide (terms.transferId = transferId)
  | _ => false

def commitFor (transferId : String) : DomainMessage → Bool
  | .participantCmd (.commitPayeeFundsCmd terms) => decide (terms.transferId = transferId)
  | _ => false

namespace Exchange

/-- The fresh messages of a kind that have been handled. -/
def handledFresh (s : Exchange) (p : DomainMessage → Bool) : Nat :=
  s.done.countP fun h => !h.echo && p h.msg

/-- The fresh messages of a kind, handled or in flight. -/
def fresh (s : Exchange) (p : DomainMessage → Bool) : Nat :=
  (s.pending.countP fun e => !e.echo && p e.msg) + s.handledFresh p

theorem handledFresh_le_fresh (s : Exchange) (p : DomainMessage → Bool) :
    s.handledFresh p ≤ s.fresh p := Nat.le_add_left _ _

section Counts

variable {B : BigNumber} {C : Crypto} {s : Exchange} {e : Envelope} {p : DomainMessage → Bool}

theorem handledFresh_handle :
    (handle B C s e).handledFresh p = s.handledFresh p + if !e.echo && p e.msg then 1 else 0 := by
  rw [handledFresh, handle, List.countP_append, List.countP_singleton]
  rfl

theorem countP_echo (echo : Bool) (msgs : List DomainMessage) :
    (msgs.map fun msg => ({ msg := msg, echo := echo } : Envelope)).countP
        (fun e => !e.echo && p e.msg) =
      if echo then 0 else msgs.countP p := by
  rw [List.countP_map]
  cases echo with
  | true => exact List.countP_eq_zero.mpr fun msg _ => by simp
  | false => exact List.countP_congr fun msg _ => by simp

@[simp] theorem entry_msg (stores : Stores) : (entry B C stores e).msg = e.msg := rfl

/-- A fresh message in a consumer's hands counts as handled from now on, and its
publications are in flight. -/
theorem fresh_handle :
    (handle B C s e).fresh p = s.fresh p + (if !e.echo && p e.msg then 1 else 0) +
      if e.echo then 0 else (react B C Faults.none s.stores e.msg).2.countP p := by
  rw [fresh, handledFresh_handle, fresh]
  simp only [handle, List.countP_append]
  rw [countP_echo]
  omega

theorem fresh_erase (he : e ∈ s.pending) :
    fresh { s with pending := s.pending.erase e } p + (if !e.echo && p e.msg then 1 else 0) =
      s.fresh p := by
  have hperm := (List.perm_cons_erase he).countP_eq fun e => !e.echo && p e.msg
  rw [List.countP_cons] at hperm
  simp only [fresh, handledFresh]
  rw [hperm]
  omega

theorem fresh_deliver (he : e ∈ s.pending) :
    (handle B C { s with pending := s.pending.erase e } e).fresh p = s.fresh p +
      if e.echo then 0 else (react B C Faults.none s.stores e.msg).2.countP p := by
  rw [fresh_handle, ← fresh_erase he]

theorem fresh_redeliver {msg : DomainMessage} :
    (handle B C s { msg := msg, echo := true }).fresh p = s.fresh p := by
  rw [fresh_handle]
  rfl

theorem fresh_receive (input : Input) :
    fresh { s with pending := s.pending ++ [{ msg := input.message, echo := false }] } p =
      s.fresh p + if p input.message then 1 else 0 := by
  simp only [fresh, handledFresh, List.countP_append, List.countP_singleton, Bool.not_false,
    Bool.true_and]
  omega

/-- The three things a step can do: take an input in, hand one message to its consumer, or
nothing.  A message that is handed over is pending or an echo of a handled one, and its
publications alone are new. -/
inductive Took (B : BigNumber) (C : Crypto) (s : Exchange) (d : Delivery) : Exchange → Prop where
  | receive (input : Input) (hd : d = .receive input) :
    Took B C s d { s with pending := s.pending ++ [{ msg := input.message, echo := false }] }
  | handle (e : Envelope) (rest : List Envelope) (htaken : s.taken d = some e)
      (hrest : ∀ e ∈ rest, e ∈ s.pending)
      (hknown : e ∈ s.pending ∨ d.isRedelivery = true ∧ e.echo = true ∧
        e.msg.redeliverable = true ∧ ∃ h ∈ s.done, h.msg = e.msg)
      (hfresh : ∀ p, (handle B C { s with pending := rest } e).fresh p = s.fresh p +
        if e.echo then 0 else (react B C Faults.none s.stores e.msg).2.countP p) :
    Took B C s d (handle B C { s with pending := rest } e)
  | idle (htaken : s.taken d = none) : Took B C s d s

theorem took (B : BigNumber) (C : Crypto) (s : Exchange) (d : Delivery) :
    Took B C s d (step B C s d) := by
  cases d with
  | receive input => exact .receive input rfl
  | deliver e =>
    rw [step]
    split
    · rename_i he
      exact .handle e _ (if_pos he) (fun _ hm => List.mem_of_mem_erase hm) (Or.inl he)
        fun p => fresh_deliver he
    · rename_i he
      exact .idle (if_neg he)
  | redeliver msg =>
    rw [step]
    split
    · rename_i hmsg
      exact .handle { msg := msg, echo := true } s.pending (if_pos hmsg) (fun _ hm => hm)
        (Or.inr ⟨rfl, rfl, hmsg.1, List.mem_map.mp hmsg.2⟩) fun p => fresh_redeliver
    · rename_i hmsg
      exact .idle (if_neg hmsg)

end Counts

end Exchange

/-! ## What a reaction publishes -/

section Publications

variable {B : BigNumber} {C : Crypto} {stores : Stores} {msg : DomainMessage}

/-- The transfer as Redis holds it. -/
abbrev Stores.transfer (stores : Stores) (id : String) : Option Transfers.TransferState :=
  stored stores.transfers id

/-- The steps the stored transfer has behind it. -/
def Stores.passedBy (stores : Stores) (id : String) : List TransferInternalStates :=
  passed ((stores.transfer id).map (·.transferInternalState))

theorem passed_of_lifeStep {id : String} {before after : Option Transfers.TransferState}
    {msgs : List Transfers.Message} (h : LifeStep id before after msgs) :
    passed (after.map (·.transferInternalState)) =
      passed (before.map (·.transferInternalState)) ++ milestones id msgs := by
  cases h with
  | stay _ hsilent => rw [hsilent, List.append_nil]
  | step s' _ hnext _ hannounced =>
    rw [hannounced, Option.map_some, Transfers.passed_nextState hnext]

theorem passed_count_le_one (state : Option TransferInternalStates)
    (step : TransferInternalStates) : (passed state).count step ≤ 1 := by
  have hnodup : (passed state).Nodup := by
    cases state with
    | none => exact List.nodup_nil
    | some state => cases state <;> decide
  exact List.nodup_iff_count_le_one.mp hnodup step

theorem count_milestones (id : String) (state : TransferInternalStates)
    (msgs : List Transfers.Message) :
    (milestones id msgs).count state =
      (msgs.map DomainMessage.transferEvt).countP (announces id state) := by
  induction msgs with
  | nil => rfl
  | cons m msgs ih =>
    rw [List.map_cons, List.countP_cons, ← ih, milestones, List.filterMap_cons]
    cases hm : m.milestone with
    | none => simp [announces, hm, milestones]
    | some p =>
      obtain ⟨i, st⟩ := p
      by_cases hi : i = id
      · subst hi
        by_cases hst : st = state <;> simp [announces, hm, milestones, hst]
      · simp [announces, hm, milestones, hi]

/-- The life of every transfer, seen from a reaction. -/
theorem react_lifeStep (B : BigNumber) (C : Crypto) (hw : WellKept stores) (msg : DomainMessage)
    (id : String) :
    ∃ msgs, LifeStep id (stores.transfer id) ((react B C Faults.none stores msg).1.transfer id)
        msgs ∧
      ∀ state, (react B C Faults.none stores msg).2.countP (announces id state) =
        (milestones id msgs).count state := by
  cases msg with
  | transferCmd cmd =>
    refine ⟨_, Transfers.TransfersAgg.lifeStep hw.transfers cmd id, fun state => ?_⟩
    rw [count_milestones]
    rfl
  | _ =>
    rw [Stores.transfer, Stores.transfer, react_transfers fun _ he => by cases he]
    refine ⟨[], .stay _ rfl, fun state => ?_⟩
    rw [Transfers.milestones_nil, List.count_nil, List.countP_eq_zero]
    intro m hm
    -- whatever is published here is no event of the transfers side
    cases publishes_of_mem hm <;> exact Bool.false_ne_true

/-- What has been announced is what the transfer has behind it. -/
theorem react_announcements (hw : WellKept stores) (id : String) (state : TransferInternalStates) :
    ((react B C Faults.none stores msg).1.passedBy id).count state =
      (stores.passedBy id).count state +
        (react B C Faults.none stores msg).2.countP (announces id state) := by
  obtain ⟨msgs, hstep, hcount⟩ := react_lifeStep B C hw msg id
  rw [hcount, Stores.passedBy, passed_of_lifeStep hstep, List.count_append]
  rfl

/-- A participant command is published for an event that calls for it, and once. -/
theorem countP_react_le {f : Faults} {p q : DomainMessage → Bool}
    (hp : ∀ m, p m = true → ∃ cmd, m = .participantCmd cmd)
    (hq : ∀ evt cmd, participantEvtHandler evt = some cmd → p (.participantCmd cmd) = true →
      q (.transferEvt evt) = true) :
    (react B C f stores msg).2.countP p ≤ if q msg then 1 else 0 := by
  by_cases hzero : (react B C f stores msg).2.countP p = 0
  · rw [hzero]
    exact Nat.zero_le _
  · obtain ⟨m, hm, hpm⟩ := List.countP_pos_iff.mp (Nat.pos_of_ne_zero hzero)
    obtain ⟨cmd, rfl⟩ := hp m hpm
    cases publishes_of_mem hm with
    | participantCmd evt _ hcmd =>
      rw [if_pos (hq evt cmd hcmd hpm)]
      exact le_trans List.countP_le_length (length_reactToTransferEvt_le evt)

theorem countP_reserveFor_le (id : String) :
    (react B C Faults.none stores msg).2.countP (reserveFor id) ≤
      if announces id .receivedPrepare msg then 1 else 0 := by
  refine countP_react_le (fun m hm => ?_) fun evt cmd hcmd hp => ?_
  · cases m with
    | participantCmd cmd => exact ⟨cmd, rfl⟩
    | _ => cases hm
  · cases evt with
    | transferPrepareAcceptedEvt terms =>
      cases hcmd
      have hid : terms.transferId = id := of_decide_eq_true hp
      exact decide_eq_true (by rw [Transfers.Message.milestone, hid])
    | transferFulfilAcceptedEvt terms =>
      cases hcmd
      cases hp
    | _ => cases hcmd

theorem countP_commitFor_le (id : String) :
    (react B C Faults.none stores msg).2.countP (commitFor id) ≤
      if announces id .receivedFulfil msg then 1 else 0 := by
  refine countP_react_le (fun m hm => ?_) fun evt cmd hcmd hp => ?_
  · cases m with
    | participantCmd cmd => exact ⟨cmd, rfl⟩
    | _ => cases hm
  · cases evt with
    | transferPrepareAcceptedEvt terms =>
      cases hcmd
      cases hp
    | transferFulfilAcceptedEvt terms =>
      cases hcmd
      have hid : terms.transferId = id := of_decide_eq_true hp
      exact decide_eq_true (by rw [Transfers.Message.milestone, hid])
    | _ => cases hcmd

end Publications

/-! ## A small example -/

/-- The sample transfer with another amount. -/
def samplePrepare (amount : String) : Transfers.PrepareTransferCmdPayload :=
  { Transfers.TransfersAgg.samplePrepare with amount := amount }

/-- Two participants, and the transfer up to its reservation. -/
def sampleReservation (amount : String) : List Delivery :=
  [.receive (.createParticipant (Participants.ParticpantsAgg.sampleParticipant "blue")),
    .receive (.createParticipant (Participants.ParticpantsAgg.sampleParticipant "green")),
    .receive (.prepareRequest (samplePrepare amount))] ++
  ([.participantCmd (.createParticipantCmd (Participants.ParticpantsAgg.sampleParticipant "blue")),
    .participantCmd (.createParticipantCmd (Participants.ParticpantsAgg.sampleParticipant "green")),
    .transferPrepareRequestedEvt (samplePrepare amount),
    .transferCmd (.prepareTransferCmd (samplePrepare amount)),
    .transferEvt (.transferPrepareAcceptedEvt (samplePrepare amount).terms),
    .participantCmd (.reservePayerFundsCmd (samplePrepare amount).terms)].map
      fun msg => .deliver { msg := msg, echo := false })

end Switch
end PocArchitecture
