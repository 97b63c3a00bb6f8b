/-
The switch and the simulator, each answering the other.

The simulator has a consumer group of its own on the topic of the transfers' events, so an
event it subscribes to is delivered twice, once to each group.  Any call may fail, and any
handled message may be delivered again.  Every message is worth the deliveries it can lead
to: a message weighs more than all that is published for it, even where a failed publish
went out and is repeated.  So the loop winds down, in whatever order it is run.
-/
import PocArchitecture.Devtools.Simulator
import PocArchitecture.Lib.Potential
import PocArchitecture.Switch.Custody
import Mathlib.Algebra.Order.BigOperators.Group.List

namespace PocArchitecture
namespace Devtools

open PublicMessages Infrastructure
open Domain (PublishOutcome)
open Switch (DomainMessage Faults Input Stores WellKept publishes_of_mem react)
open Participants (BigNumber)
open Transfers (Crypto TransferPreparedEvtPayload)

/-- A message on its way to one of the two consumer groups. -/
inductive Item where
  | switch (msg : DomainMessage)
  | simulator (msg : DomainMessage)
  deriving DecidableEq

/-- The messages the simulator subscribes to. -/
def subscribed : DomainMessage → Bool
  | .transferEvt (.transferPreparedEvt _) | .transferEvt (.transferFulfilledEvt _) => true
  | _ => false

/-- A published message, for each group that wants it. -/
def fanOut (msg : DomainMessage) : List Item :=
  .switch msg :: if subscribed msg then [.simulator msg] else []

/-- How the calls made for one item end; `now` is the clock of the simulator. -/
structure Circumstances where
  faults : Faults
  now : String
  deriving DecidableEq

inductive Label where
  | receive (input : Input)
  | deliver (item : Item) (circumstances : Circumstances)
  | redeliver (item : Item) (circumstances : Circumstances)
  deriving DecidableEq

/-- The circumstances of a delivery. -/
def Label.circumstances : Label → Option Circumstances
  | receive _ => none
  | deliver _ c | redeliver _ c => some c

/-- A handled item and what was published for it. -/
structure Done where
  item : Item
  published : List DomainMessage

structure ClosedLoop where
  stores : Stores
  pending : List Item
  done : List Done

namespace ClosedLoop

def start (partitioner : String → Nat) : ClosedLoop :=
  { stores := Stores.start partitioner, pending := [], done := [] }

section Step

variable (B : BigNumber) (C : Crypto) (S : Simulator)

/-- The effect of an item on the stores, and the messages published for it. -/
def reactTo (c : Circumstances) (stores : Stores) : Item → Stores × List DomainMessage
  | .switch msg => react B C c.faults stores msg
  | .simulator msg => (stores, S.simulatorEvtHandler c.now c.faults.command msg)

def handle (s : ClosedLoop) (item : Item) (c : Circumstances) : ClosedLoop :=
  let reaction := reactTo B C S c s.stores item
  { stores := reaction.1
    pending := s.pending ++ reaction.2.flatMap fanOut
    done := s.done ++ [{ item := item, published := reaction.2 }] }

def step (s : ClosedLoop) : Label → ClosedLoop
  | .receive input => { s with pending := s.pending ++ fanOut input.message }
  | .deliver item c =>
    if item ∈ s.pending then handle B C S { s with pending := s.pending.erase item } item c else s
  | .redeliver item c => if item ∈ s.done.map (·.item) then handle B C S s item c else s

/-- The label puts an item in a consumer's hands. -/
def delivers (s : ClosedLoop) : Label → Bool
  | .receive _ => false
  | .deliver item _ => decide (item ∈ s.pending)
  | .redeliver item _ => decide (item ∈ s.done.map (·.item))

def run (partitioner : String → Nat) (labels : List Label) : ClosedLoop :=
  Machine.run (step B C S) (start partitioner) labels

/-- The deliveries of a run. -/
def deliveries (partitioner : String → Nat) (labels : List Label) : Nat :=
  Machine.worked (step B C S) delivers (start partitioner) labels

end Step

/-! ## What a message is worth

A failed publish may have delivered all of its messages, and is tried a second time; `k` is
how often a message can go out, once or twice.
-/

section Weight

variable (k : Nat)

def ackCommitted : Nat := 1 + k * 3

def commit : Nat := 1 + k * (1 + ackCommitted k + 1)

def fulfil : Nat := 1 + k * (1 + commit k + 1)

/-- The simulator and what it asks for. -/
def answer : Nat := 1 + (1 + fulfil k)

def ackReserved : Nat := 1 + k * (1 + answer k + 1)

def reserve : Nat := 1 + k * (1 + ackReserved k + 1)

def prepare : Nat := 1 + k * (1 + reserve k + 1)

/-- The deliveries that the delivery of a message to the switch can lead to, itself included. -/
def weight : DomainMessage → Nat
  | .transferPrepareRequestedEvt _ => 1 + prepare k
  | .transferFulfilRequestedEvt _ => 1 + fulfil k
  | .transferCmd (.prepareTransferCmd _) => prepare k
  | .transferCmd (.ackPayerFundsReservedCmd _) => ackReserved k
  | .transferCmd (.fulfilTransferCmd _) => fulfil k
  | .transferCmd (.ackPayeeFundsCommittedCmd _) => ackCommitted k
  | .transferEvt (.transferPrepareAcceptedEvt _) => 1 + reserve k
  | .transferEvt (.transferFulfilAcceptedEvt _) => 1 + commit k
  | .transferEvt _ => 1
  | .participantCmd (.createParticipantCmd _) => 1 + k * 2
  | .participantCmd (.reservePayerFundsCmd _) => reserve k
  | .participantCmd (.commitPayeeFundsCmd _) => commit k
  | .participantCmd (.snapshotParticipantStateCmd _) => 1 + k
  | .participantEvt (.payerFundsReservedEvt _) => 1 + ackReserved k
  | .participantEvt (.payeeFundsCommittedEvt _) => 1 + ackCommitted k
  | .participantEvt _ => 1

def itemWeight : Item → Nat
  | .switch msg => weight k msg
  | .simulator (.transferEvt (.transferPreparedEvt _)) => answer k
  | .simulator _ => 1

/-- The same for a published message and all the groups that want it. -/
def worth (msg : DomainMessage) : Nat := ((fanOut msg).map (itemWeight k)).sum

/-- The items in flight. -/
def potential (s : ClosedLoop) : Nat := (s.pending.map (itemWeight k)).sum

end Weight

section Worth

variable {k : Nat} {msg : DomainMessage}

theorem sum_fanOut (msgs : List DomainMessage) :
    ((msgs.flatMap fanOut).map (itemWeight k)).sum = (msgs.map (worth k)).sum := by
  induction msgs with
  | nil => rfl
  | cons m msgs ih =>
    rw [List.flatMap_cons, List.map_append, List.sum_append, ih, List.map_cons, List.sum_cons]
    rfl

/-- A refusal or a report that nothing comes of. -/
theorem worth_of_silent {evt : Transfers.Message} (h : evt.milestone = none) :
    worth k (.transferEvt evt) = 1 := by
  cases evt <;> first | rfl | cases h

theorem worth_of_refusal {evt : Participants.Message} (h : evt.isRefusal = true) :
    worth k (.participantEvt evt) = 1 := by
  cases evt <;> first | rfl | cases h

/-- A command can be refused, and the refusal goes out. -/
theorem le_weight_transferCmd (cmd : Transfers.Command) : 1 + k * 1 ≤ weight k (.transferCmd cmd) := by
  cases cmd <;> exact Nat.add_le_add_left (Nat.mul_le_mul_left k (by omega)) 1

theorem le_weight_participantCmd (cmd : Participants.Command) :
    1 + k * 1 ≤ weight k (.participantCmd cmd) := by
  cases cmd with
  | snapshotParticipantStateCmd participantId => exact Nat.le_of_eq (by rw [Nat.mul_one]; rfl)
  | _ => exact Nat.add_le_add_left (Nat.mul_le_mul_left k (by omega)) 1

/-! ### What is published -/

/-- A message goes out once, or twice where a failed publish is repeated. -/
def Repeats (k : Nat) (o : PublishOutcome) : Prop := o.isOk = true ∧ 1 ≤ k ∨ 2 ≤ k

theorem sum_delivered_le {M : Type} (f : M → Nat) (o : PublishOutcome) (msgs : List M) :
    ((o.delivered msgs).map f).sum ≤ (msgs.map f).sum :=
  ((o.delivered_sublist msgs).map f).sum_le_sum fun _ _ => Nat.zero_le _

/-- A publish, and the second one after a failure, of no more than the first. -/
theorem sum_sent_le {M : Type} (f : M → Nat) {o : PublishOutcome} (h : Repeats k o)
    (o' : PublishOutcome) {all again : List M} (hsub : again.Sublist all) :
    ((if o.isOk then all else o.delivered all ++ o'.delivered again).map f).sum ≤
      k * (all.map f).sum := by
  rcases h with ⟨hok, hk⟩ | hk
  · rw [if_pos hok]
    exact Nat.le_mul_of_pos_left _ hk
  · have hall := sum_delivered_le f o all
    have hagain : ((o'.delivered again).map f).sum ≤ (all.map f).sum :=
      le_trans (sum_delivered_le f o' again)
        ((hsub.map f).sum_le_sum fun _ _ => Nat.zero_le _)
    have htwice := Nat.mul_le_mul_right (all.map f).sum hk
    split
    · omega
    · rw [List.map_append, List.sum_append]
      omega

variable {B : BigNumber} {C : Crypto} {f : Faults} {stores : Stores}

theorem sum_worth_transfers {cmd : Transfers.Command} {w : Transfers.World}
    {tf : Transfers.Faults} (h : Repeats k tf.publish₁) :
    1 + ((((Transfers.TransfersAgg.processCommand Transfers.redisTransferStateRepo C tf w
        cmd).published).map DomainMessage.transferEvt).map (worth k)).sum ≤
      weight k (.transferCmd cmd) := by
  rw [Transfers.TransfersAgg.processCommand_published Transfers.redis_lawful, List.map_map]
  have hsent : ∀ events : List Transfers.Message, k * ((events.map
      (worth k ∘ DomainMessage.transferEvt)).sum) + 1 ≤ weight k (.transferCmd cmd) →
      1 + ((if tf.publish₁.isOk then events
        else tf.publish₁.delivered events ++ tf.publish₂.delivered events).map
          (worth k ∘ DomainMessage.transferEvt)).sum ≤ weight k (.transferCmd cmd) := by
    intro events hle
    have hsum := sum_sent_le (worth k ∘ DomainMessage.transferEvt) h tf.publish₂
      (List.Sublist.refl events)
    omega
  refine hsent _ ?_
  rcases Transfers.TransfersAgg.verdict_cases Transfers.redisTransferStateRepo C tf w cmd with
    ⟨-, hv⟩ | ⟨payload, rfl, -, hv⟩ | ⟨_, m, hv, hm, -⟩ | ⟨s, s', events, hv, -, hadv⟩
  · rw [hv]
    have hcmd := le_weight_transferCmd (k := k) cmd
    show k * 0 + 1 ≤ _
    omega
  · rw [hv]
    exact Nat.le_of_eq (Nat.add_comm (k * (1 + reserve k + 1)) 1)
  · rw [hv]
    have hcmd := le_weight_transferCmd (k := k) cmd
    show k * (worth k (.transferEvt m) + 0) + 1 ≤ _
    rw [worth_of_silent hm]
    omega
  · rw [hv]
    cases hadv with
    | reserve payload hstate => exact Nat.le_of_eq (Nat.add_comm (k * (1 + answer k + 1)) 1)
    | fulfil payload hstate hfulfils => exact Nat.le_of_eq (Nat.add_comm (k * (1 + commit k + 1)) 1)
    | commit payload hstate => exact Nat.le_of_eq (Nat.add_comm (k * 3) 1)

theorem sum_worth_participants {cmd : Participants.Command} {w : Participants.World}
    {pf : Participants.Faults} (h : Repeats k pf.publish₁)
    (hw : Participants.ParticpantsAgg.WellKept Participants.redisParticipantStateRepo w) :
    1 + ((((Participants.ParticpantsAgg.processCommand Participants.redisParticipantStateRepo B pf w
        cmd).published).map DomainMessage.participantEvt).map (worth k)).sum ≤
      weight k (.participantCmd cmd) := by
  rw [Participants.ParticpantsAgg.processCommand_published Participants.redis_lawful (hw.keyed cmd),
    List.map_map]
  have hcmd := le_weight_participantCmd (k := k) cmd
  have hsent : ∀ v : Participants.ParticpantsAgg.Verdict, k * (((v.events ++ v.stateEvents).map
      (worth k ∘ DomainMessage.participantEvt)).sum) + 1 ≤ weight k (.participantCmd cmd) →
      1 + ((v.published pf).map (worth k ∘ DomainMessage.participantEvt)).sum ≤
        weight k (.participantCmd cmd) := by
    intro v hle
    have hsum := sum_sent_le (worth k ∘ DomainMessage.participantEvt) h pf.publish₂
      (List.sublist_append_left v.events v.stateEvents)
    exact le_trans (Nat.add_le_add_left hsum 1) (Nat.add_comm 1 _ ▸ hle)
  refine hsent _ ?_
  cases hv : Participants.ParticpantsAgg.verdict Participants.redisParticipantStateRepo B w cmd with
  | reject =>
    show k * 0 + 1 ≤ _
    omega
  | refuse root events =>
    obtain ⟨m, rfl, hm⟩ := Participants.ParticpantsAgg.verdict_refuse hv
    show k * (worth k (.participantEvt m) + 0) + 1 ≤ _
    rw [worth_of_refusal hm]
    omega
  | create participant =>
    obtain ⟨rfl, -⟩ := Participants.ParticpantsAgg.verdict_create hv
    exact Nat.le_of_eq (Nat.add_comm (k * 2) 1)
  | snapshot root =>
    show k * (1 + 0) + 1 ≤ _
    omega
  | move root root' events stateEvent =>
    rcases Participants.ParticpantsAgg.verdict_move_event hv with
      ⟨terms, payload, rfl, rfl, -⟩ | ⟨terms, payload, rfl, rfl, -⟩
    · obtain ⟨-, _, _, _, -, -, -, -, -, rfl⟩ := Participants.ParticpantsAgg.verdict_move hv
      exact Nat.le_of_eq (Nat.add_comm (k * (1 + ackReserved k + 1)) 1)
    · obtain ⟨-, _, _, _, -, -, -, -, -, rfl⟩ := Participants.ParticpantsAgg.verdict_move hv
      exact Nat.le_of_eq (Nat.add_comm (k * (1 + ackCommitted k + 1)) 1)

/-- The first publish of either aggregate goes through, or two may count. -/
def PublishesWithin (k : Nat) (c : Circumstances) : Prop :=
  Repeats k c.faults.transfers.publish₁ ∧ Repeats k c.faults.participants.publish₁

theorem one_le_weight (msg : DomainMessage) : 1 ≤ weight k msg := by
  cases msg with
  | transferPrepareRequestedEvt payload => exact Nat.le_add_right 1 _
  | transferFulfilRequestedEvt payload => exact Nat.le_add_right 1 _
  | transferCmd cmd => cases cmd <;> exact Nat.le_add_right 1 _
  | transferEvt evt => cases evt <;> first | exact Nat.le_refl 1 | exact Nat.le_add_right 1 _
  | participantCmd cmd => cases cmd <;> exact Nat.le_add_right 1 _
  | participantEvt evt => cases evt <;> first | exact Nat.le_refl 1 | exact Nat.le_add_right 1 _

/-- An event is worth one more than the command made of it. -/
theorem weight_transferEvtHandler {msg : DomainMessage} {cmd : Transfers.Command}
    (h : Switch.transferEvtHandler msg = some cmd) :
    1 + weight k (.transferCmd cmd) ≤ weight k msg := by
  cases msg with
  | transferPrepareRequestedEvt payload =>
    cases h
    exact Nat.le_refl _
  | transferFulfilRequestedEvt payload =>
    cases h
    exact Nat.le_refl _
  | participantEvt evt =>
    cases evt <;> cases h <;> exact Nat.le_refl _
  | _ => cases h

theorem weight_participantEvtHandler {evt : Transfers.Message} {cmd : Participants.Command}
    (h : Switch.participantEvtHandler evt = some cmd) :
    1 + weight k (.participantCmd cmd) ≤ weight k (.transferEvt evt) := by
  cases evt <;> cases h <;> exact Nat.le_refl _

theorem react_worth {c : Circumstances} (h : PublishesWithin k c) (hw : WellKept stores)
    (msg : DomainMessage) :
    1 + ((react B C c.faults stores msg).2.map (worth k)).sum ≤ weight k msg := by
  have hcommand : ∀ msg cmd, Switch.transferEvtHandler msg = some cmd →
      (react B C c.faults stores msg).2 = (if c.faults.command then [.transferCmd cmd] else []) →
      1 + ((react B C c.faults stores msg).2.map (worth k)).sum ≤ weight k msg := by
    intro msg cmd hcmd hreact
    rw [hreact]
    split
    · exact weight_transferEvtHandler hcmd
    · exact one_le_weight msg
  cases msg with
  | transferCmd cmd => exact sum_worth_transfers h.1
  | participantCmd cmd => exact sum_worth_participants h.2 hw.participants
  | transferEvt evt =>
    rw [react, Switch.reactToTransferEvt]
    split
    · exact one_le_weight _
    · rename_i cmd hcmd
      dsimp only
      split
      · exact weight_participantEvtHandler hcmd
      · exact one_le_weight _
  | transferPrepareRequestedEvt payload => exact hcommand _ _ rfl rfl
  | transferFulfilRequestedEvt payload => exact hcommand _ _ rfl rfl
  | participantEvt evt =>
    cases evt with
    | payerFundsReservedEvt payload => exact hcommand _ _ rfl rfl
    | payeeFundsCommittedEvt payload => exact hcommand _ _ rfl rfl
    | _ => exact one_le_weight _

theorem reactTo_worth {S : Simulator} {c : Circumstances} (h : PublishesWithin k c)
    (hw : WellKept stores) (item : Item) :
    1 + ((reactTo B C S c stores item).2.map (worth k)).sum ≤ itemWeight k item := by
  cases item with
  | switch msg => exact react_worth h hw msg
  | simulator msg =>
    have hone : 1 ≤ itemWeight k (.simulator msg) := by
      unfold itemWeight
      split
      · exact one_le_weight _
      · exact Nat.le_add_right 1 _
      · exact Nat.le_refl 1
    unfold reactTo Simulator.simulatorEvtHandler
    dsimp only
    split
    · split
      · exact Nat.le_refl _
      · exact hone
    · exact hone

theorem potential_handle {S : Simulator} {s : ClosedLoop} {c : Circumstances}
    (h : PublishesWithin k c) (hw : WellKept s.stores) (item : Item) :
    1 + potential k (handle B C S s item c) ≤ potential k s + itemWeight k item := by
  have hworth := reactTo_worth (B := B) (C := C) (S := S) h hw item
  rw [potential, handle, List.map_append, List.sum_append, sum_fanOut]
  show 1 + (potential k s + ((reactTo B C S c s.stores item).2.map (worth k)).sum) ≤ _
  omega

end Worth

/-! ## The loop winds down -/

/-- How many deliveries a label pays for: an input those it can lead to, with or without failed
publishes, and a redelivery those of its item. -/
def grant (failing : Bool) : Label → Nat
  | .receive (.prepareRequest _) => if failing then 396 else 22
  | .receive (.fulfilRequest _) => if failing then 44 else 11
  | .receive (.createParticipant _) => if failing then 5 else 3
  | .deliver _ _ => 0
  | .redeliver item _ => itemWeight (if failing then 2 else 1) item

section Run

variable {B : BigNumber} {C : Crypto} {S : Simulator} {s : ClosedLoop}

theorem wellKept_step (h : WellKept s.stores) (l : Label) : WellKept (step B C S s l).stores := by
  have hhandle : ∀ (rest : ClosedLoop) (item : Item) (c : Circumstances), WellKept rest.stores →
      WellKept (handle B C S rest item c).stores := by
    intro rest item c hrest
    cases item with
    | switch msg => exact hrest.react B C c.faults msg
    | simulator msg => exact hrest
  cases l with
  | receive input => exact h
  | deliver item c =>
    rw [step]
    split
    · exact hhandle _ item c h
    · exact h
  | redeliver item c =>
    rw [step]
    split
    · exact hhandle _ item c h
    · exact h

theorem worth_input (failing : Bool) (input : Input) :
    worth (if failing then 2 else 1) input.message = grant failing (.receive input) := by
  cases failing <;> cases input <;> rfl

/-- Every step is paid for by what its label brings in and what was in flight. -/
theorem potential_step {failing : Bool} {l : Label} (hw : WellKept s.stores)
    (h : ∀ c ∈ l.circumstances, PublishesWithin (if failing then 2 else 1) c) :
    (if delivers s l then 1 else 0) +
        potential (if failing then 2 else 1) (step B C S s l) ≤
      potential (if failing then 2 else 1) s + grant failing l := by
  cases l with
  | receive input =>
    rw [← worth_input failing input, step, potential, List.map_append, List.sum_append]
    show 0 + (potential _ s + worth _ input.message) ≤ _
    omega
  | deliver item c =>
    rw [step, delivers]
    by_cases hmem : item ∈ s.pending
    · rw [if_pos hmem, if_pos (decide_eq_true hmem)]
      have hpaid := potential_handle (B := B) (C := C) (S := S)
        (s := { s with pending := s.pending.erase item }) (h c rfl) hw item
      have herase := Machine.sum_erase (itemWeight (if failing then 2 else 1)) hmem
      show 1 + _ ≤ ((s.pending.map (itemWeight _)).sum) + 0
      rw [← herase]
      exact le_trans hpaid (Nat.le_of_eq (Nat.add_comm _ _))
    · rw [if_neg hmem, if_neg fun hd => hmem (of_decide_eq_true hd), Nat.zero_add]
      exact Nat.le_refl _
  | redeliver item c =>
    rw [step, delivers]
    by_cases hmem : item ∈ s.done.map (·.item)
    · rw [if_pos hmem, if_pos (decide_eq_true hmem)]
      exact potential_handle (h c rfl) hw item
    · rw [if_neg hmem, if_neg fun hd => hmem (of_decide_eq_true hd), Nat.zero_add]
      exact Nat.le_add_right _ _

/-- No delivery in the run has a first publish of an aggregate fail. -/
def NoPublishFails (labels : List Label) : Prop :=
  ∀ l ∈ labels, ∀ c ∈ l.circumstances,
    c.faults.transfers.publish₁.isOk = true ∧ c.faults.participants.publish₁.isOk = true

theorem deliveries_le (B : BigNumber) (C : Crypto) (S : Simulator) (partitioner : String → Nat)
    {failing : Bool} {labels : List Label} (h : failing = true ∨ NoPublishFails labels) :
    deliveries B C S partitioner labels ≤ (labels.map (grant failing)).sum := by
  have hwithin : ∀ l ∈ labels, ∀ c ∈ l.circumstances,
      PublishesWithin (if failing then 2 else 1) c := by
    intro l hl c hc
    cases failing with
    | true => exact ⟨Or.inr (Nat.le_refl 2), Or.inr (Nat.le_refl 2)⟩
    | false =>
      obtain ⟨ht, hp⟩ := (h.resolve_left Bool.false_ne_true) l hl c hc
      exact ⟨Or.inl ⟨ht, Nat.le_refl 1⟩, Or.inl ⟨hp, Nat.le_refl 1⟩⟩
  have hle : deliveries B C S partitioner labels ≤
      potential (if failing then 2 else 1) (start partitioner) +
        (labels.map (grant failing)).sum :=
    Machine.worked_le
      (P := fun _ l => ∀ c ∈ l.circumstances, PublishesWithin (if failing then 2 else 1) c)
      (I := fun s : ClosedLoop => WellKept s.stores) (fun _ l hw _ => wellKept_step hw l)
      (fun _ _ hw hl => potential_step hw hl) (Switch.wellKept_start partitioner)
      (Machine.along_of_forall (fun _ _ hl => hl) _ hwithin)
  exact le_trans hle (Nat.le_of_eq (Nat.zero_add _))

end Run

/-- In every run, whatever fails and in whatever order: a request to prepare leads to at most 396
deliveries, a request to fulfil to 44, a new participant to 5, and a redelivery to those its
message is worth.  As long as no publish of an aggregate fails it is 22, 11 and 3. -/
theorem winds_down (B : BigNumber) (C : Crypto) (S : Simulator) (partitioner : String → Nat)
    (labels : List Label) :
    deliveries B C S partitioner labels ≤ (labels.map (grant true)).sum ∧
      (NoPublishFails labels →
        deliveries B C S partitioner labels ≤ (labels.map (grant false)).sum) :=
  ⟨deliveries_le B C S partitioner (Or.inl rfl),
    fun h => deliveries_le B C S partitioner (Or.inr h)⟩

end ClosedLoop

end Devtools
end PocArchitecture
