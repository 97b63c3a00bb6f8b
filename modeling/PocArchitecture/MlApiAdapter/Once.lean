/-
Each callback once.

The steps of a transfer are announced once, however often the messages of the switch are
delivered, as long as no call fails.  So if the notification handler sees no event about such a
step twice, a transfer is posted to its payee at most once, and its fulfilment is put to each of
the two parties at most once, and to nobody before the prepared transfer was announced.
-/
import PocArchitecture.MlApiAdapter.Gateway
import PocArchitecture.Switch.Delivery

namespace PocArchitecture
namespace MlApiAdapter

open PublicMessages Infrastructure
open Participants (BigNumber)
open Switch (Faults Network WellKept announces)
open Transfers (Crypto TransferInternalStates)

/-- The callback for this transfer with this method, in the name of the switch or not. -/
def isCallback (id method : String) (fromSwitch : Bool) (callback : CallbackRequest) : Bool :=
  decide (callback.id = id ∧ callback.method = method ∧ callback.fromSwitch = fromSwitch)

namespace Adapter

variable {A : Adapter} {sends : CallbackRequest → Bool} {id method : String} {fromSwitch : Bool}

/-- The step of the transfer that a method reports. -/
def reported (A : Adapter) (method : String) : TransferInternalStates :=
  if method = A.post then .reserved else .committed

theorem length_sendRequest_le {transferId destination source : String} {headers : Headers}
    {payload callbackURL endpointTemplate : String} {fromSwitch : Bool} :
    (A.sendRequest sends transferId destination source headers payload callbackURL method
      endpointTemplate fromSwitch).sent.length ≤ 1 := by
  rw [sendRequest]
  split
  · exact Nat.zero_le 1
  · exact Nat.le_refl 1

theorem length_notifyPrepared_le (payload : Transfers.TransferPreparedEvtPayload) :
    (A.notifyPrepared sends payload).sent.length ≤ 1 := by
  rw [notifyPrepared]
  split
  · split
    · exact Nat.zero_le 1
    · split
      · exact Nat.zero_le 1
      · exact length_sendRequest_le
  · exact Nat.zero_le 1

theorem fromSwitch_of_mem_confirmToPayee {payload : Transfers.TransferFulfilledEvtPayload}
    {headers : Headers} {payloadForCallback : String} {callback : CallbackRequest}
    (h : callback ∈ (A.confirmToPayee sends payload headers payloadForCallback).sent) :
    callback.fromSwitch = true := by
  rw [confirmToPayee] at h
  split at h
  · cases h
  · obtain ⟨_, -, rfl⟩ := mem_sendRequest h
    rfl

theorem length_confirmToPayee_le (payload : Transfers.TransferFulfilledEvtPayload)
    (headers : Headers) (payloadForCallback : String) :
    (A.confirmToPayee sends payload headers payloadForCallback).sent.length ≤ 1 := by
  rw [confirmToPayee]
  split
  · exact Nat.zero_le 1
  · exact length_sendRequest_le

/-- Only the second request is made for the switch, so each is there once. -/
theorem countP_notifyFulfilled_le (payload : Transfers.TransferFulfilledEvtPayload) :
    (A.notifyFulfilled sends payload).sent.countP (isCallback id method fromSwitch) ≤ 1 := by
  rw [notifyFulfilled]
  split
  · rename_i rawPayload headers hpayload hheaders
    split
    · exact Nat.zero_le 1
    · rename_i payerEndPoint hpayer
      split
      · exact Nat.zero_le 1
      · rename_i payloadForCallback hprocessed
        have hfirst : (A.sendRequest sends payload.terms.transferId payload.terms.payerId
            payload.terms.payeeId headers payloadForCallback payerEndPoint.value A.put
            A.transfersPut false).sent.length ≤ 1 := length_sendRequest_le
        dsimp only
        split
        · rw [List.countP_append]
          cases fromSwitch with
          | false =>
            have hsecond : (A.confirmToPayee sends payload headers payloadForCallback).sent.countP
                (isCallback id method false) = 0 := by
              refine List.countP_eq_zero.mpr fun callback hmem hcallback => ?_
              have hswitch := (of_decide_eq_true hcallback).2.2
              rw [fromSwitch_of_mem_confirmToPayee hmem] at hswitch
              cases hswitch
            rw [hsecond, Nat.add_zero]
            exact le_trans List.countP_le_length hfirst
          | true =>
            have hnone : (A.sendRequest sends payload.terms.transferId payload.terms.payerId
                payload.terms.payeeId headers payloadForCallback payerEndPoint.value A.put
                A.transfersPut false).sent.countP (isCallback id method true) = 0 := by
              refine List.countP_eq_zero.mpr fun callback hmem hcallback => ?_
              obtain ⟨_, -, rfl⟩ := mem_sendRequest hmem
              cases (of_decide_eq_true hcallback).2.2
            rw [hnone, Nat.zero_add]
            exact le_trans List.countP_le_length (length_confirmToPayee_le _ _ _)
        · exact le_trans List.countP_le_length hfirst
  · exact Nat.zero_le 1

/-- A callback reports a step that the event announces. -/
theorem announces_of_mem {evt : Transfers.Message} {callback : CallbackRequest}
    (h : callback ∈ (A.processPoCMessage sends evt).sent)
    (hcallback : isCallback id method fromSwitch callback = true) :
    announces id (A.reported method) (.transferEvt evt) = true := by
  obtain ⟨rfl, rfl, -⟩ := of_decide_eq_true hcallback
  cases evt with
  | transferPreparedEvt payload =>
    have hposts := mem_notifyPrepared h
    rw [reported, if_pos hposts.method, hposts.id]
    exact decide_eq_true rfl
  | transferFulfilledEvt payload =>
    have hputs : A.PutsFulfilment payload payload.payerEndPoints callback ∨
        A.PutsFulfilment payload payload.payeeEndPoints callback := by
      rcases mem_notifyFulfilled h with hputs | hconfirms
      · exact Or.inl hputs.toPutsFulfilment
      · exact Or.inr hconfirms.toPutsFulfilment
    obtain ⟨hid, hmethod⟩ : callback.id = payload.terms.transferId ∧ callback.method = A.put := by
      rcases hputs with hputs | hputs <;> exact ⟨hputs.id, hputs.method⟩
    rw [reported, hmethod, if_neg A.post_ne_put.symm, hid]
    exact decide_eq_true rfl
  | _ => cases h

/-- An event leads to one callback of a kind at most. -/
theorem countP_processPoCMessage_le (evt : Transfers.Message) :
    (A.processPoCMessage sends evt).sent.countP (isCallback id method fromSwitch) ≤
      if announces id (A.reported method) (.transferEvt evt) then 1 else 0 := by
  by_cases hzero : (A.processPoCMessage sends evt).sent.countP (isCallback id method fromSwitch) = 0
  · rw [hzero]
    exact Nat.zero_le _
  · obtain ⟨callback, hmem, hcallback⟩ := List.countP_pos_iff.mp (Nat.pos_of_ne_zero hzero)
    rw [if_pos (announces_of_mem hmem hcallback)]
    cases evt with
    | transferPreparedEvt payload =>
      exact le_trans List.countP_le_length (length_notifyPrepared_le payload)
    | transferFulfilledEvt payload => exact countP_notifyFulfilled_le payload
    | _ => exact Nat.zero_le 1

end Adapter

namespace Gateway

/-- The event a label hands to the notification handler. -/
def notified : GatewayLabel → Option Transfers.Message
  | .notify evt _ => some evt
  | _ => none

/-- The notification of a message that is an event of the transfers. -/
def notification : Switch.DomainMessage → Option GatewayLabel
  | .transferEvt evt => some (.notify evt fun _ => true)
  | _ => none

theorem mem_notifications {msgs : List Switch.DomainMessage} {l : GatewayLabel}
    (h : l ∈ msgs.filterMap notification) : ∃ evt, l = .notify evt fun _ => true := by
  obtain ⟨m, -, hm⟩ := List.mem_filterMap.mp h
  cases m with
  | transferEvt evt => exact ⟨evt, (Option.some.inj hm).symm⟩
  | _ => cases hm

/-- No event that reports a step of a transfer is handed over twice. -/
def NotifiedOnce (labels : List GatewayLabel) : Prop :=
  ((labels.filterMap notified).filter fun evt => evt.milestone.isSome).Nodup

/-- No call of the switch fails. -/
def NoFaults (labels : List GatewayLabel) : Prop :=
  ∀ msg f, .deliver msg f ∈ labels → f = Faults.none

/-- What has been announced is what the transfers have behind them. -/
structure OnRecord (s : Network) : Prop where
  wellKept : WellKept s.stores
  announced : ∀ id state, s.net.countP (announces id state) = (s.stores.passedBy id).count state

section Run

variable (B : BigNumber) (C : Crypto) (A : Api) (partitioner : String → Nat)

theorem OnRecord.start (partitioner : String → Nat) : OnRecord (Network.start partitioner) where
  wellKept := Switch.wellKept_start partitioner
  announced _ _ := rfl

theorem OnRecord.step {s : Network} (h : OnRecord s) {a : Switch.Action}
    (ha : ∀ msg f, a = .deliver msg f → f = Faults.none) : OnRecord (Network.step B C s a) := by
  cases a with
  | receive input =>
    refine { wellKept := h.wellKept, announced := fun id state => ?_ }
    change (s.net ++ [input.message]).countP _ = _
    rw [List.countP_append, h.announced, List.countP_singleton,
      if_neg (by cases input <;> exact Bool.false_ne_true)]
    rfl
  | deliver msg f =>
    obtain rfl := ha msg f rfl
    rw [Network.step]
    split
    · refine { wellKept := h.wellKept.react B C Faults.none msg, announced := fun id state => ?_ }
      change (s.net ++ _).countP _ = _
      rw [List.countP_append, h.announced]
      exact (Switch.react_announcements h.wellKept id state).symm
    · exact h

theorem onRecord_run {labels : List GatewayLabel} (h : NoFaults labels) :
    OnRecord (run B C A partitioner labels).network := by
  refine Machine.run_invariant (P := fun _ l => l ∈ labels)
    (I := fun s : Gateway => OnRecord s.network) (fun s l hs hl => ?_) (OnRecord.start partitioner)
    (Machine.along_of_forall (fun _ _ hl => hl) _ fun _ hl => hl)
  have hact : ∀ l ∈ labels, OnRecord
      (((action A l).map (Network.step B C s.network)).getD s.network) := by
    intro l hl
    cases hact : action A l with
    | none => exact hs
    | some a =>
      refine hs.step B C fun msg f ha => ?_
      subst ha
      cases l with
      | deliver msg' f' =>
        cases hact
        exact h msg f hl
      | putTransfers request now =>
        rw [action] at hact
        split at hact <;> cases hact
      | _ => cases hact
  cases l with
  | notify evt sends =>
    rw [step]
    split <;> exact hs
  | _ => exact hact _ hl

/-- The network only grows. -/
theorem subset_net_step (s : Gateway) (l : GatewayLabel) :
    s.network.net ⊆ (step B C A s l).network.net := by
  have hact : s.network.net ⊆
      (((action A l).map (Network.step B C s.network)).getD s.network).net := by
    cases action A l with
    | none => exact List.Subset.refl _
    | some a =>
      change s.network.net ⊆ (Network.step B C s.network a).net
      cases a with
      | receive input => exact List.subset_append_left _ _
      | deliver msg f =>
        rw [Network.step]
        split
        · exact List.subset_append_left _ _
        · exact List.Subset.refl _
  cases l with
  | notify evt sends =>
    rw [step]
    split <;> exact List.Subset.refl _
  | _ => exact hact

/-- Every callback is for a notified event that has been announced. -/
theorem exists_told (labels : List GatewayLabel) :
    ∃ told, List.Sublist told (labels.filterMap notified) ∧
      (∀ evt ∈ told, .transferEvt evt ∈ (run B C A partitioner labels).network.net) ∧
      ∀ id method fromSwitch,
        (run B C A partitioner labels).sent.countP (isCallback id method fromSwitch) ≤
          told.countP fun evt => announces id (A.reported method) (.transferEvt evt) := by
  induction labels using List.reverseRecOn with
  | nil =>
    exact ⟨[], List.Sublist.refl _, fun _ h => absurd h List.not_mem_nil, fun _ _ _ => Nat.le_refl 0⟩
  | append_singleton labels l ih =>
    obtain ⟨told, hsub, hnet, hcount⟩ := ih
    rw [run, Machine.run_append, List.filterMap_append]
    change ∃ told, _ ∧ (∀ evt ∈ told, _ ∈ (step B C A (run B C A partitioner labels) l).network.net) ∧
      ∀ id method fromSwitch, (step B C A (run B C A partitioner labels) l).sent.countP _ ≤ _
    have hgrow : ∀ evt ∈ told,
        .transferEvt evt ∈ (step B C A (run B C A partitioner labels) l).network.net :=
      fun evt hevt => subset_net_step B C A _ l (hnet evt hevt)
    cases l with
    | notify evt sends =>
      by_cases hmem : .transferEvt evt ∈ (run B C A partitioner labels).network.net
      · refine ⟨told ++ [evt], hsub.append (List.Sublist.refl [evt]), fun e he => ?_,
          fun id method fromSwitch => ?_⟩
        · rcases List.mem_append.mp he with he | he
          · exact hgrow e he
          · obtain rfl := List.mem_singleton.mp he
            exact subset_net_step B C A _ _ hmem
        · rw [step, if_pos hmem, List.countP_append, List.countP_append, List.countP_singleton]
          exact Nat.add_le_add (hcount id method fromSwitch) (Adapter.countP_processPoCMessage_le evt)
      · refine ⟨told, hsub.trans (List.sublist_append_left _ _), hgrow, ?_⟩
        rw [step, if_neg hmem]
        exact hcount
    | _ => exact ⟨told, hsub.trans (List.sublist_append_left _ _), hgrow, hcount⟩

/-- A transfer has no more callbacks of a kind than steps behind it that they report. -/
theorem countP_sent_le {labels : List GatewayLabel} (hfaults : NoFaults labels)
    (honce : NotifiedOnce labels) (id method : String) (fromSwitch : Bool) :
    (run B C A partitioner labels).sent.countP (isCallback id method fromSwitch) ≤
      ((run B C A partitioner labels).network.stores.passedBy id).count (A.reported method) := by
  obtain ⟨told, hsub, hnet, hcount⟩ := exists_told B C A partitioner labels
  have hrecord := onRecord_run B C A partitioner hfaults
  refine le_trans (hcount id method fromSwitch) ?_
  rw [← hrecord.announced id (A.reported method), List.countP_eq_length_filter]
  -- an event that reports the step is one of those that are handed over once
  have hreports : ∀ evt ∈ told.filter fun evt =>
      announces id (A.reported method) (.transferEvt evt), evt.milestone.isSome = true := by
    intro evt hevt
    have hmilestone : evt.milestone = some (id, A.reported method) :=
      of_decide_eq_true (List.mem_filter.mp hevt).2
    rw [hmilestone]
    rfl
  have hnodup : (told.filter fun evt =>
      announces id (A.reported method) (.transferEvt evt)).Nodup := by
    rw [← List.filter_eq_self.mpr hreports]
    exact List.Nodup.sublist ((List.filter_sublist.trans hsub).filter _) honce
  have hsubset : (told.filter fun evt => announces id (A.reported method) (.transferEvt evt)).map
      Switch.DomainMessage.transferEvt ⊆ (run B C A partitioner labels).network.net.filter
        (announces id (A.reported method)) := by
    intro m hm
    obtain ⟨evt, hevt, rfl⟩ := List.mem_map.mp hm
    obtain ⟨hmem, hannounces⟩ := List.mem_filter.mp hevt
    exact List.mem_filter.mpr ⟨hnet evt hmem, hannounces⟩
  have hle := ((hnodup.map fun a b h => Switch.DomainMessage.transferEvt.inj h).subperm
    hsubset).length_le
  rwa [List.length_map, ← List.countP_eq_length_filter (l := (run B C A _ _).network.net)] at hle

end Run

/-- As long as no call of the switch fails and no event about a step of a transfer is notified
twice, every kind of callback is sent at most once for a transfer, and the fulfilment goes out
only where the prepared transfer has been announced. -/
theorem callbacks_once (B : BigNumber) (C : Crypto) (A : Api) (partitioner : String → Nat)
    (labels : List GatewayLabel) (hfaults : NoFaults labels)
    (honce : NotifiedOnce labels) (id : String) :
    (∀ method fromSwitch,
        (run B C A partitioner labels).sent.countP (isCallback id method fromSwitch) ≤ 1) ∧
      ((∃ callback ∈ (run B C A partitioner labels).sent,
          callback.id = id ∧ callback.method = A.put) →
        ∃ payload, .transferEvt (.transferPreparedEvt payload) ∈
            (run B C A partitioner labels).network.net ∧ payload.terms.transferId = id) := by
  have hrecord := onRecord_run B C A partitioner hfaults
  have hsent := fun method fromSwitch =>
    countP_sent_le B C A partitioner hfaults honce id method fromSwitch
  refine ⟨fun method fromSwitch => ?_, ?_⟩
  · exact le_trans (hsent method fromSwitch) (Switch.passed_count_le_one _ _)
  · rintro ⟨callback, hmem, hid, hmethod⟩
    have hpos : 0 < (run B C A partitioner labels).sent.countP
        (isCallback id A.put callback.fromSwitch) :=
      List.countP_pos_iff.mpr ⟨callback, hmem, decide_eq_true ⟨hid, hmethod, rfl⟩⟩
    have hcommitted : 0 < ((run B C A partitioner labels).network.stores.passedBy id).count
        .committed := by
      have hle := hsent A.put callback.fromSwitch
      rw [Adapter.reported, if_neg A.post_ne_put.symm] at hle
      omega
    have hreserved : 0 < ((run B C A partitioner labels).network.stores.passedBy id).count
        .reserved := by
      rw [Switch.Stores.passedBy] at hcommitted ⊢
      generalize (Switch.Stores.transfer _ id).map _ = state at hcommitted ⊢
      cases state with
      | none => cases hcommitted
      | some state => cases state <;> revert hcommitted <;> decide
    rw [← hrecord.announced] at hreserved
    obtain ⟨m, hm, hannounces⟩ := List.countP_pos_iff.mp hreserved
    cases m with
    | transferEvt evt =>
      have hmilestone : evt.milestone = some (id, .reserved) := of_decide_eq_true hannounces
      cases evt with
      | transferPreparedEvt payload =>
        exact ⟨payload, hm, congrArg Prod.fst (Option.some.inj hmilestone)⟩
      | _ => cases hmilestone
    | _ => cases hannounces

/-! ## A small example -/

/-- The sample participant with both of its endpoints. -/
def sampleReachable (id : String) : Participants.ParticipantState :=
  { sampleParticipant id with
    endpoints := [sampleEndpoint id,
      { type := "FSPIOP_CALLBACK_URL_TRANSFER_PUT"
        value := "http://" ++ id ++ "/transfers/\x7b\x7bID\x7d\x7d" }] }

def sampleAnswer : FulfilRequest :=
  { headers := sampleRequest.headers, dataUri := sampleRequest.dataUri, id := "t1"
    fulfilment := "XoSz1cL0tljJSCp_VtIYmPNw-zFUgGfbUqf69AagUzY"
    completedTimestamp := "2020-06-29T12:00:00.000Z", transferState := "COMMITTED" }

def sampleRun (labels : List GatewayLabel) : Gateway :=
  run Participants.wholeNumbers Transfers.TransfersAgg.sampleCrypto sampleApi (fun _ => 0) labels

/-- Every message from the `n`th on is delivered once, in the order of their publication. -/
def sampleDeliveries : Nat → Nat → Gateway → List GatewayLabel
  | 0, _, _ => []
  | k + 1, n, s =>
    match s.network.net[n]? with
    | none => []
    | some msg =>
      .deliver msg Faults.none :: sampleDeliveries k (n + 1)
        (step Participants.wholeNumbers Transfers.TransfersAgg.sampleCrypto sampleApi s
          (.deliver msg Faults.none))

def sampleOpening : List GatewayLabel :=
  [.createParticipant (sampleReachable "blue"), .createParticipant (sampleReachable "green"),
    .postTransfers sampleRequest]

/-- A transfer until it is reserved, and its fulfilment. -/
def sampleAnswered : List GatewayLabel :=
  sampleOpening ++ sampleDeliveries 16 0 (sampleRun sampleOpening) ++
    [.putTransfers sampleAnswer 1593432000000]

/-- A transfer until it is committed. -/
def sampleCommitted : List GatewayLabel :=
  sampleAnswered ++ sampleDeliveries 10 16 (sampleRun sampleAnswered)

/-- The command to prepare the transfer comes twice more. -/
def sampleRepeated : List GatewayLabel :=
  sampleCommitted ++ List.replicate 2
    (.deliver (.transferCmd (.prepareTransferCmd (sampleApi.prepare sampleRequest))) Faults.none)

/-- Every event of the transfer is handed over, and so are the two equal ones about the duplicate. -/
def sampleNotified : List GatewayLabel :=
  sampleRepeated ++ (sampleRun sampleRepeated).network.net.filterMap notification

theorem mem_sampleDeliveries {k n : Nat} {s : Gateway} {l : GatewayLabel}
    (h : l ∈ sampleDeliveries k n s) : ∃ msg, l = .deliver msg Faults.none := by
  induction k generalizing n s with
  | zero => cases h
  | succ k ih =>
    unfold sampleDeliveries at h
    split at h
    · cases h
    · rcases List.mem_cons.mp h with rfl | h
      · exact ⟨_, rfl⟩
      · exact ih h

theorem mem_sampleNotified {l : GatewayLabel} (h : l ∈ sampleNotified) :
    l = .createParticipant (sampleReachable "blue") ∨
      l = .createParticipant (sampleReachable "green") ∨ l = .postTransfers sampleRequest ∨
      l = .putTransfers sampleAnswer 1593432000000 ∨ (∃ msg, l = .deliver msg Faults.none) ∨
      ∃ evt, l = .notify evt fun _ => true := by
  have hdelivered : ∀ k n s, l ∈ sampleDeliveries k n s → ∃ msg, l = .deliver msg Faults.none :=
    fun _ _ _ => mem_sampleDeliveries
  have htold : l ∈ (sampleRun sampleRepeated).network.net.filterMap notification →
      ∃ evt, l = .notify evt fun _ => true := mem_notifications
  simp only [sampleNotified, sampleRepeated, sampleCommitted, sampleAnswered, sampleOpening,
    List.mem_append, List.mem_cons, List.mem_replicate, List.not_mem_nil, or_false] at h htold ⊢
  grind

theorem sampleNotified_noFaults : NoFaults sampleNotified := by
  intro msg f h
  rcases mem_sampleNotified h with h | h | h | h | ⟨_, h⟩ | ⟨_, h⟩ <;> cases h
  rfl

theorem sampleNotified_once : NotifiedOnce sampleNotified := by
  rw [NotifiedOnce]
  decide +kernel

theorem callbacks_once_sample :
    (∀ method fromSwitch, (run Participants.wholeNumbers Transfers.TransfersAgg.sampleCrypto
        sampleApi (fun _ => 0) sampleNotified).sent.countP (isCallback "t1" method fromSwitch) ≤ 1) ∧
      ((∃ callback ∈ (run Participants.wholeNumbers Transfers.TransfersAgg.sampleCrypto sampleApi
          (fun _ => 0) sampleNotified).sent,
          callback.id = "t1" ∧ callback.method = sampleApi.put) →
        ∃ payload, .transferEvt (.transferPreparedEvt payload) ∈
          (run Participants.wholeNumbers Transfers.TransfersAgg.sampleCrypto sampleApi (fun _ => 0)
            sampleNotified).network.net ∧ payload.terms.transferId = "t1") :=
  callbacks_once Participants.wholeNumbers Transfers.TransfersAgg.sampleCrypto sampleApi (fun _ => 0)
    sampleNotified sampleNotified_noFaults sampleNotified_once "t1"

example : ¬ (sampleNotified.filterMap notified).Nodup := by decide +kernel

end Gateway

end MlApiAdapter
end PocArchitecture
