/-
No callback is forgotten.

`Once` bounds the callbacks from above.  Here the participants have their endpoints, the raw
requests can be decoded, every request to a participant is answered, and every event of the
switch gets to the notification handler.  Then the bound is reached, and the callbacks for a
transfer are exactly those that are due: one from its payer to its payee once its funds are
reserved, and one from its payee to its payer, and where this is configured one from the switch
to its payee, once it is committed.
-/
import PocArchitecture.MlApiAdapter.Once

namespace PocArchitecture
namespace MlApiAdapter

open PublicMessages Infrastructure
open Participants (BigNumber)
open Switch (Announced Faults Network Registered Routed Sourced Traceable announces)
open Transfers (Crypto TransferFulfilledEvtPayload TransferInternalStates
  TransferPreparedEvtPayload)

/-- The kind of a callback, and its two parties. -/
structure Call where
  method : String
  source : String
  destination : String
  fromSwitch : Bool
  deriving DecidableEq

def CallbackRequest.call (callback : CallbackRequest) : Call :=
  { method := callback.method, source := callback.source, destination := callback.destination
    fromSwitch := callback.fromSwitch }

namespace Adapter

/-- The template of a URL ends in the path of a resource, also without the id of the transfer. -/
def HasResource (A : Adapter) (endpointTemplate : String) : Prop :=
  (resourceUri (A.render endpointTemplate [("ID", none), ("fsp", none)])).isSome = true

def HasEndpoint (endpoints : List ParticipantEndpoint) (type : String) : Prop :=
  (endpoints.find? (·.type == type)).isSome = true

/-- What is to be sent when the transfer with these terms has taken a step. -/
def due (A : Adapter) (terms : TransferTerms) : TransferInternalStates → List Call
  | .reserved =>
    [{ method := A.post, source := terms.payerId, destination := terms.payeeId
       fromSwitch := false }]
  | .committed =>
    { method := A.put, source := terms.payeeId, destination := terms.payerId
      fromSwitch := false } ::
      if A.sendTransferConfirmationToPayee then
        [{ method := A.put, source := A.switch, destination := terms.payeeId, fromSwitch := true }]
      else []
  | _ => []

/-- All that can become due for these terms. -/
def everDue (A : Adapter) (terms : TransferTerms) : List Call :=
  A.due terms .reserved ++ A.due terms .committed

/-- What is to be sent for the transfer with this id, for all steps it has behind it. -/
def dueFor (A : Adapter) (stores : Switch.Stores) (id : String) : List Call :=
  match stores.transfer id with
  | none => []
  | some t => (Transfers.passed (some t.transferInternalState)).flatMap (A.due t.terms)

section Sends

variable {A : Adapter} {sends : CallbackRequest → Bool}

theorem sendRequest_sent {endpointTemplate : String} (h : A.HasResource endpointTemplate)
    (hsends : ∀ callback, sends callback = true) (id destination source : String)
    (headers : Headers) (payload callbackURL method : String) (fromSwitch : Bool) :
    ∃ callback, A.sendRequest sends id destination source headers payload callbackURL method
        endpointTemplate fromSwitch = { sent := [callback], error := none } ∧
      isCallback id method fromSwitch callback = true := by
  obtain ⟨uri, huri⟩ := Option.isSome_iff_exists.mp h
  have hcreated : A.createCallbackHeaders
      { headers := headers, httpMethod := method, endpointTemplate := endpointTemplate
        transferId := none, dfspId := none } =
      some (assign A.fspiopUri uri (assign A.fspiopHttpMethod method headers)) := by
    show (resourceUri (A.render endpointTemplate [("ID", none), ("fsp", none)])).map _ = _
    rw [huri]
    rfl
  rw [sendRequest, hcreated]
  dsimp only
  rw [hsends, if_pos rfl]
  exact ⟨_, rfl, decide_eq_true ⟨rfl, rfl, rfl⟩⟩

theorem exists_getEndpoint (A : Adapter) {endpoints : List ParticipantEndpoint} {type : String}
    (h : HasEndpoint endpoints type) (transferId : String) :
    ∃ endpoint, A.getEndpoint endpoints type transferId = some endpoint := by
  obtain ⟨endpoint, hendpoint⟩ := Option.isSome_iff_exists.mp h
  rw [getEndpoint, hendpoint]
  exact ⟨_, rfl⟩

theorem exists_post {payload : TransferPreparedEvtPayload} {headers : Headers}
    {rawPayload : String}
    (hprepare : payload.prepare = { headers := some headers, payload := some rawPayload })
    (hprocessed : (A.processPayload rawPayload).isSome = true)
    (hendpoint : HasEndpoint payload.payeeEndPoints A.fspiopCallbackUrlTransferPost)
    (htemplate : A.HasResource A.transfersPost) (hsends : ∀ callback, sends callback = true) :
    ∃ callback ∈ (A.notifyPrepared sends payload).sent,
      isCallback payload.terms.transferId A.post false callback = true := by
  obtain ⟨text, htext⟩ := Option.isSome_iff_exists.mp hprocessed
  obtain ⟨endpoint, hget⟩ := exists_getEndpoint A hendpoint payload.terms.transferId
  obtain ⟨callback, hsent, hcallback⟩ := sendRequest_sent htemplate hsends
    payload.terms.transferId payload.terms.payeeId payload.terms.payerId headers text
    endpoint.value A.post false
  refine ⟨callback, ?_, hcallback⟩
  rw [notifyPrepared, hprepare]
  dsimp only
  rw [hget]
  dsimp only
  rw [htext]
  dsimp only
  rw [hsent]
  exact List.mem_cons_self

theorem exists_put {payload : TransferFulfilledEvtPayload} {headers : Headers}
    {rawPayload : String}
    (hfulfil : payload.fulfil = some { headers := some headers, payload := some rawPayload })
    (hprocessed : (A.processPayload rawPayload).isSome = true)
    (hpayer : HasEndpoint payload.payerEndPoints A.fspiopCallbackUrlTransferPut)
    (hpayee : HasEndpoint payload.payeeEndPoints A.fspiopCallbackUrlTransferPut)
    (htemplate : A.HasResource A.transfersPut) (hsends : ∀ callback, sends callback = true)
    {fromSwitch : Bool}
    (hswitch : fromSwitch = true → A.sendTransferConfirmationToPayee = true) :
    ∃ callback ∈ (A.notifyFulfilled sends payload).sent,
      isCallback payload.terms.transferId A.put fromSwitch callback = true := by
  obtain ⟨text, htext⟩ := Option.isSome_iff_exists.mp hprocessed
  obtain ⟨payerEndPoint, hgetPayer⟩ := exists_getEndpoint A hpayer payload.terms.transferId
  obtain ⟨payeeEndPoint, hgetPayee⟩ := exists_getEndpoint A hpayee payload.terms.transferId
  obtain ⟨first, hfirst, hfirst'⟩ := sendRequest_sent htemplate hsends
    payload.terms.transferId payload.terms.payerId payload.terms.payeeId headers text
    payerEndPoint.value A.put false
  obtain ⟨second, hsecond, hsecond'⟩ := sendRequest_sent htemplate hsends
    payload.terms.transferId payload.terms.payeeId A.switch headers text payeeEndPoint.value
    A.put true
  rw [notifyFulfilled, hfulfil]
  dsimp only [Option.bind_some]
  rw [hgetPayer]
  dsimp only
  rw [htext]
  dsimp only
  rw [hfirst, confirmToPayee, hgetPayee]
  dsimp only
  rw [hsecond]
  cases fromSwitch with
  | false =>
    refine ⟨first, ?_, hfirst'⟩
    split
    · exact List.mem_append_left _ List.mem_cons_self
    · exact List.mem_cons_self
  | true =>
    refine ⟨second, ?_, hsecond'⟩
    rw [if_pos ⟨rfl, hswitch rfl⟩]
    exact List.mem_append_right _ List.mem_cons_self

end Sends

end Adapter

namespace Gateway

/-- Everyone can be reached, every raw request can be decoded, and the handler is answered. -/
structure Reachable (A : Api) (labels : List GatewayLabel) : Prop where
  endpoints : ∀ participant, .createParticipant participant ∈ labels →
    Adapter.HasEndpoint participant.endpoints A.fspiopCallbackUrlTransferPost ∧
      Adapter.HasEndpoint participant.endpoints A.fspiopCallbackUrlTransferPut
  prepares : ∀ request, .postTransfers request ∈ labels →
    (A.processPayload request.dataUri).isSome = true
  fulfils : ∀ request now, .putTransfers request now ∈ labels →
    (A.processPayload request.dataUri).isSome = true
  answered : ∀ evt sends, .notify evt sends ∈ labels → ∀ callback, sends callback = true
  templates : A.HasResource A.transfersPost ∧ A.HasResource A.transfersPut

section Notified

variable {A : Api} {C : Crypto} {labels : List GatewayLabel} {s : Network}
  {sends : CallbackRequest → Bool} {id : String}

theorem Reachable.registered (h : Reachable A labels) (hout : FromOutside A labels s.net)
    {endpoints : List ParticipantEndpoint} (hregistered : Registered s.net id endpoints) :
    Adapter.HasEndpoint endpoints A.fspiopCallbackUrlTransferPost ∧
      Adapter.HasEndpoint endpoints A.fspiopCallbackUrlTransferPut := by
  obtain ⟨participant, hmem, -, rfl⟩ := hregistered
  exact h.endpoints participant (hout.participants participant hmem)

/-- An event of the switch about a step that is reported leads to the callback. -/
theorem exists_callback (h : Reachable A labels) (htraceable : Traceable C s)
    (hout : FromOutside A labels s.net) (hsends : ∀ callback, sends callback = true)
    {evt : Transfers.Message} (hmem : .transferEvt evt ∈ s.net) {method : String}
    {fromSwitch : Bool}
    (hmethod : method = A.post ∧ fromSwitch = false ∨
      method = A.put ∧ (fromSwitch = true → A.sendTransferConfirmationToPayee = true))
    (hevt : announces id (A.reported method) (.transferEvt evt) = true) :
    ∃ callback ∈ (A.processPoCMessage sends evt).sent,
      isCallback id method fromSwitch callback = true := by
  have hmilestone : evt.milestone = some (id, A.reported method) := of_decide_eq_true hevt
  rcases hmethod with ⟨rfl, rfl⟩ | ⟨rfl, hswitch⟩
  · rw [Adapter.reported, if_pos rfl] at hmilestone
    cases evt with
    | transferPreparedEvt payload =>
      obtain rfl := congrArg Prod.fst (Option.some.inj hmilestone)
      obtain ⟨t, ht, hterms, hprepare, hrouted⟩ := htraceable.traced _ hmem
      obtain ⟨_, hrequested, hdata⟩ := ht.requested
      obtain ⟨request, hlabel, rfl⟩ := hout.prepares _ hrequested
      obtain ⟨-, -, hraw⟩ := prepareData_prepare hdata
      have hpayee := (registered_of_routed htraceable ht hrouted).2
      exact Adapter.exists_post (hprepare.trans hraw) (h.prepares request hlabel)
        (h.registered hout hpayee).1 h.templates.1 hsends
    | _ => cases hmilestone
  · rw [Adapter.reported, if_neg A.post_ne_put.symm] at hmilestone
    cases evt with
    | transferFulfilledEvt payload =>
      obtain rfl := congrArg Prod.fst (Option.some.inj hmilestone)
      obtain ⟨t, ht, hfulfil, hterms, hraw, hrouted⟩ := htraceable.traced _ hmem
      obtain ⟨_, hrequested, -, -, hcopy⟩ := hfulfil
      obtain ⟨request, now, hlabel, -, rfl⟩ := hout.fulfils _ hrequested
      obtain ⟨hpayer, hpayee⟩ := registered_of_routed htraceable ht hrouted
      have hcarried : payload.fulfil =
          some { headers := some request.headers, payload := some request.dataUri } := by
        rw [hraw, hcopy]
        change some ({ headers := some (A.createMessageFromRequest _ _ _ _ _).headers
                       payload := some (A.createMessageFromRequest _ _ _ _ _).payload } :
          TransferRawPayload) = _
        rw [A.createMessage_headers, A.createMessage_payload]
      exact Adapter.exists_put hcarried (h.fulfils request now hlabel)
        (h.registered hout hpayer).2 (h.registered hout hpayee).2 h.templates.2 hsends hswitch
    | _ => cases hmilestone

end Notified

theorem Reachable.mono {A : Api} {labels more : List GatewayLabel} (h : Reachable A more)
    (hsub : labels ⊆ more) : Reachable A labels where
  endpoints participant hmem := h.endpoints participant (hsub hmem)
  prepares request hmem := h.prepares request (hsub hmem)
  fulfils request now hmem := h.fulfils request now (hsub hmem)
  answered evt sends hmem := h.answered evt sends (hsub hmem)
  templates := h.templates

section Run

variable (B : BigNumber) (C : Crypto) (A : Api) (partitioner : String → Nat)

/-- Every event that reports a step of a transfer has been handed to the notification handler
since it was published. -/
def AllNotified (labels : List GatewayLabel) : Prop :=
  ∀ evt, evt.milestone.isSome = true →
    .transferEvt evt ∈ (run B C A partitioner labels).network.net →
    ∃ n, labels[n]?.bind notified = some evt ∧
      .transferEvt evt ∈ (run B C A partitioner (labels.take n)).network.net

/-- No request to a participant is taken back. -/
theorem mem_sent_run {s : Gateway} {callback : CallbackRequest} (h : callback ∈ s.sent)
    (labels : List GatewayLabel) : callback ∈ (Machine.run (step B C A) s labels).sent := by
  refine Machine.run_always (I := fun s : Gateway => callback ∈ s.sent) (fun s l hs => ?_) h labels
  cases l with
  | notify evt sends =>
    rw [step]
    split
    · exact List.mem_append_left _ hs
    · exact hs
  | _ => exact hs

/-- What a notification leads to in the middle of a run is there at its end. -/
theorem mem_sent_of_notified {before after : List GatewayLabel} {evt : Transfers.Message}
    {sends : CallbackRequest → Bool}
    (hmem : .transferEvt evt ∈ (run B C A partitioner before).network.net)
    {callback : CallbackRequest} (h : callback ∈ (A.processPoCMessage sends evt).sent) :
    callback ∈ (run B C A partitioner (before ++ .notify evt sends :: after)).sent := by
  rw [run, Machine.run_append]
  have hsent : callback ∈
      (step B C A (run B C A partitioner before) (.notify evt sends)).sent := by
    rw [step, if_pos hmem]
    exact List.mem_append_right _ h
  exact mem_sent_run B C A hsent after

/-- The switch does not see the notifications. -/
theorem network_notifications (s : Gateway) {labels : List GatewayLabel}
    (h : ∀ l ∈ labels, ∃ evt, l = .notify evt fun _ => true) :
    (Machine.run (step B C A) s labels).network = s.network := by
  refine Machine.run_invariant (P := fun _ l => ∃ evt, l = .notify evt fun _ => true)
    (I := fun s' : Gateway => s'.network = s.network) (fun s' l hs' hl => ?_) rfl
    (Machine.along_of_forall (fun _ _ hl => hl) _ h)
  obtain ⟨evt, rfl⟩ := hl
  rw [step]
  split <;> exact hs'

/-- It is enough to hand over all events at the end. -/
theorem allNotified_notifications (labels : List GatewayLabel) :
    AllNotified B C A partitioner
      (labels ++ (run B C A partitioner labels).network.net.filterMap notification) := by
  intro evt _ hmem
  have hsame : ∀ n, (run B C A partitioner (labels ++
      ((run B C A partitioner labels).network.net.filterMap notification).take n)).network =
      (run B C A partitioner labels).network := by
    intro n
    rw [run, Machine.run_append]
    exact network_notifications B C A _ fun l hl => mem_notifications (List.mem_of_mem_take hl)
  have hall := hsame ((run B C A partitioner labels).network.net.filterMap notification).length
  rw [List.take_length] at hall
  rw [hall] at hmem
  have htold : GatewayLabel.notify evt (fun _ => true) ∈
      (run B C A partitioner labels).network.net.filterMap notification :=
    List.mem_filterMap.mpr ⟨_, hmem, rfl⟩
  obtain ⟨i, hi, hget⟩ := List.mem_iff_getElem.mp htold
  refine ⟨labels.length + i, ?_, ?_⟩
  · rw [List.getElem?_append_right (Nat.le_add_right _ _), Nat.add_sub_cancel_left,
      List.getElem?_eq_getElem hi, hget]
    rfl
  · rw [List.take_length_add_append, hsame]
    exact hmem

variable {B C A partitioner} {labels : List GatewayLabel}

/-- A step that has been announced has its callback. -/
theorem exists_sent (hreachable : Reachable A labels)
    (hnotified : AllNotified B C A partitioner labels) {evt : Transfers.Message}
    (hmem : .transferEvt evt ∈ (run B C A partitioner labels).network.net)
    {id method : String} {fromSwitch : Bool}
    (hmethod : method = A.post ∧ fromSwitch = false ∨
      method = A.put ∧ (fromSwitch = true → A.sendTransferConfirmationToPayee = true))
    (hevt : announces id (A.reported method) (.transferEvt evt) = true) :
    ∃ callback ∈ (run B C A partitioner labels).sent,
      isCallback id method fromSwitch callback = true := by
  have hmilestone : evt.milestone = some (id, A.reported method) := of_decide_eq_true hevt
  obtain ⟨n, hlabel, hthere⟩ := hnotified evt (by rw [hmilestone]; rfl) hmem
  obtain ⟨l, hl, hevent⟩ := Option.bind_eq_some_iff.mp hlabel
  obtain ⟨hn, hget⟩ := List.getElem?_eq_some_iff.mp hl
  cases l with
  | notify evt' sends =>
    obtain rfl := Option.some.inj hevent
    have hsplit : labels = labels.take n ++ .notify evt' sends :: labels.drop (n + 1) := by
      rw [← hget, ← List.drop_eq_getElem_cons hn, List.take_append_drop]
    have hsound := sound_run B C A partitioner (labels.take n)
    have hsends := hreachable.answered evt' sends (hget ▸ List.getElem_mem hn)
    obtain ⟨callback, hsent, hcallback⟩ :=
      exists_callback (hreachable.mono (List.take_subset n labels)) hsound.traceable
        hsound.outside hsends hthere hmethod hevt
    refine ⟨callback, ?_, hcallback⟩
    rw [hsplit]
    exact mem_sent_of_notified B C A partitioner hthere hsent
  | _ => cases hevent

/-- The bound of `countP_sent_le` is reached. -/
theorem countP_sent_eq (hfaults : NoFaults labels) (honce : NotifiedOnce labels)
    (hreachable : Reachable A labels) (hnotified : AllNotified B C A partitioner labels)
    (id : String) {method : String}
    {fromSwitch : Bool}
    (hmethod : method = A.post ∧ fromSwitch = false ∨
      method = A.put ∧ (fromSwitch = true → A.sendTransferConfirmationToPayee = true)) :
    (run B C A partitioner labels).sent.countP (isCallback id method fromSwitch) =
      ((run B C A partitioner labels).network.stores.passedBy id).count (A.reported method) := by
  have hle := countP_sent_le B C A partitioner hfaults honce id method fromSwitch
  have hone : ((run B C A partitioner labels).network.stores.passedBy id).count
      (A.reported method) ≤ 1 := Switch.passed_count_le_one _ _
  by_cases hzero : ((run B C A partitioner labels).network.stores.passedBy id).count
      (A.reported method) = 0
  · omega
  · have hrecord := onRecord_run B C A partitioner hfaults
    rw [← hrecord.announced] at hzero
    obtain ⟨m, hm, hannounces⟩ := List.countP_pos_iff.mp (Nat.pos_of_ne_zero hzero)
    have hpos : 0 < (run B C A partitioner labels).sent.countP (isCallback id method fromSwitch) := by
      cases m with
      | transferEvt evt =>
        exact List.countP_pos_iff.mpr (exists_sent hreachable hnotified hm hmethod hannounces)
      | _ => cases hannounces
    omega

/-! ## To whom -/

/-- A callback for announced terms is one of those that can be due for them. -/
def Addressed (A : Adapter) (net : List Switch.DomainMessage) (callback : CallbackRequest) : Prop :=
  ∃ terms, Announced net terms ∧ terms.transferId = callback.id ∧
    callback.call ∈ A.everDue terms

theorem addressed_of_mem {s : Network} (h : Traceable C s) {evt : Transfers.Message}
    (hmem : .transferEvt evt ∈ s.net) {sends : CallbackRequest → Bool} {callback : CallbackRequest}
    (hsent : callback ∈ (A.processPoCMessage sends evt).sent) :
    Addressed A.toAdapter s.net callback := by
  cases evt with
  | transferPreparedEvt payload =>
    obtain ⟨t, ht, hterms, -⟩ := h.traced _ hmem
    have hposts := Adapter.mem_notifyPrepared hsent
    refine ⟨payload.terms, hterms ▸ ht.announced, hposts.id.symm, List.mem_append_left _ ?_⟩
    rw [CallbackRequest.call, hposts.method, hposts.source, hposts.destination, hposts.fromSwitch]
    exact List.mem_cons_self
  | transferFulfilledEvt payload =>
    obtain ⟨t, ht, -, hterms, -⟩ := h.traced _ hmem
    rcases Adapter.mem_notifyFulfilled hsent with hputs | hconfirms
    · refine ⟨payload.terms, hterms ▸ ht.announced, hputs.id.symm, List.mem_append_right _ ?_⟩
      rw [CallbackRequest.call, hputs.method, hputs.source, hputs.destination, hputs.fromSwitch]
      exact List.mem_cons_self
    · refine ⟨payload.terms, hterms ▸ ht.announced, hconfirms.id.symm,
        List.mem_append_right _ ?_⟩
      rw [CallbackRequest.call, hconfirms.method, hconfirms.source, hconfirms.destination,
        hconfirms.fromSwitch, Adapter.due, if_pos hconfirms.enabled]
      exact List.mem_cons_of_mem _ List.mem_cons_self
  | _ => cases hsent

variable (B C A partitioner) in
/-- Every callback is addressed to the parties of announced terms. -/
theorem addressed_run (labels : List GatewayLabel) :
    ∀ callback ∈ (run B C A partitioner labels).sent,
      Addressed A.toAdapter (run B C A partitioner labels).network.net callback := by
  induction labels using List.reverseRecOn with
  | nil => exact fun callback h => absurd h List.not_mem_nil
  | append_singleton labels l ih =>
    rw [run, Machine.run_append]
    change ∀ callback ∈ (step B C A (run B C A partitioner labels) l).sent,
      Addressed A.toAdapter (step B C A (run B C A partitioner labels) l).network.net callback
    have hgrow : ∀ callback ∈ (run B C A partitioner labels).sent,
        Addressed A.toAdapter (step B C A (run B C A partitioner labels) l).network.net
          callback := by
      intro callback hcallback
      obtain ⟨terms, hannounced, hrest⟩ := ih callback hcallback
      exact ⟨terms, subset_net_step B C A _ l hannounced, hrest⟩
    cases l with
    | notify evt sends =>
      by_cases hmem : .transferEvt evt ∈ (run B C A partitioner labels).network.net
      · rw [step, if_pos hmem] at hgrow ⊢
        intro callback hcallback
        rcases List.mem_append.mp hcallback with hcallback | hcallback
        · exact hgrow callback hcallback
        · exact addressed_of_mem (sound_run B C A partitioner labels).traceable hmem hcallback
      · rw [step, if_neg hmem]
        exact ih
    | _ => exact hgrow

/-- The calls for one transfer differ in method or sender. -/
theorem call_eq {A : Adapter} {terms : TransferTerms} {a b : Call}
    (ha : a ∈ A.everDue terms)
    (hb : b ∈ A.everDue terms) (hmethod : a.method = b.method)
    (hswitch : a.fromSwitch = b.fromSwitch) : a = b := by
  have hne := A.post_ne_put
  simp only [Adapter.everDue, Adapter.due, List.mem_append, List.mem_cons, List.not_mem_nil,
    or_false] at ha hb
  grind

/-- Those for one transfer are counted by their kind. -/
theorem count_call {A : Adapter} {terms : TransferTerms} {sent : List CallbackRequest} {id : String}
    (hsent : ∀ callback ∈ sent, callback.id = id →
      callback.call ∈ A.everDue terms)
    {a : Call} (ha : a ∈ A.everDue terms) :
    ((sent.filter fun callback => callback.id = id).map CallbackRequest.call).count a =
      sent.countP (isCallback id a.method a.fromSwitch) := by
  rw [List.count, List.countP_map, List.countP_filter]
  refine List.countP_congr fun callback hmem => ?_
  simp only [Function.comp_apply, Bool.and_eq_true, beq_iff_eq, decide_eq_true_eq, isCallback]
  constructor
  · rintro ⟨rfl, hid⟩
    exact ⟨hid, rfl, rfl⟩
  · rintro ⟨hid, hmethod, hswitch⟩
    exact ⟨call_eq (hsent callback hmem hid) ha hmethod hswitch, hid⟩

theorem mem_due {A : Adapter} {terms : TransferTerms} {state : TransferInternalStates} {a : Call}
    (h : a ∈ A.due terms state) : a ∈ A.everDue terms := by
  cases state with
  | reserved => exact List.mem_append_left _ h
  | committed => exact List.mem_append_right _ h
  | _ => cases h

theorem kind_of_mem_due {A : Adapter} {terms : TransferTerms} {a : Call}
    (h : a ∈ A.everDue terms) :
    a.method = A.post ∧ a.fromSwitch = false ∨
      a.method = A.put ∧ (a.fromSwitch = true → A.sendTransferConfirmationToPayee = true) := by
  simp only [Adapter.everDue, Adapter.due, List.mem_append, List.mem_cons, List.not_mem_nil,
    or_false] at h
  rcases h with rfl | rfl | h
  · exact Or.inl ⟨rfl, rfl⟩
  · exact Or.inr ⟨rfl, fun h => absurd h Bool.false_ne_true⟩
  · split at h
    · rename_i hsetting
      obtain rfl := List.mem_singleton.mp h
      exact Or.inr ⟨rfl, fun _ => hsetting⟩
    · cases h

/-- A call that can be due is due as often as the step it reports has been taken. -/
theorem count_due {A : Adapter} {terms : TransferTerms} {a : Call}
    (ha : a ∈ A.everDue terms) (state : TransferInternalStates) :
    ((Transfers.passed (some state)).flatMap (A.due terms)).count a =
      (Transfers.passed (some state)).count (A.reported a.method) := by
  have hne := A.post_ne_put
  have hput : A.reported A.put = .committed := if_neg hne.symm
  have hpost : A.reported A.post = .reserved := if_pos rfl
  simp only [Adapter.everDue, Adapter.due, List.mem_append, List.mem_cons, List.not_mem_nil,
    or_false] at ha
  rcases ha with rfl | rfl | ha
  · cases state <;> cases hsetting : A.sendTransferConfirmationToPayee <;>
      simp [Transfers.passed, Adapter.due, hpost, hsetting, hne.symm]
  · cases state <;> cases hsetting : A.sendTransferConfirmationToPayee <;>
      simp [Transfers.passed, Adapter.due, hput, hsetting, hne]
  · split at ha
    · rename_i hsetting
      obtain rfl := List.mem_singleton.mp ha
      cases state <;> simp [Transfers.passed, Adapter.due, hput, hsetting]
    · cases ha

end Run

/-- Where no call of the switch fails, everyone can be reached and every step of a transfer is
notified once, the callbacks for a transfer are those that are due for the steps it has behind
it, each of them once and no others. -/
theorem callbacks_complete (B : BigNumber) (C : Crypto) (A : Api) (partitioner : String → Nat)
    (labels : List GatewayLabel) (hfaults : NoFaults labels) (honce : NotifiedOnce labels)
    (hreachable : Reachable A labels) (hnotified : AllNotified B C A partitioner labels)
    (id : String) :
    (((run B C A partitioner labels).sent.filter fun callback => callback.id = id).map
        CallbackRequest.call).Perm
      (A.dueFor (run B C A partitioner labels).network.stores id) := by
  have htraceable := (sound_run B C A partitioner labels).traceable
  have hkinds : ∀ {terms : TransferTerms} {a : Call},
      a ∈ A.everDue terms →
      (run B C A partitioner labels).sent.countP (isCallback id a.method a.fromSwitch) =
        ((run B C A partitioner labels).network.stores.passedBy id).count (A.reported a.method) := by
    intro terms a ha
    exact countP_sent_eq hfaults honce hreachable hnotified id (kind_of_mem_due ha)
  rw [Adapter.dueFor]
  cases ht : (run B C A partitioner labels).network.stores.transfer id with
  | none =>
    -- nothing has been reported of this transfer
    rw [List.perm_nil, List.map_eq_nil_iff, List.filter_eq_nil_iff]
    intro callback hmem hid
    obtain ⟨terms, -, -, hcall⟩ := addressed_run B C A partitioner labels callback hmem
    have hzero := hkinds hcall
    rw [Switch.Stores.passedBy, ht] at hzero
    exact List.countP_eq_zero.mp hzero callback hmem
      (decide_eq_true ⟨of_decide_eq_true hid, rfl, rfl⟩)
  | some t =>
    have hterms : ∀ callback ∈ (run B C A partitioner labels).sent, callback.id = id →
        callback.call ∈ A.due t.terms .reserved ++ A.due t.terms .committed := by
      intro callback hmem hid
      obtain ⟨terms, hannounced, hsame, hcall⟩ := addressed_run B C A partitioner labels callback hmem
      have htid : t.id = id := htraceable.wellKept.transfers.view_id id t ht
      have hone := htraceable.one terms t.terms hannounced (htraceable.stored id t ht).announced
        (hsame.trans (hid.trans htid.symm))
      exact hone ▸ hcall
    refine List.perm_iff_count.mpr fun a => ?_
    dsimp only
    by_cases ha : a ∈ A.due t.terms .reserved ++ A.due t.terms .committed
    · rw [count_call hterms ha, hkinds ha, count_due ha, Switch.Stores.passedBy, ht]
      rfl
    · rw [List.count_eq_zero.mpr, List.count_eq_zero.mpr]
      · intro hdue
        obtain ⟨state, -, hstate⟩ := List.mem_flatMap.mp hdue
        exact ha (mem_due hstate)
      · intro hsent
        obtain ⟨callback, hmem, rfl⟩ := List.mem_map.mp hsent
        obtain ⟨hcallback, hid⟩ := List.mem_filter.mp hmem
        exact ha (hterms callback hcallback (of_decide_eq_true hid))

/-! ## A small example -/

theorem sampleReachable_endpoints (id : String) :
    Adapter.HasEndpoint (sampleReachable id).endpoints sampleApi.fspiopCallbackUrlTransferPost ∧
      Adapter.HasEndpoint (sampleReachable id).endpoints sampleApi.fspiopCallbackUrlTransferPut :=
  ⟨rfl, rfl⟩

theorem sampleNotified_reachable : Reachable sampleApi sampleNotified where
  endpoints participant h := by
    rcases mem_sampleNotified h with h | h | h | h | ⟨_, h⟩ | ⟨_, h⟩ <;> cases h
    · exact sampleReachable_endpoints "blue"
    · exact sampleReachable_endpoints "green"
  prepares request h := by
    rcases mem_sampleNotified h with h | h | h | h | ⟨_, h⟩ | ⟨_, h⟩ <;> cases h
    decide +kernel
  fulfils request now h := by
    rcases mem_sampleNotified h with h | h | h | h | ⟨_, h⟩ | ⟨_, h⟩ <;> cases h
    decide +kernel
  answered evt sends h callback := by
    rcases mem_sampleNotified h with h | h | h | h | ⟨_, h⟩ | ⟨_, h⟩ <;> cases h
    rfl
  templates := by
    constructor <;> rw [Adapter.HasResource] <;> decide +kernel

theorem sampleNotified_all : AllNotified Participants.wholeNumbers
    Transfers.TransfersAgg.sampleCrypto sampleApi (fun _ => 0) sampleNotified :=
  allNotified_notifications _ _ _ _ sampleRepeated

theorem callbacks_complete_sample :
    (((run Participants.wholeNumbers Transfers.TransfersAgg.sampleCrypto sampleApi (fun _ => 0)
        sampleNotified).sent.filter fun callback => callback.id = "t1").map
          CallbackRequest.call).Perm
      (sampleApi.dueFor (run Participants.wholeNumbers Transfers.TransfersAgg.sampleCrypto sampleApi
        (fun _ => 0) sampleNotified).network.stores "t1") :=
  callbacks_complete Participants.wholeNumbers Transfers.TransfersAgg.sampleCrypto sampleApi
    (fun _ => 0) sampleNotified sampleNotified_noFaults sampleNotified_once
    sampleNotified_reachable sampleNotified_all "t1"

example : sampleApi.dueFor (sampleRun sampleNotified).network.stores "t1" =
    [{ method := "POST", source := "blue", destination := "green", fromSwitch := false },
      { method := "PUT", source := "green", destination := "blue", fromSwitch := false },
      { method := "PUT", source := "switch", destination := "green", fromSwitch := true }] := by
  decide +kernel

end Gateway

end MlApiAdapter
end PocArchitecture
