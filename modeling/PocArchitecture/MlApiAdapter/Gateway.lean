/-
From a request of one participant to the callback to the other.

The API makes an event of a request and leaves the request itself, as a data URI, to travel
along.  The switch in between may fail in any way and see any message again.  Still every
callback says what some request said, to whom it was meant for, and a fulfilment is passed
on only where it meets the condition of the transfer.
-/
import PocArchitecture.MlApiAdapter.PoCMessage
import PocArchitecture.Switch.Provenance

namespace PocArchitecture
namespace MlApiAdapter

open PublicMessages Infrastructure
open Participants (BigNumber ParticipantState)
open Switch (Faults Input Network Registered Routed Sourced Traceable Traced)
open Transfers (Crypto FulfilTransferCmdPayload PrepareTransferCmdPayload TransferState)

structure MessageProtocol where
  id : String
  destination : Option String
  source : Option String
  headers : Headers
  payload : String

/-- The members of a request to prepare that the API reads. -/
structure PrepareRequest where
  headers : Headers
  dataUri : String
  transferId : String
  payerFsp : String
  payeeFsp : String
  amount : String
  currency : String
  expiration : String
  condition : String

/-- The members of a request to fulfil that the API reads; `id` is the one of its path. -/
structure FulfilRequest where
  headers : Headers
  dataUri : String
  id : String
  fulfilment : String
  completedTimestamp : String
  transferState : String

/-- `createMessageFromRequest` keeps the request, and `Date` reads a time stamp. -/
structure Api extends Adapter where
  createMessageFromRequest : String → Headers → String → Option String → Option String →
    MessageProtocol
  createMessage_id : ∀ id headers dataUri destination source,
    (createMessageFromRequest id headers dataUri destination source).id = id
  createMessage_headers : ∀ id headers dataUri destination source,
    (createMessageFromRequest id headers dataUri destination source).headers = headers
  createMessage_payload : ∀ id headers dataUri destination source,
    (createMessageFromRequest id headers dataUri destination source).payload = dataUri
  /-- `getTime`, where the text is a time -/
  getTime : String → Option Int
  maxFulfilTimeoutDurationSeconds : Nat
  maxCallbackTimeLagDilationMilliseconds : Nat
  /-- whether the debug line of the validator is written, which takes a time -/
  isDebugEnabled : Bool

namespace Api

variable (A : Api)

/-- `TransferService.prepare`, the event it publishes. -/
def prepare (request : PrepareRequest) : PrepareTransferCmdPayload :=
  let messageProtocol := A.createMessageFromRequest request.transferId request.headers
    request.dataUri (some request.payeeFsp) (some request.payerFsp)
  { transferId := request.transferId, payerId := request.payerFsp, payeeId := request.payeeFsp
    amount := request.amount, currency := request.currency, expiration := request.expiration
    condition := request.condition
    prepare := some
      { headers := some messageProtocol.headers, payload := some messageProtocol.payload } }

/-- `TransferService.fulfil`, the event it publishes.  The two participants are those of the
headers, and nothing reads them. -/
def fulfil (request : FulfilRequest) : FulfilTransferCmdPayload :=
  let messageProtocol := A.createMessageFromRequest request.id request.headers request.dataUri
    (request.headers.lookup A.fspiopDestination) (request.headers.lookup A.fspiopSource)
  { transferId := messageProtocol.id, payerId := messageProtocol.destination.getD ""
    payeeId := messageProtocol.source.getD "", fulfilment := request.fulfilment
    completedTimestamp := request.completedTimestamp, transferState := request.transferState
    fulfil := some
      { headers := some messageProtocol.headers, payload := some messageProtocol.payload } }

/-- `Validator.fulfilTransfer`: the error, if any.  What is no time is neither late nor early. -/
def fulfilTransferError (request : FulfilRequest) (now : Int) : Option String :=
  match A.getTime request.completedTimestamp with
  | none => if A.isDebugEnabled then some "Invalid time value" else none
  | some completedTimestamp =>
    if completedTimestamp > now + A.maxCallbackTimeLagDilationMilliseconds then
      some "completedTimestamp fails because future timestamp was provided"
    else if completedTimestamp < now - A.maxFulfilTimeoutDurationSeconds * 1000 then
      some "completedTimestamp fails because provided timestamp exceeded the maximum timeout duration"
    else none

end Api

/-- The switch, and the requests sent to the participants. -/
structure Gateway where
  network : Network
  sent : List CallbackRequest

inductive GatewayLabel where
  | createParticipant (participant : ParticipantState)
  | postTransfers (request : PrepareRequest)
  | putTransfers (request : FulfilRequest) (now : Int)
  | deliver (msg : Switch.DomainMessage) (f : Faults)
  /-- an event in the hands of the notification handler, and which requests get an answer -/
  | notify (evt : Transfers.Message) (sends : CallbackRequest → Bool)

namespace Gateway

def start (partitioner : String → Nat) : Gateway :=
  { network := Network.start partitioner, sent := [] }

section Step

variable (B : BigNumber) (C : Crypto) (A : Api)

/-- What a label is to the switch. -/
def action : GatewayLabel → Option Switch.Action
  | .createParticipant participant => some (.receive (.createParticipant participant))
  | .postTransfers request => some (.receive (.prepareRequest (A.prepare request)))
  | .putTransfers request now =>
    if A.fulfilTransferError request now = none then
      some (.receive (.fulfilRequest (A.fulfil request)))
    else none
  | .deliver msg f => some (.deliver msg f)
  | .notify _ _ => none

def step (s : Gateway) (l : GatewayLabel) : Gateway :=
  match l with
  | .notify evt sends =>
    if .transferEvt evt ∈ s.network.net then
      { s with sent := s.sent ++ (A.processPoCMessage sends evt).sent }
    else s
  | l => { s with network := ((action A l).map (Network.step B C s.network)).getD s.network }

def run (partitioner : String → Nat) (labels : List GatewayLabel) : Gateway :=
  Machine.run (step B C A) (start partitioner) labels

end Step

/-! ## What the callbacks say -/

section Statement

variable (A : Api) (labels : List GatewayLabel)

/-- The endpoint of this type that a participant with this id was created with. -/
def Reaches (id type : String) (callback : CallbackRequest) : Prop :=
  ∃ participant, .createParticipant participant ∈ labels ∧ participant.id = id ∧
    A.GoesTo participant.endpoints type callback

/-- The callback hands a request to prepare to its payee. -/
structure Posts (request : PrepareRequest) (callback : CallbackRequest) : Prop where
  received : .postTransfers request ∈ labels
  id : callback.id = request.transferId
  source : callback.source = request.payerFsp
  destination : callback.destination = request.payeeFsp
  method : callback.method = A.post
  fromSwitch : callback.fromSwitch = false
  signed : callback.signed = false
  made : A.MadeFrom request.headers request.dataUri A.transfersPost callback
  url : Reaches A labels request.payeeFsp A.fspiopCallbackUrlTransferPost callback

/-- The callback hands a request to fulfil, in time and with the right fulfilment, to one of the
parties. -/
structure Puts (C : Crypto) (request : PrepareRequest) (answer : FulfilRequest)
    (recipient : String) (callback : CallbackRequest) : Prop where
  received : .postTransfers request ∈ labels
  answered : ∃ now, .putTransfers answer now ∈ labels ∧ A.fulfilTransferError answer now = none
  same : answer.id = request.transferId
  fulfils : TransferState.Fulfils C request.condition answer.fulfilment
  id : callback.id = request.transferId
  destination : callback.destination = recipient
  method : callback.method = A.put
  made : A.MadeFrom answer.headers answer.dataUri A.transfersPut callback
  url : Reaches A labels recipient A.fspiopCallbackUrlTransferPut callback

/-- A callback passes on what it was given for, to whom it is meant.  Only what is confirmed in
the name of the switch is signed, and only where signing is on and meant for the switch. -/
def Faithful (C : Crypto) (callback : CallbackRequest) : Prop :=
  (∃ request, Posts A labels request callback) ∨
    ∃ request answer,
      (Puts A labels C request answer request.payerFsp callback ∧
        callback.source = request.payeeFsp ∧ callback.fromSwitch = false ∧
        callback.signed = false) ∨
      (A.sendTransferConfirmationToPayee = true ∧
        Puts A labels C request answer request.payeeFsp callback ∧
        callback.source = A.switch ∧ callback.fromSwitch = true ∧
        (callback.signed = true ↔ A.jwsSign = true ∧ A.fspiopSourceToSign = A.switch))

/-- Requests and participants come from the labels of the run. -/
structure FromOutside (net : List Switch.DomainMessage) : Prop where
  prepares : ∀ payload, .transferPrepareRequestedEvt payload ∈ net →
    ∃ request, .postTransfers request ∈ labels ∧ payload = A.prepare request
  fulfils : ∀ payload, .transferFulfilRequestedEvt payload ∈ net →
    ∃ request now, .putTransfers request now ∈ labels ∧
      A.fulfilTransferError request now = none ∧ payload = A.fulfil request
  participants : ∀ participant, .participantCmd (.createParticipantCmd participant) ∈ net →
    .createParticipant participant ∈ labels

end Statement

section Faithful

variable {A : Api} {C : Crypto} {labels : List GatewayLabel} {net : List Switch.DomainMessage}

/-- The switch makes none of these itself. -/
theorem FromOutside.append_published (h : FromOutside A labels net) {B : BigNumber} {f : Faults}
    {stores : Switch.Stores} {msg : Switch.DomainMessage} :
    FromOutside A labels (net ++ (Switch.react B C f stores msg).2) where
  prepares payload hm := by
    rcases List.mem_append.mp hm with hm | hm
    · exact h.prepares payload hm
    · cases Switch.publishes_of_mem hm
  fulfils payload hm := by
    rcases List.mem_append.mp hm with hm | hm
    · exact h.fulfils payload hm
    · cases Switch.publishes_of_mem hm
  participants participant hm := by
    rcases List.mem_append.mp hm with hm | hm
    · exact h.participants participant hm
    · exact absurd hm Switch.react_creates_nobody

theorem FromOutside.append_one (h : FromOutside A labels net) {m : Switch.DomainMessage}
    (hprepare : ∀ payload, m = .transferPrepareRequestedEvt payload →
      ∃ request, .postTransfers request ∈ labels ∧ payload = A.prepare request)
    (hfulfil : ∀ payload, m = .transferFulfilRequestedEvt payload →
      ∃ request now, .putTransfers request now ∈ labels ∧
        A.fulfilTransferError request now = none ∧ payload = A.fulfil request)
    (hcreate : ∀ participant, m = .participantCmd (.createParticipantCmd participant) →
      .createParticipant participant ∈ labels) :
    FromOutside A labels (net ++ [m]) where
  prepares payload hm := by
    rcases List.mem_append.mp hm with hm | hm
    · exact h.prepares payload hm
    · exact hprepare payload (List.mem_singleton.mp hm).symm
  fulfils payload hm := by
    rcases List.mem_append.mp hm with hm | hm
    · exact h.fulfils payload hm
    · exact hfulfil payload (List.mem_singleton.mp hm).symm
  participants participant hm := by
    rcases List.mem_append.mp hm with hm | hm
    · exact h.participants participant hm
    · exact hcreate participant (List.mem_singleton.mp hm).symm

theorem FromOutside.receive (h : FromOutside A labels net) {l : GatewayLabel} (hl : l ∈ labels)
    {input : Input} (hinput : action A l = some (.receive input)) :
    FromOutside A labels (net ++ [input.message]) := by
  cases l with
  | createParticipant participant =>
    cases hinput
    refine h.append_one (fun _ hm => by cases hm) (fun _ hm => by cases hm) fun _ hm => ?_
    cases hm
    exact hl
  | postTransfers request =>
    cases hinput
    refine h.append_one (fun _ hm => ?_) (fun _ hm => by cases hm) fun _ hm => by cases hm
    cases hm
    exact ⟨request, hl, rfl⟩
  | putTransfers request now =>
    rw [action] at hinput
    split at hinput
    · rename_i hvalid
      cases hinput
      refine h.append_one (fun _ hm => by cases hm) (fun _ hm => ?_) fun _ hm => by cases hm
      cases hm
      exact ⟨request, now, hl, hvalid, rfl⟩
    · cases hinput
  | deliver msg f => cases hinput
  | notify evt sends => cases hinput

theorem reaches_of_registered (h : FromOutside A labels net) {id type : String}
    {endpoints : List ParticipantEndpoint} (hendpoints : Registered net id endpoints)
    {callback : CallbackRequest} (hgoes : A.GoesTo endpoints type callback) :
    Reaches A labels id type callback := by
  obtain ⟨participant, hmem, hid, rfl⟩ := hendpoints
  exact ⟨participant, h.participants participant hmem, hid, hgoes⟩

/-- What a sourced transfer has of its request. -/
theorem prepareData_prepare {t : TransferState} {request : PrepareRequest}
    (h : t.prepareData = Transfers.TransfersAgg.prepareTransferData (A.prepare request)) :
    t.terms = (A.prepare request).terms ∧ t.condition = request.condition ∧
      t.prepare = { headers := some request.headers, payload := some request.dataUri } := by
  simp only [TransferState.prepareData, Transfers.TransfersAgg.prepareTransferData,
    Transfers.PrepareTransferData.mk.injEq] at h
  obtain ⟨hid, hamount, hcurrency, hpayer, hpayee, -, hcondition, hprepare⟩ := h
  refine ⟨?_, hcondition, ?_⟩
  · rw [TransferState.terms, hid, hamount, hcurrency, hpayer, hpayee]
    rfl
  · rw [hprepare]
    change ({ headers := some (A.createMessageFromRequest _ _ _ _ _).headers
              payload := some (A.createMessageFromRequest _ _ _ _ _).payload } :
        TransferRawPayload) = _
    rw [A.createMessage_headers, A.createMessage_payload]

/-- The parties of routed endpoints are those of the transfer. -/
theorem registered_of_routed {s : Network} (h : Traceable C s) {t : TransferState}
    (ht : Sourced C s.net t) {payerEndPoints payeeEndPoints : List ParticipantEndpoint}
    (hrouted : Routed s.net t.id payerEndPoints payeeEndPoints) :
    Registered s.net t.payerId payerEndPoints ∧ Registered s.net t.payeeId payeeEndPoints := by
  obtain ⟨terms, hannounced, hid, hpayer, hpayee⟩ := hrouted
  rw [h.one terms t.terms hannounced ht.announced hid] at hpayer hpayee
  exact ⟨hpayer, hpayee⟩

theorem faithful_of_prepared {s : Network} (h : Traceable C s) (hout : FromOutside A labels s.net)
    {payload : Transfers.TransferPreparedEvtPayload}
    (hmem : .transferEvt (.transferPreparedEvt payload) ∈ s.net) {callback : CallbackRequest}
    (hposts : A.PostsToPayee payload callback) : Faithful A labels C callback := by
  obtain ⟨t, ht, hterms, hprepare, hrouted⟩ := h.traced _ hmem
  obtain ⟨_, hrequested, hdata⟩ := ht.requested
  obtain ⟨request, hlabel, rfl⟩ := hout.prepares _ hrequested
  obtain ⟨hsame, -, hraw⟩ := prepareData_prepare hdata
  obtain ⟨headers, rawPayload, hheaders, hpayload, hmade⟩ := hposts.made
  rw [hprepare, hraw] at hheaders hpayload
  cases hheaders
  cases hpayload
  have hpayee : t.payeeId = request.payeeFsp := congrArg TransferTerms.payeeId hsame
  refine Or.inl ⟨request, hlabel, ?_, ?_, ?_, hposts.method, hposts.fromSwitch,
    hposts.signed, hmade, ?_⟩
  · rw [hposts.id, hterms, hsame]
    rfl
  · rw [hposts.source, hterms, hsame]
    rfl
  · rw [hposts.destination, hterms, hsame]
    rfl
  · rw [← hpayee]
    exact reaches_of_registered hout (registered_of_routed h ht hrouted).2 hposts.url

/-- A request for a fulfilled transfer, to whichever party has the endpoints. -/
theorem puts_of_fulfilled {s : Network} (h : Traceable C s) (hout : FromOutside A labels s.net)
    {payload : Transfers.TransferFulfilledEvtPayload}
    (hmem : .transferEvt (.transferFulfilledEvt payload) ∈ s.net) :
    ∃ request answer, payload.terms = (A.prepare request).terms ∧
      Registered s.net request.payerFsp payload.payerEndPoints ∧
      Registered s.net request.payeeFsp payload.payeeEndPoints ∧
      ∀ endpoints recipient callback, A.PutsFulfilment payload endpoints callback →
        Registered s.net recipient endpoints → callback.destination = recipient →
        Puts A labels C request answer recipient callback := by
  obtain ⟨t, ht, hfulfil, hterms, hraw, hrouted⟩ := h.traced _ hmem
  obtain ⟨_, hrequested, hdata⟩ := ht.requested
  obtain ⟨request, hlabel, rfl⟩ := hout.prepares _ hrequested
  obtain ⟨hsame, hcondition, -⟩ := prepareData_prepare hdata
  obtain ⟨_, hfulfilRequested, hid, hfulfils, hcopy⟩ := hfulfil
  obtain ⟨answer, now, hanswer, hvalid, rfl⟩ := hout.fulfils _ hfulfilRequested
  obtain ⟨hpayer, hpayee⟩ := registered_of_routed h ht hrouted
  have htransferId : t.id = request.transferId := congrArg TransferTerms.transferId hsame
  refine ⟨request, answer, hterms.trans hsame, ?_, ?_,
    fun endpoints recipient callback hputs hregistered hdestination => ?_⟩
  · rw [← show t.payerId = request.payerFsp from congrArg TransferTerms.payerId hsame]
    exact hpayer
  · rw [← show t.payeeId = request.payeeFsp from congrArg TransferTerms.payeeId hsame]
    exact hpayee
  · obtain ⟨raw, headers, rawPayload, hrawEq, hheaders, hpayload, hmade⟩ := hputs.made
    rw [hraw, hcopy] at hrawEq
    obtain rfl := Option.some.inj hrawEq
    have hheaders' : some (A.createMessageFromRequest _ _ _ _ _).headers = some headers := hheaders
    have hpayload' : some (A.createMessageFromRequest _ _ _ _ _).payload = some rawPayload :=
      hpayload
    rw [A.createMessage_headers] at hheaders'
    rw [A.createMessage_payload] at hpayload'
    cases hheaders'
    cases hpayload'
    have hanswerId : (A.fulfil answer).transferId = answer.id := A.createMessage_id _ _ _ _ _
    exact
      { received := hlabel
        answered := ⟨now, hanswer, hvalid⟩
        same := hanswerId.symm.trans (hid.trans htransferId)
        fulfils := hcondition ▸ hfulfils
        id := by rw [hputs.id, hterms, hsame]; rfl
        destination := hdestination
        method := hputs.method
        made := hmade
        url := reaches_of_registered hout hregistered hputs.url }

theorem faithful_of_fulfilled {s : Network} (h : Traceable C s) (hout : FromOutside A labels s.net)
    {payload : Transfers.TransferFulfilledEvtPayload}
    (hmem : .transferEvt (.transferFulfilledEvt payload) ∈ s.net) {callback : CallbackRequest}
    (hcallback : A.PutsToPayer payload callback ∨ A.ConfirmsToPayee payload callback) :
    Faithful A labels C callback := by
  obtain ⟨request, answer, hterms, hpayer, hpayee, hputs⟩ := puts_of_fulfilled h hout hmem
  refine Or.inr ⟨request, answer, ?_⟩
  rcases hcallback with hcallback | hcallback
  · refine Or.inl ⟨hputs _ _ _ hcallback.toPutsFulfilment hpayer ?_, ?_, hcallback.fromSwitch,
      hcallback.signed⟩
    · rw [hcallback.destination, hterms]
      rfl
    · rw [hcallback.source, hterms]
      rfl
  · refine Or.inr ⟨hcallback.enabled, hputs _ _ _ hcallback.toPutsFulfilment hpayee ?_,
      hcallback.source, hcallback.fromSwitch, ?_⟩
    · rw [hcallback.destination, hterms]
      rfl
    · rw [hcallback.signed, Adapter.getJWSSigner, Bool.and_eq_true, beq_iff_eq]
      exact and_congr_right fun _ => eq_comm

/-- What is sent for an event of the switch is faithful. -/
theorem faithful_of_mem {s : Network} (h : Traceable C s) (hout : FromOutside A labels s.net)
    {evt : Transfers.Message} (hmem : .transferEvt evt ∈ s.net) {sends : CallbackRequest → Bool}
    {callback : CallbackRequest} (hsent : callback ∈ (A.processPoCMessage sends evt).sent) :
    Faithful A labels C callback := by
  cases evt with
  | transferPreparedEvt payload =>
    exact faithful_of_prepared h hout hmem (Adapter.mem_notifyPrepared hsent)
  | transferFulfilledEvt payload =>
    exact faithful_of_fulfilled h hout hmem (Adapter.mem_notifyFulfilled hsent)
  | _ => cases hsent

end Faithful

/-! ## Every run -/

structure Sound (A : Api) (C : Crypto) (labels : List GatewayLabel) (s : Gateway) : Prop where
  traceable : Traceable C s.network
  outside : FromOutside A labels s.network.net
  faithful : ∀ callback ∈ s.sent, Faithful A labels C callback

section Run

variable {A : Api} {C : Crypto} {labels : List GatewayLabel} {s : Gateway}

theorem Sound.act (h : Sound A C labels s) (B : BigNumber) {l : GatewayLabel} (hl : l ∈ labels) :
    Sound A C labels
      { s with network := ((action A l).map (Network.step B C s.network)).getD s.network } := by
  cases hact : action A l with
  | none => exact h
  | some a =>
    refine { traceable := h.traceable.step B a, outside := ?_, faithful := h.faithful }
    cases a with
    | receive input => exact h.outside.receive hl hact
    | deliver msg f =>
      change FromOutside A labels (Network.step B C s.network (.deliver msg f)).net
      rw [Network.step]
      split
      · exact h.outside.append_published
      · exact h.outside

theorem Sound.step (h : Sound A C labels s) (B : BigNumber) {l : GatewayLabel} (hl : l ∈ labels) :
    Sound A C labels (Gateway.step B C A s l) := by
  cases l with
  | notify evt sends =>
    rw [Gateway.step]
    split
    · rename_i hmem
      refine { h with faithful := fun callback hcallback => ?_ }
      rcases List.mem_append.mp hcallback with hcallback | hcallback
      · exact h.faithful callback hcallback
      · exact faithful_of_mem h.traceable h.outside hmem hcallback
    · exact h
  | _ => exact h.act B hl

end Run

theorem sound_run (B : BigNumber) (C : Crypto) (A : Api) (partitioner : String → Nat)
    (labels : List GatewayLabel) : Sound A C labels (run B C A partitioner labels) := by
  refine Machine.run_invariant (P := fun _ l => l ∈ labels) (fun _ _ h hl => h.step B hl) ?_
    (Machine.along_of_forall (fun _ _ hl => hl) _ fun _ hl => hl)
  exact
    { traceable := Traceable.start C partitioner
      outside :=
        { prepares := fun _ hm => absurd hm List.not_mem_nil
          fulfils := fun _ hm => absurd hm List.not_mem_nil
          participants := fun _ hm => absurd hm List.not_mem_nil }
      faithful := fun _ hm => absurd hm List.not_mem_nil }

/-- In every run, whatever fails and however often a message is seen: a callback posts a request
to prepare to its payee, or puts a request to fulfil, with a fulfilment that meets the condition
of the request to prepare, to its payer or, in the name of the switch, to its payee.  Headers and
payload are made of those of the request, the endpoint is one the addressee was created with, and
a signer is there for the switch only, and only where it is set up. -/
theorem callbacks_faithful (B : BigNumber) (C : Crypto) (A : Api) (partitioner : String → Nat)
    (labels : List GatewayLabel) :
    ∀ callback ∈ (run B C A partitioner labels).sent, Faithful A labels C callback :=
  (sound_run B C A partitioner labels).faithful

/-! ## A small example -/

def sampleEnums : Enums where
  fspiopHttpMethod := "fspiop-http-method"
  fspiopUri := "fspiop-uri"
  fspiopSource := "fspiop-source"
  fspiopDestination := "fspiop-destination"
  switch := "switch"
  fspiopCallbackUrlTransferPost := "FSPIOP_CALLBACK_URL_TRANSFER_POST"
  fspiopCallbackUrlTransferPut := "FSPIOP_CALLBACK_URL_TRANSFER_PUT"
  transfersPost := "/transfers"
  transfersPut := "/transfers/\x7b\x7bID\x7d\x7d"
  post := "POST"
  put := "PUT"
  post_ne_put := by decide

/-- Every tag gives way to its member of the view. -/
def renderTags (view : List (String × Option String)) : Nat → List Char → List Char
  | 0, text => text
  | _, [] => []
  | n + 1, c :: text =>
    if ['\x7b', '\x7b'].isPrefixOf (c :: text) then
      let name := (text.drop 1).takeWhile (· ≠ '\x7d')
      let value := (view.lookup (String.ofList name)).bind id
      (value.getD "").toList ++ renderTags view n (text.drop (name.length + 3))
    else c :: renderTags view n text

/-- What is behind the comma of a data URI, as a text of single bytes. -/
def sampleAdapter : Adapter where
  toEnums := sampleEnums
  render template view := String.ofList (renderTags view template.length template.toList)
  isDataUri text := "data:".toList.isPrefixOf text.toList
  decodePayload text :=
    some (String.ofList ((Base64.decode (String.ofList
      ((text.toList.dropWhile (· ≠ ',')).drop 1))).map fun byte => Char.ofNat byte.toNat))
  sendTransferConfirmationToPayee := true
  jwsSign := false
  fspiopSourceToSign := "switch"

def sampleApi : Api where
  toAdapter := sampleAdapter
  createMessageFromRequest id headers dataUri destination source :=
    { id := id, destination := destination, source := source, headers := headers, payload := dataUri }
  createMessage_id _ _ _ _ _ := rfl
  createMessage_headers _ _ _ _ _ := rfl
  createMessage_payload _ _ _ _ _ := rfl
  getTime text := if text = "2020-06-29T12:00:00.000Z" then some 1593432000000 else none
  maxFulfilTimeoutDurationSeconds := 240
  maxCallbackTimeLagDilationMilliseconds := 200
  isDebugEnabled := false

/-- The sample participant with an endpoint for prepared transfers. -/
def sampleEndpoint (id : String) : ParticipantEndpoint :=
  { type := "FSPIOP_CALLBACK_URL_TRANSFER_POST", value := "http://" ++ id ++ "/transfers" }

def sampleParticipant (id : String) : Participants.ParticipantState :=
  { Participants.ParticpantsAgg.sampleParticipant id with endpoints := [sampleEndpoint id] }

/-- The data URI of `{}`. -/
def sampleRequest : PrepareRequest :=
  { headers := [("content-type", "application/json")], dataUri := "data:application/json;base64,e30="
    transferId := "t1", payerFsp := "blue", payeeFsp := "green", amount := "10", currency := "USD"
    expiration := "2020-06-30T00:00:00.000Z"
    condition := "HOr22-H3AfTDHrSkPjJtVPRdKouuMkDXTR4ejlQa8Ks" }

def sampleReserved : PayerFundsReservedEvtPayload :=
  { transferId := "t1", payerId := "blue", currency := "USD", currentPosition := "10"
    payerEndPoints := [sampleEndpoint "blue"], payeeEndPoints := [sampleEndpoint "green"] }

def samplePrepared : Transfers.TransferPreparedEvtPayload :=
  { terms := (sampleApi.prepare sampleRequest).terms, payerEndPoints := [sampleEndpoint "blue"]
    payeeEndPoints := [sampleEndpoint "green"]
    prepare := { headers := some sampleRequest.headers, payload := some sampleRequest.dataUri } }

/-- A transfer up to its first callback. -/
def sampleLabels : List GatewayLabel :=
  [.createParticipant (sampleParticipant "blue"), .createParticipant (sampleParticipant "green"),
    .postTransfers sampleRequest] ++
  ([.participantCmd (.createParticipantCmd (sampleParticipant "blue")),
    .participantCmd (.createParticipantCmd (sampleParticipant "green")),
    .transferPrepareRequestedEvt (sampleApi.prepare sampleRequest),
    .transferCmd (.prepareTransferCmd (sampleApi.prepare sampleRequest)),
    .transferEvt (.transferPrepareAcceptedEvt (sampleApi.prepare sampleRequest).terms),
    .participantCmd (.reservePayerFundsCmd (sampleApi.prepare sampleRequest).terms),
    .participantEvt (.payerFundsReservedEvt sampleReserved),
    .transferCmd (.ackPayerFundsReservedCmd
      { transferId := "t1", payerEndPoints := [sampleEndpoint "blue"]
        payeeEndPoints := [sampleEndpoint "green"] })].map
      fun msg => .deliver msg Faults.none) ++
  [.notify (.transferPreparedEvt samplePrepared) fun _ => true]

def sampleCallback : CallbackRequest :=
  { id := "t1", url := "http://green/transfers"
    headers := [("content-type", "application/json"), ("fspiop-http-method", "POST"),
      ("fspiop-uri", "/transfers")]
    source := "blue", destination := "green", method := "POST", payload := "\x7b\x7d"
    fromSwitch := false, signed := false }

theorem callbacks_faithful_sample :
    Faithful sampleApi sampleLabels Transfers.TransfersAgg.sampleCrypto sampleCallback :=
  callbacks_faithful Participants.wholeNumbers Transfers.TransfersAgg.sampleCrypto sampleApi
    (fun _ => 0) sampleLabels sampleCallback (by decide +kernel)

end Gateway

end MlApiAdapter
end PocArchitecture
