/-
`processPoCMessage`: the callbacks for the events of a transfer.

A prepared transfer is posted to the payee, a fulfilled one is put to the payer and, where
this is configured, to the payee as well.  The endpoints and the raw requests come with the
event.  The templates of the URLs, the data URIs and the names of the headers are those of
packages that are not part of the repository.
-/
import PocArchitecture.Transfers.Messages

namespace PocArchitecture
namespace MlApiAdapter

open PublicMessages
open Transfers (TransferPreparedEvtPayload TransferFulfilledEvtPayload)

abbrev Headers := List (String × String)

/-- The constants of `Enum`. -/
structure Enums where
  fspiopHttpMethod : String
  fspiopUri : String
  fspiopSource : String
  fspiopDestination : String
  switch : String
  fspiopCallbackUrlTransferPost : String
  fspiopCallbackUrlTransferPut : String
  transfersPost : String
  transfersPut : String
  post : String
  put : String
  post_ne_put : post ≠ put

/-- `Mustache.render` on a view, `isDataUri`, the text that `decodePayload` finds in a data URI
unless it throws, and three values of `Config`. -/
structure Adapter extends Enums where
  render : String → List (String × Option String) → String
  isDataUri : String → Bool
  decodePayload : String → Option String
  sendTransferConfirmationToPayee : Bool
  jwsSign : Bool
  fspiopSourceToSign : String

/-! ## Headers -/

/-- `headers[key] = value` -/
def assign (key value : String) : Headers → Headers
  | [] => [(key, value)]
  | (k, v) :: headers => if k = key then (k, value) :: headers else (k, v) :: assign key value headers

def isLineTerminator (c : Char) : Bool :=
  c == '\n' || c == '\r' || c == Char.ofNat 0x2028 || c == Char.ofNat 0x2029

/-- The text begins with the path of a resource, and goes on with another `/` if at all. -/
def isResource (text : List Char) : Bool :=
  ["participants", "parties", "quotes", "transfers"].any fun name =>
    let path := '/' :: name.toList
    path.isPrefixOf text && (text.drop path.length).head?.all (· == '/')

/-- The last resource of the text; what is before it may be anything. -/
def lastResource : List Char → Option (List Char)
  | [] => none
  | c :: text => lastResource text <|> if isResource (c :: text) then some (c :: text) else none

/-- `uriRegex.exec(uri)[1]`, which throws where the pattern is not found. -/
def resourceUri (uri : String) : Option String :=
  if uri.toList.any isLineTerminator then none else (lastResource uri.toList).map String.ofList

/-- A member that a falsy value leaves `null`. -/
def orNull (value : Option String) : Option String := value.filter (· ≠ "")

structure CallbackHeaderParams where
  headers : Headers
  httpMethod : String
  endpointTemplate : String
  transferId : Option String
  dfspId : Option String

structure CallbackRequest where
  /-- for the log only -/
  id : String
  url : String
  headers : Headers
  source : String
  destination : String
  method : String
  payload : String
  /-- made for the switch itself, which is asked for a signer then -/
  fromSwitch : Bool
  /-- handed over with a signer -/
  signed : Bool
  deriving DecidableEq

inductive CallbackError where
  | rawRequestMissing
  | noCallbackUrl
  | payloadThrows
  | headersThrow
  | requestRejected
  deriving DecidableEq

/-- The errors the handler throws itself; `kind` is `Prepare` or `Fulfil`. -/
def CallbackError.text (kind msgName msgId : String) : CallbackError → Option String
  | rawRequestMissing =>
    some s!"TransferEvtHandler is unable to process event - {msgName} - {msgName}:{msgId} - {kind} Headers or Payload is missing from event!"
  | noCallbackUrl =>
    some s!"TransferEvtHandler is unable to process event - {msgName} - {msgName}:{msgId} - Unable to find callback URL"
  | _ => none

/-- The requests that were handed to `Callback.sendRequest`, and the error that is thrown. -/
structure Notified where
  sent : List CallbackRequest
  error : Option CallbackError

namespace Adapter

variable (A : Adapter) (sends : CallbackRequest → Bool)

def createCallbackHeaders (params : CallbackHeaderParams) : Option Headers :=
  let callbackHeaders := assign A.fspiopHttpMethod params.httpMethod params.headers
  let uri := A.render params.endpointTemplate
    [("ID", orNull params.transferId), ("fsp", orNull params.dfspId)]
  (resourceUri uri).map fun uri => assign A.fspiopUri uri callbackHeaders

def getEndpoint (eventList : List ParticipantEndpoint) (type transferId : String) :
    Option ParticipantEndpoint :=
  (eventList.find? (·.type == type)).map fun endpointState =>
    { endpointState with value := A.render endpointState.value [("transferId", some transferId)] }

/-- A raw payload is a text here, so it has no `body` to parse if it is no data URI. -/
def processPayload (rawPayload : String) : Option String :=
  if A.isDataUri rawPayload then A.decodePayload rawPayload else none

/-- Whether there is a signer for this sender. -/
def getJWSSigner (sender : String) : Bool := A.jwsSign && sender == A.fspiopSourceToSign

/-- Neither the transfer nor the participant is named to `createCallbackHeaders`. -/
def sendRequest (id destination source : String) (headers : Headers)
    (payload callbackURL method endpointTemplate : String) (fromSwitch : Bool) : Notified :=
  match A.createCallbackHeaders
    { headers := headers, httpMethod := method, endpointTemplate := endpointTemplate
      transferId := none, dfspId := none } with
  | none => { sent := [], error := some .headersThrow }
  | some callbackHeaders =>
    let request : CallbackRequest :=
      { id := id, url := callbackURL, headers := callbackHeaders, source := source
        destination := destination, method := method, payload := payload, fromSwitch := fromSwitch
        signed := fromSwitch && A.getJWSSigner A.switch }
    { sent := [request], error := if sends request then none else some .requestRejected }

def notifyPrepared (payload : TransferPreparedEvtPayload) : Notified :=
  match payload.prepare.payload, payload.prepare.headers with
  | some rawPayload, some headers =>
    match A.getEndpoint payload.payeeEndPoints A.fspiopCallbackUrlTransferPost
      payload.terms.transferId with
    | none => { sent := [], error := some .noCallbackUrl }
    | some payeeEndPoint =>
      match A.processPayload rawPayload with
      | none => { sent := [], error := some .payloadThrows }
      | some payloadForCallback =>
        A.sendRequest sends payload.terms.transferId payload.terms.payeeId payload.terms.payerId
          headers payloadForCallback payeeEndPoint.value A.post A.transfersPost false
  | _, _ => { sent := [], error := some .rawRequestMissing }

/-- The second request, to the payee and from the switch. -/
def confirmToPayee (payload : TransferFulfilledEvtPayload) (headers : Headers)
    (payloadForCallback : String) : Notified :=
  match A.getEndpoint payload.payeeEndPoints A.fspiopCallbackUrlTransferPut
    payload.terms.transferId with
  | none => { sent := [], error := some .noCallbackUrl }
  | some payeeEndPoint =>
    A.sendRequest sends payload.terms.transferId payload.terms.payeeId A.switch headers
      payloadForCallback payeeEndPoint.value A.put A.transfersPut true

def notifyFulfilled (payload : TransferFulfilledEvtPayload) : Notified :=
  match payload.fulfil.bind (·.payload), payload.fulfil.bind (·.headers) with
  | some rawPayload, some headers =>
    match A.getEndpoint payload.payerEndPoints A.fspiopCallbackUrlTransferPut
      payload.terms.transferId with
    | none => { sent := [], error := some .noCallbackUrl }
    | some payerEndPoint =>
      match A.processPayload rawPayload with
      | none => { sent := [], error := some .payloadThrows }
      | some payloadForCallback =>
        let first := A.sendRequest sends payload.terms.transferId payload.terms.payerId
          payload.terms.payeeId headers payloadForCallback payerEndPoint.value A.put A.transfersPut
          false
        if first.error = none ∧ A.sendTransferConfirmationToPayee = true then
          let second := A.confirmToPayee sends payload headers payloadForCallback
          { sent := first.sent ++ second.sent, error := second.error }
        else first
  | _, _ => { sent := [], error := some .rawRequestMissing }

/-- Events of other kinds are skipped. -/
def processPoCMessage : Transfers.Message → Notified
  | .transferPreparedEvt payload => A.notifyPrepared sends payload
  | .transferFulfilledEvt payload => A.notifyFulfilled sends payload
  | _ => { sent := [], error := none }

/-! ## What is sent -/

/-- The request is made of these headers and of this raw payload. -/
structure MadeFrom (headers : Headers) (rawPayload endpointTemplate : String)
    (request : CallbackRequest) : Prop where
  headers : A.createCallbackHeaders
    { headers := headers, httpMethod := request.method, endpointTemplate := endpointTemplate
      transferId := none, dfspId := none } = some request.headers
  payload : A.processPayload rawPayload = some request.payload

/-- The request goes to the endpoint of this type. -/
def GoesTo (endpoints : List ParticipantEndpoint) (type : String) (request : CallbackRequest) :
    Prop :=
  ∃ endpoint, endpoints.find? (·.type == type) = some endpoint ∧
    request.url = A.render endpoint.value [("transferId", some request.id)]

/-- A post to the payee. -/
structure PostsToPayee (payload : TransferPreparedEvtPayload) (request : CallbackRequest) : Prop where
  id : request.id = payload.terms.transferId
  source : request.source = payload.terms.payerId
  destination : request.destination = payload.terms.payeeId
  method : request.method = A.post
  fromSwitch : request.fromSwitch = false
  signed : request.signed = false
  url : A.GoesTo payload.payeeEndPoints A.fspiopCallbackUrlTransferPost request
  made : ∃ headers rawPayload, payload.prepare.headers = some headers ∧
    payload.prepare.payload = some rawPayload ∧
    A.MadeFrom headers rawPayload A.transfersPost request

/-- What the two requests for a fulfilled transfer have in common. -/
structure PutsFulfilment (payload : TransferFulfilledEvtPayload)
    (endpoints : List ParticipantEndpoint) (request : CallbackRequest) : Prop where
  id : request.id = payload.terms.transferId
  method : request.method = A.put
  url : A.GoesTo endpoints A.fspiopCallbackUrlTransferPut request
  made : ∃ raw headers rawPayload, payload.fulfil = some raw ∧ raw.headers = some headers ∧
    raw.payload = some rawPayload ∧ A.MadeFrom headers rawPayload A.transfersPut request

/-- A put to the payer. -/
structure PutsToPayer (payload : TransferFulfilledEvtPayload) (request : CallbackRequest) : Prop
    extends PutsFulfilment A payload payload.payerEndPoints request where
  source : request.source = payload.terms.payeeId
  destination : request.destination = payload.terms.payerId
  fromSwitch : request.fromSwitch = false
  signed : request.signed = false

/-- The confirmation to the payee. -/
structure ConfirmsToPayee (payload : TransferFulfilledEvtPayload) (request : CallbackRequest) : Prop
    extends PutsFulfilment A payload payload.payeeEndPoints request where
  enabled : A.sendTransferConfirmationToPayee = true
  source : request.source = A.switch
  destination : request.destination = payload.terms.payeeId
  fromSwitch : request.fromSwitch = true
  signed : request.signed = A.getJWSSigner A.switch

section

variable {A sends}

theorem mem_sendRequest {id destination source : String} {headers : Headers}
    {payload callbackURL method endpointTemplate : String} {fromSwitch : Bool}
    {request : CallbackRequest}
    (h : request ∈ (A.sendRequest sends id destination source headers payload callbackURL method
      endpointTemplate fromSwitch).sent) :
    ∃ callbackHeaders, A.createCallbackHeaders
        { headers := headers, httpMethod := method, endpointTemplate := endpointTemplate
          transferId := none, dfspId := none } = some callbackHeaders ∧
      request = { id := id, url := callbackURL, headers := callbackHeaders, source := source
                  destination := destination, method := method, payload := payload
                  fromSwitch := fromSwitch, signed := fromSwitch && A.getJWSSigner A.switch } := by
  rw [sendRequest] at h
  split at h
  · cases h
  · rename_i callbackHeaders hheaders
    exact ⟨callbackHeaders, hheaders, List.mem_singleton.mp h⟩

theorem getEndpoint_eq_some {endpoints : List ParticipantEndpoint} {type transferId : String}
    {endpoint : ParticipantEndpoint} (h : A.getEndpoint endpoints type transferId = some endpoint) :
    ∃ registered, endpoints.find? (·.type == type) = some registered ∧
      endpoint.value = A.render registered.value [("transferId", some transferId)] := by
  obtain ⟨registered, hfind, rfl⟩ := Option.map_eq_some_iff.mp h
  exact ⟨registered, hfind, rfl⟩

theorem mem_notifyPrepared {payload : TransferPreparedEvtPayload} {request : CallbackRequest}
    (h : request ∈ (A.notifyPrepared sends payload).sent) : A.PostsToPayee payload request := by
  rw [notifyPrepared] at h
  split at h
  · rename_i rawPayload headers hpayload hheaders
    split at h
    · cases h
    · rename_i payeeEndPoint hendpoint
      obtain ⟨registered, hfind, hvalue⟩ := getEndpoint_eq_some hendpoint
      split at h
      · cases h
      · rename_i payloadForCallback hprocessed
        obtain ⟨callbackHeaders, hcreated, rfl⟩ := mem_sendRequest h
        exact ⟨rfl, rfl, rfl, rfl, rfl, rfl, ⟨registered, hfind, hvalue⟩,
          headers, rawPayload, hheaders, hpayload, ⟨hcreated, hprocessed⟩⟩
  · cases h

theorem mem_notifyFulfilled {payload : TransferFulfilledEvtPayload} {request : CallbackRequest}
    (h : request ∈ (A.notifyFulfilled sends payload).sent) :
    A.PutsToPayer payload request ∨ A.ConfirmsToPayee payload request := by
  rw [notifyFulfilled] at h
  split at h
  · rename_i rawPayload headers hpayload hheaders
    obtain ⟨raw, hraw, hrawPayload⟩ := Option.bind_eq_some_iff.mp hpayload
    have hrawHeaders : raw.headers = some headers := by
      rw [hraw] at hheaders
      exact hheaders
    split at h
    · cases h
    · rename_i payerEndPoint hpayer
      obtain ⟨registered, hfind, hvalue⟩ := getEndpoint_eq_some hpayer
      split at h
      · cases h
      · rename_i payloadForCallback hprocessed
        have hfirst : ∀ request, request ∈ (A.sendRequest sends payload.terms.transferId
            payload.terms.payerId payload.terms.payeeId headers payloadForCallback
            payerEndPoint.value A.put A.transfersPut false).sent → A.PutsToPayer payload request := by
          intro request hmem
          obtain ⟨callbackHeaders, hcreated, rfl⟩ := mem_sendRequest hmem
          exact { id := rfl, method := rfl, url := ⟨registered, hfind, hvalue⟩
                  made := ⟨raw, headers, rawPayload, hraw, hrawHeaders, hrawPayload,
                    ⟨hcreated, hprocessed⟩⟩
                  source := rfl, destination := rfl, fromSwitch := rfl, signed := rfl }
        dsimp only at h
        split at h
        · rename_i henabled
          rcases List.mem_append.mp h with h | h
          · exact Or.inl (hfirst request h)
          · rw [confirmToPayee] at h
            split at h
            · cases h
            · rename_i payeeEndPoint hpayee
              obtain ⟨registered', hfind', hvalue'⟩ := getEndpoint_eq_some hpayee
              obtain ⟨callbackHeaders, hcreated, rfl⟩ := mem_sendRequest h
              exact Or.inr
                { id := rfl, method := rfl, url := ⟨registered', hfind', hvalue'⟩
                  made := ⟨raw, headers, rawPayload, hraw, hrawHeaders, hrawPayload,
                    ⟨hcreated, hprocessed⟩⟩
                  enabled := henabled.2, source := rfl, destination := rfl, fromSwitch := rfl
                  signed := rfl }
        · exact Or.inl (hfirst request h)
  · cases h

end

end Adapter

end MlApiAdapter
end PocArchitecture
