/-
`SimulatorEvtHandler`: the payee of the development tools.

It answers every prepared transfer with a request to fulfil it, always with the same
fulfilment, and takes note of fulfilled ones.  `encodePayload` of the shared streaming
protocol is not part of the repository.
-/
import PocArchitecture.Switch.System

namespace PocArchitecture
namespace Devtools

open PublicMessages
open Switch (DomainMessage)
open Transfers (FulfilTransferCmdPayload TransferPreparedEvtPayload)

structure Simulator where
  encodePayload : String → String → String

namespace Simulator

def contentType : String := "application/vnd.interoperability.transfers+json;version=1"

def fulfilment : String := "XoSz1cL0tljJSCp_VtIYmPNw-zFUgGfbUqf69AagUzY"

def signature : String :=
  "\x7b\"signature\":\"iU4GBXSfY8twZMj1zXX1CTe3LDO8Zvgui53icrriBxCUF_wltQmnjgWLWI4ZUEue" ++
  "VeOeTbDPBZazpBWYvBYpl5WJSUoXi14nVlangcsmu2vYkQUPmHtjOW-yb2ng6_aPfwd7oHLWrWzcsjTF-S4d" ++
  "W7GZRPHEbY_qCOhEwmmMOnE1FWF1OLvP0dM0r4y7FlnrZNhmuVIFhk_pMbEC44rtQmMFv4pm4EVGqmIm3eyX" ++
  "z0GkX8q_O1kGBoyIeV_P6RRcZ0nL6YUVMhPFSLJo6CIhL2zPm54Qdl2nVzDFWn_shVyV0Cl5vpcMJxJ--O_Z" ++
  "cbmpv6lxqDdygTC782Ob3CNMvg\",\"protectedHeader\":\"eyJhbGciOiJSUzI1NiIsIkZTUElPUC1VU" ++
  "kkiOiIvdHJhbnNmZXJzIiwiRlNQSU9QLUhUVFAtTWV0aG9kIjoiUE9TVCIsIkZTUElPUC1Tb3VyY2UiOiJPT" ++
  "UwiLCJGU1BJT1AtRGVzdGluYXRpb24iOiJNVE5Nb2JpbGVNb25leSIsIkRhdGUiOiIifQ\"\x7d"

/-- The payer is named as the source, although the payee answers. -/
def headers (payload : TransferPreparedEvtPayload) : List (String × String) :=
  [("accept", "application/vnd.interoperability.transfers+json;version=1"),
    ("content-type", "application/vnd.interoperability.transfers+json;version=1.0"),
    ("date", "2020-06-08T08:15:26.000Z"),
    ("fspiop-source", payload.terms.payerId),
    ("fspiop-destination", payload.terms.payeeId),
    ("fspiop-signature", signature),
    ("fspiop-uri", "/transfers/" ++ payload.terms.transferId),
    ("fspiop-http-method", "POST"),
    ("user-agent", "PostmanRuntime/7.25.0"),
    ("cache-control", "no-cache"),
    ("postman-token", "e9db5115-86d7-48dd-ab0f-07b4059d5063"),
    ("host", "ml-api-adapter.local:3000"),
    ("accept-encoding", "gzip, deflate, br"),
    ("connection", "keep-alive"),
    ("content-length", "1062")]

/-- `JSON.stringify(fulfilPayload)`; `now` is `(new Date()).toISOString()`. -/
def fulfilPayload (now : String) : String :=
  "\x7b\"completedTimestamp\":\"" ++ now ++ "\",\"transferState\":\"COMMITTED\",\"fulfilment\":\"" ++
    fulfilment ++ "\"\x7d"

variable (S : Simulator) (now : String)

def transferFulfilRequestedEvtPayload (payload : TransferPreparedEvtPayload) :
    FulfilTransferCmdPayload :=
  { transferId := payload.terms.transferId, payerId := payload.terms.payerId
    payeeId := payload.terms.payeeId, fulfilment := fulfilment, completedTimestamp := now
    transferState := "COMMITTED"
    fulfil := some
      { headers := some (headers payload)
        payload := some (S.encodePayload (fulfilPayload now) contentType) } }

/-- What the simulator publishes; `publishes` is how its publish ends. -/
def simulatorEvtHandler (publishes : Bool) : DomainMessage → List DomainMessage
  | .transferEvt (.transferPreparedEvt payload) =>
    if publishes then [.transferFulfilRequestedEvt (S.transferFulfilRequestedEvtPayload now payload)]
    else []
  | _ => []

theorem mem_simulatorEvtHandler {publishes : Bool} {msg m : DomainMessage}
    (h : m ∈ S.simulatorEvtHandler now publishes msg) :
    ∃ payload, m = .transferFulfilRequestedEvt payload := by
  unfold simulatorEvtHandler at h
  split at h
  · cases publishes with
    | true => exact ⟨_, List.mem_singleton.mp h⟩
    | false => cases h
  · cases h

end Simulator

end Devtools
end PocArchitecture
