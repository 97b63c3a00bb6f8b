/-
The transfer entity: its internal state, and the check of a fulfilment.

SHA-256 and the `base64url` package are not part of the repository.  `Crypto` has the
functions the entity calls, `base64url` as the encoding they are meant to compute, and
the laws of a correct codec.
-/
import PocArchitecture.PublicMessages.Types

namespace PocArchitecture
namespace Transfers

open PublicMessages

structure Crypto where
  toBuffer : String → List UInt8
  sha256 : List UInt8 → List UInt8
  /-- `digest('base64')` -/
  base64 : List UInt8 → String
  fromBase64 : String → String
  base64url : List UInt8 → String
  fromBase64_base64 : ∀ bytes, fromBase64 (base64 bytes) = base64url bytes
  toBuffer_base64url : ∀ bytes, toBuffer (base64url bytes) = bytes

inductive TransferInternalStates where
  | abortedError
  | abortedRejected
  | committed
  | expiredPrepared
  | expiredReserved
  | failed
  | invalid
  | receivedError
  | receivedFulfil
  | receivedPrepare
  | receivedReject
  | reserved
  | reservedTimeout
  deriving DecidableEq

def TransferInternalStates.text : TransferInternalStates → String
  | abortedError => "ABORTED_ERROR"
  | abortedRejected => "ABORTED_REJECTED"
  | committed => "COMMITTED"
  | expiredPrepared => "EXPIRED_PREPARED"
  | expiredReserved => "EXPIRED_RESERVED"
  | failed => "FAILED"
  | invalid => "INVALID"
  | receivedError => "RECEIVED_ERROR"
  | receivedFulfil => "RECEIVED_FULFIL"
  | receivedPrepare => "RECEIVED_PREPARE"
  | receivedReject => "RECEIVED_REJECT"
  | reserved => "RESERVED"
  | reservedTimeout => "RESERVED_TIMEOUT"

structure TransferState where
  id : String
  amount : String
  currency : String
  transferInternalState : TransferInternalStates
  payerId : String
  payeeId : String
  expiration : String
  condition : String
  prepare : TransferRawPayload
  fulfilment : Option String
  completedTimestamp : Option String
  fulfil : Option TransferRawPayload
  deriving DecidableEq

structure PrepareTransferData where
  id : String
  amount : String
  currency : String
  payerId : String
  payeeId : String
  expiration : String
  condition : String
  prepare : TransferRawPayload
  deriving DecidableEq

structure FulfilTransferData where
  id : String
  payerId : String
  payeeId : String
  fulfilment : String
  completedTimestamp : String
  transferState : String
  fulfil : TransferRawPayload
  deriving DecidableEq

inductive FulfilError where
  | validateFulfilConditionFailed
  | validateFulfilConditionNoMatch (condition fulfilment : String)
  deriving DecidableEq

/-- The class name and the message, as the handler puts them together. -/
def FulfilError.text : FulfilError → String
  | validateFulfilConditionFailed =>
    "ValidateFulfilConditionFailed fulfilmentToCondition: Interledger preimages must be exactly 32 bytes"
  | validateFulfilConditionNoMatch condition fulfilment =>
    s!"ValidateFulfilConditionNoMatch Fulfilment and condition do not match (condition: {condition} fulfilment: {fulfilment})"

def fulfilmentToCondition (C : Crypto) (fulfilment : String) : Except FulfilError String :=
  let preimage := C.toBuffer fulfilment
  if preimage.length ≠ 32 then .error .validateFulfilConditionFailed
  else
    let calculatedConditionDigest := C.base64 (C.sha256 preimage)
    .ok (C.fromBase64 calculatedConditionDigest)

namespace TransferState

/-- `createWithId` followed by `prepareTransfer`. -/
def prepareTransfer (incommingTransfer : PrepareTransferData) : TransferState where
  id := incommingTransfer.id
  amount := incommingTransfer.amount
  currency := incommingTransfer.currency
  transferInternalState := .receivedPrepare
  payerId := incommingTransfer.payerId
  payeeId := incommingTransfer.payeeId
  expiration := incommingTransfer.expiration
  condition := incommingTransfer.condition
  prepare := .copy (some incommingTransfer.prepare)
  fulfilment := none
  completedTimestamp := none
  fulfil := none

def acknowledgeTransferReserved (s : TransferState) : TransferState :=
  { s with transferInternalState := .reserved }

def validateFulfilCondition (C : Crypto) (s : TransferState) (fulfilment : String) :
    Except FulfilError Bool :=
  match fulfilmentToCondition C fulfilment with
  | .error e => .error e
  | .ok calculatedCondition => .ok (calculatedCondition == s.condition)

/-- The entity after the call, and the error it threw. -/
def fulfilTransfer (C : Crypto) (s : TransferState) (incommingTransfer : FulfilTransferData) :
    TransferState × Option FulfilError :=
  match s.validateFulfilCondition C incommingTransfer.fulfilment with
  -- a fulfilment of the wrong length throws before anything is assigned
  | .error e => (s, some e)
  | .ok false =>
    ({ s with transferInternalState := .receivedError },
      some (.validateFulfilConditionNoMatch s.condition incommingTransfer.fulfilment))
  | .ok true =>
    ({ s with
        fulfilment := some incommingTransfer.fulfilment
        completedTimestamp := some incommingTransfer.completedTimestamp
        fulfil := some incommingTransfer.fulfil
        transferInternalState := .receivedFulfil }, none)

def commitTransfer (s : TransferState) : TransferState :=
  { s with transferInternalState := .committed }

/-- What is to be moved, as the accepted events repeat it. -/
def terms (s : TransferState) : TransferTerms :=
  { transferId := s.id, amount := s.amount, currency := s.currency, payerId := s.payerId,
    payeeId := s.payeeId }

/-- The fields `prepareTransfer` sets, the internal state apart. -/
def prepareData (s : TransferState) : PrepareTransferData :=
  { id := s.id, amount := s.amount, currency := s.currency, payerId := s.payerId,
    payeeId := s.payeeId, expiration := s.expiration, condition := s.condition,
    prepare := s.prepare }

/-- Equal data gives equal terms. -/
theorem terms_eq_of_prepareData {s t : TransferState} (h : s.prepareData = t.prepareData) :
    s.terms = t.terms := by
  simp only [prepareData, PrepareTransferData.mk.injEq] at h
  obtain ⟨hid, hamount, hcurrency, hpayer, hpayee, -⟩ := h
  rw [terms, terms, hid, hamount, hcurrency, hpayer, hpayee]

/-! ## The check of a fulfilment -/

/-- The fulfilment is a preimage of the condition. -/
def Fulfils (C : Crypto) (condition fulfilment : String) : Prop :=
  (C.toBuffer fulfilment).length = 32 ∧
    C.base64url (C.sha256 (C.toBuffer fulfilment)) = condition

section Fulfil

variable {C : Crypto} {s : TransferState} {d : FulfilTransferData}

theorem validateFulfilCondition_of_length (h : (C.toBuffer d.fulfilment).length ≠ 32) :
    s.validateFulfilCondition C d.fulfilment = .error .validateFulfilConditionFailed := by
  rw [validateFulfilCondition, fulfilmentToCondition, if_pos h]

theorem validateFulfilCondition_ok (h : (C.toBuffer d.fulfilment).length = 32) :
    s.validateFulfilCondition C d.fulfilment =
      .ok (C.base64url (C.sha256 (C.toBuffer d.fulfilment)) == s.condition) := by
  rw [validateFulfilCondition, fulfilmentToCondition, if_neg (not_not.mpr h)]
  exact congrArg (fun c => Except.ok (c == s.condition)) (C.fromBase64_base64 _)

/-- The three ways `fulfilTransfer` ends. -/
theorem fulfilTransfer_cases (C : Crypto) (s : TransferState) (d : FulfilTransferData) :
    ((C.toBuffer d.fulfilment).length ≠ 32 ∧
      s.fulfilTransfer C d = (s, some .validateFulfilConditionFailed)) ∨
    ((C.toBuffer d.fulfilment).length = 32 ∧ ¬ Fulfils C s.condition d.fulfilment ∧
      s.fulfilTransfer C d = ({ s with transferInternalState := .receivedError },
        some (.validateFulfilConditionNoMatch s.condition d.fulfilment))) ∨
    (Fulfils C s.condition d.fulfilment ∧
      s.fulfilTransfer C d = ({ s with
        fulfilment := some d.fulfilment, completedTimestamp := some d.completedTimestamp,
        fulfil := some d.fulfil, transferInternalState := .receivedFulfil }, none)) := by
  by_cases hlen : (C.toBuffer d.fulfilment).length = 32
  · rw [fulfilTransfer, validateFulfilCondition_ok hlen]
    by_cases hcond : C.base64url (C.sha256 (C.toBuffer d.fulfilment)) = s.condition
    · rw [beq_iff_eq.mpr hcond]
      exact Or.inr (Or.inr ⟨⟨hlen, hcond⟩, rfl⟩)
    · rw [beq_eq_false_iff_ne.mpr hcond]
      exact Or.inr (Or.inl ⟨hlen, fun h => hcond h.2, rfl⟩)
  · rw [fulfilTransfer, validateFulfilCondition_of_length hlen]
    exact Or.inl ⟨hlen, rfl⟩

end Fulfil

end TransferState

end Transfers
end PocArchitecture
