/-
The public message types that both bounded contexts use.

A currency is the text the message carries.  The payloads of the prepare-accepted and
fulfil-accepted events and of the reserve and commit commands have the same five
fields, and the participants handler hands the event's payload to the command as it
is, so they are one type here.
-/
import Mathlib.Logic.Basic

namespace PocArchitecture
namespace PublicMessages

abbrev CurrencyTypes := String

inductive ParticipantAccountTypes where
  | position
  | settlement
  | hubReconciliation
  | hubMultilateralSettlement
  | hubFee
  | interchangeFee
  deriving DecidableEq

/-- `NET_DEBIT_CAP` is the only declared member; a decoded limit may carry another text. -/
inductive AccountLimitTypes where
  | netDebitCap
  | other (text : String)
  deriving DecidableEq

def AccountLimitTypes.text : AccountLimitTypes → String
  | netDebitCap => "NET_DEBIT_CAP"
  | other text => text

structure ParticipantEndpoint where
  type : String
  value : String
  deriving DecidableEq

/-- The raw request kept with a transfer; both members are read through `?.`. -/
structure TransferRawPayload where
  headers : Option (List (String × String))
  payload : Option String
  deriving DecidableEq

/-- `{ headers: raw?.headers, payload: raw?.payload }` -/
def TransferRawPayload.copy (raw : Option TransferRawPayload) : TransferRawPayload :=
  { headers := raw.bind (·.headers), payload := raw.bind (·.payload) }

/-- What is to be moved, from whom and to whom. -/
structure TransferTerms where
  transferId : String
  amount : String
  currency : CurrencyTypes
  payerId : String
  payeeId : String
  deriving DecidableEq

structure PayerFundsReservedEvtPayload where
  transferId : String
  payerId : String
  currency : CurrencyTypes
  currentPosition : String
  payerEndPoints : List ParticipantEndpoint
  payeeEndPoints : List ParticipantEndpoint
  deriving DecidableEq

structure PayeeFundsCommittedEvtPayload where
  transferId : String
  payerId : String
  payeeId : String
  currency : CurrencyTypes
  currentPosition : String
  payerEndPoints : List ParticipantEndpoint
  payeeEndPoints : List ParticipantEndpoint
  deriving DecidableEq

end PublicMessages
end PocArchitecture
