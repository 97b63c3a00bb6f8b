/-
The participant entity: accounts, limits, and the two ways a position moves.

Positions and limits are decimal strings, read with `new BigNumber` and written with
`toString` on every movement.  The first POSITION account of a currency is the one the
entity works on, whatever other accounts the participant was created with.
-/
import PocArchitecture.Lib.FirstMatch
import PocArchitecture.PublicMessages.Types
import PocArchitecture.Participants.BigNumber

namespace PocArchitecture
namespace Participants

open PublicMessages

structure ParticipantLimitState where
  type : AccountLimitTypes
  value : String
  deriving DecidableEq

structure ParticipantAccountState where
  type : ParticipantAccountTypes
  currency : CurrencyTypes
  position : String
  initialPosition : String
  limits : List ParticipantLimitState
  deriving DecidableEq

structure ParticipantState where
  id : String
  name : String
  accounts : List ParticipantAccountState
  endpoints : List ParticipantEndpoint
  partition : Option Nat
  deriving DecidableEq

/-- The errors of `participant_entity.ts`, with their messages. -/
inductive EntityError where
  | invalidAccount (message : String)
  | invalidLimit (message : String)
  | netDebitCapLimitExceeded (message : String)
  deriving DecidableEq

def EntityError.unknownAccount (id : String) (currency : CurrencyTypes) : EntityError :=
  .invalidAccount
    s!"Unable to 'canReserveFunds' - Unknown account '{currency}' for Account '{id}'"

def EntityError.unknownLimit (id : String) : EntityError :=
  .invalidLimit
    s!"Unable to 'canReserveFunds' - Unknown limitType 'NET_DEBIT_CAP' for Account '{id}'"

def EntityError.limitExceeded (id amount : String) : EntityError :=
  .netDebitCapLimitExceeded
    s!"Unable to 'reserveFunds' - amount '{amount}' exceeded limit 'NET_DEBIT_CAP' for Account '{id}'"

/-- The test `getAccount` makes on an account. -/
def isAccount (accType : ParticipantAccountTypes) (currency : CurrencyTypes)
    (account : ParticipantAccountState) : Bool :=
  account.type == accType && account.currency == currency

def ParticipantAccountState.withPosition (position : String) (account : ParticipantAccountState) :
    ParticipantAccountState :=
  { account with position := position }

def getLimitFromAccount (account : ParticipantAccountState) (limitType : AccountLimitTypes) :
    Option ParticipantLimitState :=
  account.limits.find? fun limit => limit.type == limitType

namespace ParticipantState

def getAccount (s : ParticipantState) (accType : ParticipantAccountTypes)
    (currency : CurrencyTypes) : Option ParticipantAccountState :=
  s.accounts.find? (isAccount accType currency)

def hasAccount (s : ParticipantState) (accType : ParticipantAccountTypes)
    (currency : CurrencyTypes) : Bool :=
  (s.getAccount accType currency).isSome

/-- `accountState.position = position` on the account `getAccount` returns. -/
def setPosition (s : ParticipantState) (currency : CurrencyTypes) (position : String) :
    ParticipantState :=
  { s with
    accounts := FirstMatch.updateFirst (isAccount .position currency) (.withPosition position)
      s.accounts }

def canReserveFunds (B : BigNumber) (s : ParticipantState) (currency : CurrencyTypes)
    (amount : String) : Except EntityError Bool :=
  let incomingAmount := B.ofString amount
  if B.isNaN incomingAmount || B.isLessThanOrEqualTo incomingAmount B.zero then .ok false
  else
    match s.getAccount .position currency with
    | none => .error (.unknownAccount s.id currency)
    | some accountState =>
      match getLimitFromAccount accountState .netDebitCap with
      | none => .error (.unknownLimit s.id)
      | some limit =>
        let currentPosition := B.ofString accountState.position
        let currentLimit := B.ofString limit.value
        if B.isNaN currentPosition then .ok false
        else .ok (B.isLessThan (B.plus currentPosition incomingAmount) currentLimit)

def commitFunds (B : BigNumber) (s : ParticipantState) (currency : CurrencyTypes)
    (amount : String) : Except EntityError ParticipantState :=
  match s.getAccount .position currency with
  | none => .error (.unknownAccount s.id currency)
  | some accountState =>
    let result := B.minus (B.ofString accountState.position) (B.ofString amount)
    if B.isNaN result then .ok s else .ok (s.setPosition currency (B.toString result))

def reserveFunds (B : BigNumber) (s : ParticipantState) (currency : CurrencyTypes)
    (amount : String) : Except EntityError ParticipantState :=
  match s.canReserveFunds B currency amount with
  | .error e => .error e
  | .ok false => .error (.limitExceeded s.id amount)
  | .ok true =>
    match s.getAccount .position currency with
    -- `accountState!`: `canReserveFunds` has found the account
    | none => .error (.unknownAccount s.id currency)
    | some accountState =>
      let result := B.plus (B.ofString accountState.position) (B.ofString amount)
      if B.isNaN result then .ok s else .ok (s.setPosition currency (B.toString result))

def getCurrentPosition (s : ParticipantState) (currency : CurrencyTypes) :
    Except EntityError String :=
  match s.getAccount .position currency with
  | none => .error (.unknownAccount s.id currency)
  | some accountState => .ok accountState.position

/-! ## What an assignment to a position leaves alone -/

section SetPosition

variable (s : ParticipantState) (currency : CurrencyTypes) (position : String)

theorem getAccount_setPosition_self :
    (s.setPosition currency position).getAccount .position currency =
      (s.getAccount .position currency).map (.withPosition position) :=
  FirstMatch.find?_updateFirst (p := isAccount .position currency) (f := .withPosition position)
    (fun _ ha => ha) s.accounts

theorem getAccount_setPosition_of_ne {accType : ParticipantAccountTypes}
    {currency' : CurrencyTypes} (h : ¬ (accType = .position ∧ currency' = currency)) :
    (s.setPosition currency position).getAccount accType currency' =
      s.getAccount accType currency' := by
  have hne : ∀ a, isAccount .position currency a = true → isAccount accType currency' a = false := by
    intro a ha
    simp only [isAccount, Bool.and_eq_true, beq_iff_eq] at ha
    rw [isAccount, ha.1, ha.2, Bool.and_eq_false_iff, beq_eq_false_iff_ne, beq_eq_false_iff_ne]
    rw [Decidable.not_and_iff_or_not] at h
    exact h.imp Ne.symm Ne.symm
  exact FirstMatch.find?_updateFirst_of_disjoint (f := .withPosition position) hne hne s.accounts

theorem hasAccount_setPosition (accType : ParticipantAccountTypes) (currency' : CurrencyTypes) :
    (s.setPosition currency position).hasAccount accType currency' =
      s.hasAccount accType currency' := by
  rw [hasAccount, hasAccount]
  by_cases h : accType = .position ∧ currency' = currency
  · rw [h.1, h.2, getAccount_setPosition_self, Option.isSome_map]
  · rw [getAccount_setPosition_of_ne s currency position h]

/-- The number of accounts of a kind does not change. -/
theorem countP_setPosition (accType : ParticipantAccountTypes) (currency' : CurrencyTypes) :
    (s.setPosition currency position).accounts.countP (isAccount accType currency') =
      s.accounts.countP (isAccount accType currency') :=
  FirstMatch.countP_updateFirst (q := isAccount accType currency') (f := .withPosition position)
    (fun _ _ => rfl) s.accounts

end SetPosition

/-! ## What the two movements do -/

section Movements

variable {B : BigNumber} {s s' : ParticipantState} {currency : CurrencyTypes} {amount : String}

/-- Everything a successful reserve has checked. -/
theorem reserveFunds_ok (h : s.reserveFunds B currency amount = .ok s') :
    ∃ account limit, s.getAccount .position currency = some account ∧
      getLimitFromAccount account .netDebitCap = some limit ∧
      B.isNaN (B.ofString amount) = false ∧
      B.isLessThanOrEqualTo (B.ofString amount) B.zero = false ∧
      B.isLessThan (B.plus (B.ofString account.position) (B.ofString amount))
        (B.ofString limit.value) = true ∧
      s' = s.setPosition currency
        (B.toString (B.plus (B.ofString account.position) (B.ofString amount))) := by
  unfold reserveFunds canReserveFunds at h
  by_cases hin : B.isNaN (B.ofString amount) ||
      B.isLessThanOrEqualTo (B.ofString amount) B.zero
  · simp [hin] at h
  · cases hacc : s.getAccount .position currency with
    | none => simp [hin, hacc] at h
    | some account =>
      cases hlim : getLimitFromAccount account .netDebitCap with
      | none => simp [hin, hacc, hlim] at h
      | some limit =>
        by_cases hpos : B.isNaN (B.ofString account.position) = true
        · simp [hin, hacc, hlim, hpos] at h
        · cases hlt : B.isLessThan (B.plus (B.ofString account.position) (B.ofString amount))
            (B.ofString limit.value) with
          | false => simp [hin, hacc, hlim, hpos, hlt] at h
          | true =>
            -- a number below another one is a number
            have hnan : B.isNaN (B.plus (B.ofString account.position) (B.ofString amount)) =
                false := by
              rw [B.isLessThan_eq] at hlt
              rw [B.isNaN_eq]
              cases hv : B.value (B.plus (B.ofString account.position) (B.ofString amount)) with
              | nan => simp [hv, ExtendedRat.not_nan_lt] at hlt
              | negInf => rfl
              | fin q => rfl
              | posInf => rfl
            simp only [Bool.not_eq_true, Bool.or_eq_false_iff] at hin
            simp only [hin, hacc, hlim, hpos, hlt, hnan, Bool.or_self, Bool.false_eq_true,
              if_false, Except.ok.injEq] at h
            exact ⟨account, limit, rfl, hlim, hin.1, hin.2, hlt, h.symm⟩

/-- A commit looks at nothing but the account. -/
theorem commitFunds_ok (h : s.commitFunds B currency amount = .ok s') :
    ∃ account, s.getAccount .position currency = some account ∧
      s' = if B.isNaN (B.minus (B.ofString account.position) (B.ofString amount)) then s
        else s.setPosition currency
          (B.toString (B.minus (B.ofString account.position) (B.ofString amount))) := by
  unfold commitFunds at h
  cases hacc : s.getAccount .position currency with
  | none => simp [hacc] at h
  | some account =>
    refine ⟨account, rfl, ?_⟩
    simp only [hacc] at h
    split at h <;> rename_i hnan <;> simp only [hnan] <;> exact (Except.ok.inj h).symm

theorem commitFunds_of_hasAccount (h : s.hasAccount .position currency = true) :
    ∃ s', s.commitFunds B currency amount = .ok s' := by
  obtain ⟨account, hacc⟩ := Option.isSome_iff_exists.mp h
  rw [commitFunds, hacc]
  dsimp only
  split
  · exact ⟨s, rfl⟩
  · exact ⟨_, rfl⟩

theorem getCurrentPosition_ok {position : String}
    (h : s.getCurrentPosition currency = .ok position) :
    ∃ account, s.getAccount .position currency = some account ∧ account.position = position := by
  unfold getCurrentPosition at h
  cases hacc : s.getAccount .position currency with
  | none => simp [hacc] at h
  | some account =>
    simp only [hacc, Except.ok.injEq] at h
    exact ⟨account, rfl, h⟩

theorem getCurrentPosition_of_getAccount {account : ParticipantAccountState}
    (h : s.getAccount .position currency = some account) :
    s.getCurrentPosition currency = .ok account.position := by
  rw [getCurrentPosition, h]

theorem getCurrentPosition_setPosition {account : ParticipantAccountState}
    (h : s.getAccount .position currency = some account) (position : String) :
    (s.setPosition currency position).getCurrentPosition currency = .ok position := by
  have hacc : (s.setPosition currency position).getAccount .position currency =
      some (account.withPosition position) := by
    rw [getAccount_setPosition_self, h]
    rfl
  exact getCurrentPosition_of_getAccount hacc

/-- Both movements end in an assignment to the position, or in none. -/
def MovesTo (s : ParticipantState) (currency : CurrencyTypes) (s' : ParticipantState) : Prop :=
  s' = s ∨ ∃ position, s' = s.setPosition currency position

theorem reserveFunds_movesTo (h : s.reserveFunds B currency amount = .ok s') :
    s.MovesTo currency s' := by
  obtain ⟨_, _, _, _, _, _, _, h⟩ := reserveFunds_ok h
  exact Or.inr ⟨_, h⟩

theorem commitFunds_movesTo (h : s.commitFunds B currency amount = .ok s') :
    s.MovesTo currency s' := by
  obtain ⟨_, _, h⟩ := commitFunds_ok h
  split at h
  · exact Or.inl h
  · exact Or.inr ⟨_, h⟩

namespace MovesTo

theorem id_eq (h : s.MovesTo currency s') : s'.id = s.id := by
  rcases h with rfl | ⟨_, rfl⟩ <;> rfl

theorem endpoints_eq (h : s.MovesTo currency s') : s'.endpoints = s.endpoints := by
  rcases h with rfl | ⟨_, rfl⟩ <;> rfl

theorem partition_eq (h : s.MovesTo currency s') : s'.partition = s.partition := by
  rcases h with rfl | ⟨_, rfl⟩ <;> rfl

theorem hasAccount_eq (h : s.MovesTo currency s') (accType : ParticipantAccountTypes)
    (currency' : CurrencyTypes) : s'.hasAccount accType currency' = s.hasAccount accType currency' := by
  rcases h with rfl | ⟨position, rfl⟩
  · rfl
  · exact hasAccount_setPosition s currency position accType currency'

theorem countP_eq (h : s.MovesTo currency s') (accType : ParticipantAccountTypes)
    (currency' : CurrencyTypes) :
    s'.accounts.countP (isAccount accType currency') =
      s.accounts.countP (isAccount accType currency') := by
  rcases h with rfl | ⟨position, rfl⟩
  · rfl
  · exact countP_setPosition s currency position accType currency'

end MovesTo

end Movements

end ParticipantState

end Participants
end PocArchitecture
