/-
Room below the net debit cap.

A reserve compares the position it would lead to with the limit, and no command changes a
limit.  So whoever had room for a position when it was first seen has room for it ever
after, and for every lower one.
-/
import PocArchitecture.Participants.Accounting
import PocArchitecture.Participants.Limits
import PocArchitecture.Participants.Outcome

namespace PocArchitecture
namespace Participants

open PublicMessages Infrastructure

/-- The limit of the account leaves room for this position. -/
def HasRoom (B : BigNumber) (p : ParticipantState) (currency : CurrencyTypes) (position : ℚ) :
    Prop :=
  ∃ account limit, p.getAccount .position currency = some account ∧
    getLimitFromAccount account .netDebitCap = some limit ∧
    (ExtendedRat.fin position).lt (B.valueOf limit.value) = true

section Room

variable {B : BigNumber} {p q : ParticipantState} {currency : CurrencyTypes} {x y : ℚ}

/-- Two participants that differ in positions only have the same accounts and limits. -/
theorem ParticipantState.limits_of_blank (h : q.blank = p.blank) {account : ParticipantAccountState}
    (hacc : p.getAccount .position currency = some account) :
    ∃ account', q.getAccount .position currency = some account' ∧
      account'.limits = account.limits := by
  have hwiped : ∀ s : ParticipantState, s.blank.getAccount .position currency =
      (s.getAccount .position currency).map (.withPosition "") := by
    intro s
    exact List.find?_map
  have hq := hwiped q
  rw [h, hwiped p, hacc] at hq
  obtain ⟨account', hacc', hsame⟩ := Option.map_eq_some_iff.mp hq.symm
  refine ⟨account', hacc', ?_⟩
  show (account'.withPosition "").limits = (account.withPosition "").limits
  rw [hsame]

theorem ParticipantState.hasAccount_of_blank (h : q.blank = p.blank)
    (hacc : p.hasAccount .position currency = true) : q.hasAccount .position currency = true := by
  obtain ⟨account, haccount⟩ := Option.isSome_iff_exists.mp hacc
  obtain ⟨account', haccount', -⟩ := ParticipantState.limits_of_blank h haccount
  rw [ParticipantState.hasAccount, haccount', Option.isSome_some]

theorem HasRoom.of_blank (h : HasRoom B p currency x) (hblank : q.blank = p.blank) :
    HasRoom B q currency x := by
  obtain ⟨account, limit, hacc, hlimit, hlt⟩ := h
  obtain ⟨account', hacc', hlimits⟩ := ParticipantState.limits_of_blank hblank hacc
  refine ⟨account', limit, hacc', ?_, hlt⟩
  rw [getLimitFromAccount, hlimits]
  exact hlimit

theorem HasRoom.of_le (h : HasRoom B p currency x) (hle : y ≤ x) : HasRoom B p currency y := by
  obtain ⟨account, limit, hacc, hlimit, hlt⟩ := h
  exact ⟨account, limit, hacc, hlimit, ExtendedRat.lt_of_lt_of_le hlt hle⟩

end Room

namespace ParticpantsAgg

variable {B : BigNumber} {w w' : World} {cmd : Command} {id : String}

/-- A reserve goes through when the payer has room for the position it leads to. -/
theorem reservable_of_room {terms : TransferTerms} {payer : ParticipantState}
    (hpayer : stored w terms.payerId = some payer) (hfinite : payer.FinitePositions B)
    (hpayee : HasPosition w terms.payeeId terms.currency) (hamount : B.Positive terms.amount)
    (hroom : HasRoom B payer terms.currency
      (payer.positionIn B terms.currency + B.rat terms.amount)) : Reservable B w terms := by
  obtain ⟨payee, hpayee, hpayeeacc⟩ := hpayee
  obtain ⟨account, limit, hacc, hlimit, hlt⟩ := hroom
  have hposition := BigNumber.valueOf_eq_rat (hfinite terms.currency account hacc)
  have hvalue := BigNumber.valueOf_eq_rat hamount.finite
  refine ⟨payer, payee, account, limit, hpayer, hpayee, hpayeeacc, hacc, hlimit, ?_, ?_⟩
  · obtain ⟨q, hq, hpos⟩ := hamount
    rw [hq, ExtendedRat.lt_fin, decide_eq_true_eq]
    exact hpos
  · rw [hposition, hvalue, ExtendedRat.add_fin]
    rw [ParticipantState.positionIn, hacc] at hlt
    exact hlt

theorem WellKept.cached (hw : WellKept redisParticipantStateRepo w) (hall : AllStored w) :
    Cached w where
  keyed _ _ hs := hw.lookup_id (Domain.BaseEventSourcingAggregate.lookup_of_view hs)
  allStored := hall

/-- Whoever is stored stays, with the same accounts and limits. -/
theorem Effect.keeps {msgs : List Message} (h : Effect B w cmd w' msgs) {p : ParticipantState}
    (hp : stored w id = some p) : ∃ p', stored w' id = some p' ∧ p'.blank = p.blank := by
  cases h with
  | still hsame hnot hsilent => exact ⟨p, (hsame id).trans hp, rfl⟩
  | create participant hcmd hnew hself hother hmsgs =>
    have hne : id ≠ participant.id := by
      intro hid
      rw [hid, hnew] at hp
      cases hp
    exact ⟨p, (hother id hne).trans hp, rfl⟩
  | move root root' hmoves hroot hself hother hmsgs =>
    by_cases hid : id = cmd.rootId
    · subst hid
      obtain rfl := Option.some.inj (hroot.symm.trans hp)
      exact ⟨root', hself, hmoves.blank_eq⟩
    · exact ⟨p, (hother id hid).trans hp, rfl⟩

end ParticpantsAgg

end Participants
end PocArchitecture
