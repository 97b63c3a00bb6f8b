/-
Positions as numbers.

With finite positions a reserve raises the position it works on by exactly its amount, a
commit lowers it by exactly its amount, and no other position changes.
-/
import PocArchitecture.Participants.Entity

namespace PocArchitecture
namespace Participants

open PublicMessages

namespace ParticipantState

variable {B : BigNumber} {s s' : ParticipantState} {currency : CurrencyTypes} {amount : String}

/-- The position of the first POSITION account, zero without one. -/
def positionIn (B : BigNumber) (currency : CurrencyTypes) (s : ParticipantState) : ℚ :=
  (s.getAccount .position currency).elim 0 fun account => B.rat account.position

/-- The first POSITION account of every currency has a finite decimal as its position. -/
def FinitePositions (B : BigNumber) (s : ParticipantState) : Prop :=
  ∀ currency account, s.getAccount .position currency = some account → B.Finite account.position

/-- An assignment to a position moves it by what the new value is off. -/
theorem setPosition_positions (hs : FinitePositions B s) {account : ParticipantAccountState}
    (hacc : s.getAccount .position currency = some account) {x : B.Num} {δ : ℚ}
    (hx : B.value x = .fin (B.rat account.position + δ)) :
    FinitePositions B (s.setPosition currency (B.toString x)) ∧
      ∀ currency', (s.setPosition currency (B.toString x)).positionIn B currency' =
        s.positionIn B currency' + if currency' = currency then δ else 0 := by
  have hself : (s.setPosition currency (B.toString x)).getAccount .position currency =
      some (account.withPosition (B.toString x)) := by
    rw [getAccount_setPosition_self, hacc]
    rfl
  have hvalue : B.valueOf (B.toString x) = .fin (B.rat account.position + δ) :=
    (B.valueOf_toString x).trans hx
  refine ⟨fun currency' account' hacc' => ?_, fun currency' => ?_⟩
  · by_cases hc : currency' = currency
    · subst hc
      obtain rfl := Option.some.inj (hself.symm.trans hacc')
      exact ⟨_, hvalue⟩
    · rw [getAccount_setPosition_of_ne _ _ _ fun h => hc h.2] at hacc'
      exact hs currency' account' hacc'
  · by_cases hc : currency' = currency
    · subst hc
      rw [if_pos rfl, positionIn, hself, positionIn, hacc]
      exact BigNumber.rat_of_valueOf hvalue
    · rw [if_neg hc, add_zero, positionIn, positionIn,
        getAccount_setPosition_of_ne _ _ _ fun h => hc h.2]

/-- A reserve that goes through brought a positive amount, if the position is finite. -/
theorem positive_of_reserveFunds (hs : FinitePositions B s)
    (h : s.reserveFunds B currency amount = .ok s') : B.Positive amount := by
  obtain ⟨account, limit, hacc, -, hnan, hpos, hlt, -⟩ := reserveFunds_ok h
  obtain ⟨p, hp⟩ := hs currency account hacc
  rw [B.isNaN_eq] at hnan
  rw [B.isLessThanOrEqualTo_eq, B.value_zero] at hpos
  rw [B.isLessThan_eq, B.value_plus_ofString, hp] at hlt
  exact ExtendedRat.fin_of_add_lt hpos hnan hlt

theorem reserveFunds_positions (hs : FinitePositions B s)
    (h : s.reserveFunds B currency amount = .ok s') :
    FinitePositions B s' ∧ ∀ currency', s'.positionIn B currency' =
      s.positionIn B currency' + if currency' = currency then B.rat amount else 0 := by
  have hamount := BigNumber.valueOf_eq_rat (positive_of_reserveFunds hs h).finite
  obtain ⟨account, _, hacc, -, -, -, -, rfl⟩ := reserveFunds_ok h
  have hp := BigNumber.valueOf_eq_rat (hs currency account hacc)
  refine setPosition_positions hs hacc ?_
  rw [B.value_plus_ofString, hp, hamount, ExtendedRat.add_fin]

theorem commitFunds_positions (hs : FinitePositions B s) (hfinite : B.Finite amount)
    (h : s.commitFunds B currency amount = .ok s') :
    FinitePositions B s' ∧ ∀ currency', s'.positionIn B currency' =
      s.positionIn B currency' + if currency' = currency then -B.rat amount else 0 := by
  obtain ⟨account, hacc, rfl⟩ := commitFunds_ok h
  have hamount := BigNumber.valueOf_eq_rat hfinite
  have hp := BigNumber.valueOf_eq_rat (hs currency account hacc)
  have hvalue : B.value (B.minus (B.ofString account.position) (B.ofString amount)) =
      .fin (B.rat account.position + -B.rat amount) := by
    rw [B.value_minus_ofString, hp, hamount, ExtendedRat.sub_fin, sub_eq_add_neg]
  -- a finite difference is a number, so the assignment is made
  rw [B.isNaN_eq, hvalue, if_neg (by exact Bool.false_ne_true)]
  exact setPosition_positions hs hacc hvalue

end ParticipantState

end Participants
end PocArchitecture
