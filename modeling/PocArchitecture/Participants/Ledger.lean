/-
The account of each participant.

`Books` has one sum for all participants.  Here everyone has an account: the reserves it
pays for on one side, the commits it is paid by on the other.  A participant has gained the
balance of its account, and each effect of a command is posted to the account of the
participant whose position it moves.
-/
import PocArchitecture.Participants.Accounting

namespace PocArchitecture
namespace Participants

open PublicMessages Infrastructure

namespace ParticpantsAgg

/-- What the participant reserves under the terms. -/
def debit (B : BigNumber) (currency : CurrencyTypes) (id : String) (terms : TransferTerms) : ℚ :=
  if id = terms.payerId then amountIn B currency terms else 0

/-- What is committed to the participant under the terms. -/
def credit (B : BigNumber) (currency : CurrencyTypes) (id : String) (terms : TransferTerms) : ℚ :=
  if id = terms.payeeId then amountIn B currency terms else 0

/-- The balance of the account. -/
def balance (B : BigNumber) (currency : CurrencyTypes) (id : String)
    (reserved committed : List TransferTerms) : ℚ :=
  (reserved.map (debit B currency id)).sum - (committed.map (credit B currency id)).sum

/-- Everyone has gained the balance of its account. -/
def Posted (B : BigNumber) (w : World) (created : List ParticipantState)
    (reserved committed : List TransferTerms) : Prop :=
  ∀ p ∈ created, ∀ currency, gain B w currency p = balance B currency p.id reserved committed

variable {B : BigNumber} {w w' : World} {cmd : Command} {created : List ParticipantState}
  {reserved committed : List TransferTerms} {currency : CurrencyTypes} {id : String}

theorem balance_reserve (terms : TransferTerms) :
    balance B currency id (reserved ++ [terms]) committed =
      balance B currency id reserved committed + debit B currency id terms := by
  rw [balance, List.map_append, List.sum_append, List.map_singleton, List.sum_singleton, balance]
  abel

theorem balance_commit (terms : TransferTerms) :
    balance B currency id reserved (committed ++ [terms]) =
      balance B currency id reserved committed - credit B currency id terms := by
  rw [balance, List.map_append, List.sum_append, List.map_singleton, List.sum_singleton, balance]
  abel

/-- Terms that do not name the participant have no place in its account. -/
theorem balance_eq_zero (hreserved : ∀ terms ∈ reserved, id ≠ terms.payerId)
    (hcommitted : ∀ terms ∈ committed, id ≠ terms.payeeId) :
    balance B currency id reserved committed = 0 := by
  have hdebit : (reserved.map (debit B currency id)).sum = 0 := by
    apply List.sum_eq_zero
    intro x hx
    obtain ⟨terms, hterms, rfl⟩ := List.mem_map.mp hx
    exact if_neg (hreserved terms hterms)
  have hcredit : (committed.map (credit B currency id)).sum = 0 := by
    apply List.sum_eq_zero
    intro x hx
    obtain ⟨terms, hterms, rfl⟩ := List.mem_map.mp hx
    exact if_neg (hcommitted terms hterms)
  rw [balance, hdebit, hcredit, sub_zero]

/-- Amounts that are not negative make no negative entries. -/
theorem amountIn_nonneg {terms : TransferTerms} (h : 0 ≤ B.rat terms.amount) :
    0 ≤ amountIn B currency terms := by
  rw [amountIn]
  split
  · exact h
  · exact le_refl 0

theorem debit_nonneg {terms : TransferTerms} (h : 0 ≤ B.rat terms.amount) :
    0 ≤ debit B currency id terms := by
  rw [debit]
  split
  · exact amountIn_nonneg h
  · exact le_refl 0

theorem credit_nonneg {terms : TransferTerms} (h : 0 ≤ B.rat terms.amount) :
    0 ≤ credit B currency id terms := by
  rw [credit]
  split
  · exact amountIn_nonneg h
  · exact le_refl 0

/-- Commits only lower the balance. -/
theorem balance_le (h : ∀ terms ∈ committed, 0 ≤ B.rat terms.amount) :
    balance B currency id reserved committed ≤ (reserved.map (debit B currency id)).sum := by
  have hcredits : 0 ≤ (committed.map (credit B currency id)).sum := by
    apply List.sum_nonneg
    intro x hx
    obtain ⟨terms, hterms, rfl⟩ := List.mem_map.mp hx
    exact credit_nonneg (h terms hterms)
  exact sub_le_self _ hcredits

theorem gain_congr {p : ParticipantState} (h : stored w' p.id = stored w p.id) :
    gain B w' currency p = gain B w currency p := by
  rw [gain, gain, h]

theorem gain_moved {p : ParticipantState} {root root' : ParticipantState} {δ : ℚ}
    (hroot : stored w p.id = some root) (hself : stored w' p.id = some root')
    (hmoved : root'.positionIn B currency = root.positionIn B currency + δ) :
    gain B w' currency p = gain B w currency p + δ := by
  rw [gain, gain, hroot, hself, Option.elim_some, Option.elim_some, hmoved]
  abel

/-- Parties of a reserve are there. -/
theorem HasPosition.mem_created (hbooks : Books B w created reserved committed)
    (h : HasPosition w id currency) : id ∈ created.map (·.id) := by
  obtain ⟨p, hp, -⟩ := h
  apply (hbooks.everyone id).mp
  rw [hp]
  rfl

namespace Posted

theorem start (partitioner : String → Nat) :
    Posted B (ParticpantsAgg.start partitioner) [] [] [] :=
  fun _ hp => absurd hp List.not_mem_nil

theorem still (h : Posted B w created reserved committed)
    (hsame : ∀ id, stored w' id = stored w id) : Posted B w' created reserved committed := by
  intro p hp currency
  rw [gain_congr (hsame p.id)]
  exact h p hp currency

/-- One position moves, and the account of its owner with it. -/
theorem move (h : Posted B w created reserved committed) {root root' : ParticipantState}
    (hroot : stored w id = some root) (hself : stored w' id = some root')
    (hother : ∀ id', id' ≠ id → stored w' id' = stored w id') {δ : CurrencyTypes → ℚ}
    (hmoved : ∀ currency, root'.positionIn B currency = root.positionIn B currency + δ currency)
    {reserved' committed' : List TransferTerms}
    (hbalance : ∀ id' currency, balance B currency id' reserved' committed' =
      balance B currency id' reserved committed + if id' = id then δ currency else 0) :
    Posted B w' created reserved' committed' := by
  intro p hp currency
  rw [hbalance]
  by_cases hid : p.id = id
  · subst hid
    rw [if_pos rfl, gain_moved hroot hself (hmoved currency), h p hp currency]
  · rw [if_neg hid, add_zero, gain_congr (hother p.id hid)]
    exact h p hp currency

theorem silent {msgs : List Message} (h : Posted B w created reserved committed)
    (heff : Effect B w cmd w' msgs)
    (hnobody : ∀ p, cmd = .createParticipantCmd p → .participantCreatedEvt p.id p.name ∉ msgs)
    (hnot : ¬ Admits redisParticipantStateRepo B w cmd) : Posted B w' created reserved committed := by
  cases heff with
  | still hsame hnot hsilent => exact h.still hsame
  | create participant hcmd hnew hself hother hmsgs =>
    have hmem := hnobody participant hcmd
    rw [hmsgs] at hmem
    exact absurd List.mem_cons_self hmem
  | move root root' hmoves => exact absurd (admits_iff.mpr ⟨root, root', hmoves⟩) hnot

/-- A new participant starts with an empty account. -/
theorem create {msgs : List Message} (h : Posted B w created reserved committed)
    (hbooks : Books B w created reserved committed) (hcommitted : ∀ terms ∈ committed, terms ∈ reserved)
    {p : ParticipantState} (heff : Effect B w (.createParticipantCmd p) w' msgs)
    (hmsg : .participantCreatedEvt p.id p.name ∈ msgs) :
    Posted B w' (created ++ [p]) reserved committed := by
  cases heff with
  | still hsame hnot hsilent => exact absurd rfl ((hsilent _ hmsg).2 p.id p.name)
  | move root root' hmoves => exact hmoves.elim
  | create participant hcmd hnew hself hother hmsgs =>
    cases hcmd
    have habsent : p.id ∉ created.map (·.id) := by
      intro hmem
      have hsome := (hbooks.everyone p.id).mpr hmem
      rw [hnew] at hsome
      cases hsome
    intro q hq currency
    rcases List.mem_append.mp hq with hq | hq
    · have hne : q.id ≠ p.id := fun hid => habsent (hid ▸ List.mem_map_of_mem hq)
      rw [gain_congr (hother q.id hne)]
      exact h q hq currency
    · obtain rfl := List.mem_singleton.mp hq
      have hgain : gain B w' currency q = 0 := by
        rw [gain, hself]
        exact sub_self _
      rw [hgain, balance_eq_zero]
      · intro terms ht hid
        apply habsent
        rw [hid]
        exact (hbooks.backed terms ht).payer.mem_created hbooks
      · intro terms ht hid
        apply habsent
        rw [hid]
        exact (hbooks.backed terms (hcommitted terms ht)).payee.mem_created hbooks

/-- A reserve is posted to the payer. -/
theorem reserve {msgs : List Message} (h : Posted B w created reserved committed)
    (hbooks : Books B w created reserved committed) {terms : TransferTerms}
    (heff : Effect B w (.reservePayerFundsCmd terms) w' msgs)
    (hadmits : Admits redisParticipantStateRepo B w (.reservePayerFundsCmd terms)) :
    Posted B w' created (reserved ++ [terms]) committed := by
  cases heff with
  | still hsame hnot hsilent => exact absurd hadmits hnot
  | create participant hcmd => cases hcmd
  | move root root' hmoves hroot hself hother hmsgs =>
    obtain ⟨-, -, hreserve⟩ := hmoves
    obtain ⟨-, hposition⟩ := ParticipantState.reserveFunds_positions (hbooks.finite _ root hroot)
      hreserve
    apply h.move hroot hself hother hposition
    intro id currency
    rw [balance_reserve]
    rfl

/-- A commit is posted to the payee. -/
theorem commit {msgs : List Message} (h : Posted B w created reserved committed)
    (hbooks : Books B w created reserved committed) {terms : TransferTerms}
    (heff : Effect B w (.commitPayeeFundsCmd terms) w' msgs) (hterms : terms ∈ reserved) :
    Posted B w' created reserved (committed ++ [terms]) := by
  have hbacked := hbooks.backed terms hterms
  cases heff with
  | still hsame hnot hsilent => exact absurd hbacked.admits hnot
  | create participant hcmd => cases hcmd
  | move root root' hmoves hroot hself hother hmsgs =>
    obtain ⟨-, -, hcommit⟩ := hmoves
    obtain ⟨-, hposition⟩ := ParticipantState.commitFunds_positions (hbooks.finite _ root hroot)
      hbacked.amount hcommit
    apply h.move hroot hself hother hposition
    intro id currency
    rw [balance_commit, credit, amountIn, sub_eq_add_neg]
    change _ = _ + if id = terms.payeeId then _ else _
    split
    · split
      · rfl
      · rw [neg_zero]
    · rw [neg_zero]

end Posted

end ParticpantsAgg

end Participants
end PocArchitecture
