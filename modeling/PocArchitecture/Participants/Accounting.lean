/-
The books of the participants.

`Books` compares the participants with three lists: who was created, which reserves went
through, which commits were processed.  Everyone in the cache was created once, the funds
of a reserve can still be committed, and in every currency what the participants have
gained since their creation is what was reserved less what was committed.  Each effect of
a command makes its entry in one of the lists.
-/
import PocArchitecture.Lib.KeyedSum
import PocArchitecture.Participants.FailureFree
import PocArchitecture.Participants.Positions

namespace PocArchitecture
namespace Participants

open PublicMessages Infrastructure
open Domain.BaseEventSourcingAggregate (lookup_of_view)

namespace ParticpantsAgg

variable {B : BigNumber} {w w' : World} {cmd : Command} {created : List ParticipantState}
  {reserved committed : List TransferTerms}

/-- What a participant has gained since its creation. -/
def gain (B : BigNumber) (w : World) (currency : CurrencyTypes) (p : ParticipantState) : ℚ :=
  (stored w p.id).elim 0 (·.positionIn B currency) - p.positionIn B currency

/-- The amount of the terms, if they are in this currency. -/
def amountIn (B : BigNumber) (currency : CurrencyTypes) (terms : TransferTerms) : ℚ :=
  if currency = terms.currency then B.rat terms.amount else 0

def HasPosition (w : World) (id : String) (currency : CurrencyTypes) : Prop :=
  ∃ s, stored w id = some s ∧ s.hasAccount .position currency = true

/-- A commit of these terms would go through, and move a finite amount. -/
structure Backed (B : BigNumber) (w : World) (terms : TransferTerms) : Prop where
  amount : B.Finite terms.amount
  payer : HasPosition w terms.payerId terms.currency
  payee : HasPosition w terms.payeeId terms.currency

structure Books (B : BigNumber) (w : World) (created : List ParticipantState)
    (reserved committed : List TransferTerms) : Prop where
  everyone : ∀ id, (stored w id).isSome = true ↔ id ∈ created.map (·.id)
  once : (created.map (·.id)).Nodup
  finite : ∀ id s, stored w id = some s → s.FinitePositions B
  backed : ∀ terms ∈ reserved, Backed B w terms
  balance : ∀ currency, (created.map (gain B w currency)).sum =
    (reserved.map (amountIn B currency)).sum - (committed.map (amountIn B currency)).sum

theorem Backed.admits (h : Backed B w terms) :
    Admits redisParticipantStateRepo B w (.commitPayeeFundsCmd terms) := by
  obtain ⟨payer, hpayer, hpayeracc⟩ := h.payer
  obtain ⟨payee, hpayee, hpayeeacc⟩ := h.payee
  exact ⟨payee, payer, lookup_of_view hpayee, hpayeeacc, hpayer, hpayeracc⟩

/-- Accounts stay. -/
theorem Effect.hasPosition {msgs : List Message} (h : Effect B w cmd w' msgs) {id : String}
    {currency : CurrencyTypes} (hpos : HasPosition w id currency) : HasPosition w' id currency := by
  obtain ⟨s, hs, hacc⟩ := hpos
  cases h with
  | still hsame hnot hsilent => exact ⟨s, (hsame id).trans hs, hacc⟩
  | create participant hcmd hnew hself hother hmsgs =>
    refine ⟨s, (hother id fun hid => ?_).trans hs, hacc⟩
    rw [hid, hnew] at hs
    cases hs
  | move root root' hmoves hroot hself hother hmsgs =>
    by_cases hid : id = cmd.rootId
    · subst hid
      obtain rfl := Option.some.inj (hroot.symm.trans hs)
      obtain ⟨terms, -, hto⟩ := hmoves.movesTo
      exact ⟨root', hself, (hto.hasAccount_eq .position currency).trans hacc⟩
    · exact ⟨s, (hother id hid).trans hs, hacc⟩

theorem Effect.backed {msgs : List Message} (h : Effect B w cmd w' msgs) {terms : TransferTerms}
    (hterms : Backed B w terms) : Backed B w' terms where
  amount := hterms.amount
  payer := h.hasPosition hterms.payer
  payee := h.hasPosition hterms.payee

namespace Books

theorem start (partitioner : String → Nat) :
    Books B (ParticpantsAgg.start partitioner) [] [] [] where
  everyone id := ⟨fun h => (by cases h), fun h => absurd h List.not_mem_nil⟩
  once := List.nodup_nil
  finite id s h := by cases h
  backed terms h := absurd h List.not_mem_nil
  balance currency := (sub_zero (0 : ℚ)).symm

theorem still (h : Books B w created reserved committed)
    (hsame : ∀ id, stored w' id = stored w id) : Books B w' created reserved committed where
  everyone id := by rw [hsame]; exact h.everyone id
  once := h.once
  finite id s hs := h.finite id s ((hsame id).symm.trans hs)
  backed terms ht := by
    obtain ⟨hamount, ⟨payer, hpayer, hpayeracc⟩, payee, hpayee, hpayeeacc⟩ := h.backed terms ht
    exact ⟨hamount, ⟨payer, (hsame _).trans hpayer, hpayeracc⟩,
      ⟨payee, (hsame _).trans hpayee, hpayeeacc⟩⟩
  balance currency := by
    have hgain : gain B w' currency = gain B w currency :=
      funext fun p => by rw [gain, gain, hsame]
    rw [hgain]
    exact h.balance currency

/-- A position that moves by `δ` moves the sum of all gains by `δ`. -/
theorem sum_gain (h : Books B w created reserved committed) {id : String}
    {root root' : ParticipantState} (hroot : stored w id = some root)
    (hself : stored w' id = some root')
    (hother : ∀ id', id' ≠ id → stored w' id' = stored w id') {currency : CurrencyTypes} {δ : ℚ}
    (hmoved : root'.positionIn B currency = root.positionIn B currency + δ) :
    (created.map (gain B w' currency)).sum = (created.map (gain B w currency)).sum + δ := by
  obtain ⟨p, hp, hid⟩ := List.mem_map.mp ((h.everyone id).mp (by rw [hroot]; rfl))
  subst hid
  refine KeyedSum.sum_map_update h.once hp ?_ fun b _ hne => by rw [gain, gain, hother b.id hne]
  rw [gain, gain, hself, hroot, Option.elim_some, Option.elim_some, hmoved]
  abel

/-- A movement of the root leaves the list of participants and their finite positions as
they are, and the funds of every reserve committable. -/
theorem move (h : Books B w created reserved committed)
    (hkeep : ∀ terms, Backed B w terms → Backed B w' terms) {root root' : ParticipantState}
    (hroot : stored w cmd.rootId = some root) (hself : stored w' cmd.rootId = some root')
    (hother : ∀ id, id ≠ cmd.rootId → stored w' id = stored w id)
    (hfinite : root'.FinitePositions B) {reserved' committed' : List TransferTerms}
    (hbacked : ∀ terms ∈ reserved', terms ∈ reserved ∨ Backed B w terms)
    (hmoved : ∀ currency, root'.positionIn B currency = root.positionIn B currency +
      ((reserved'.map (amountIn B currency)).sum - (committed'.map (amountIn B currency)).sum -
        ((reserved.map (amountIn B currency)).sum - (committed.map (amountIn B currency)).sum))) :
    Books B w' created reserved' committed' where
  everyone id := by
    by_cases hid : id = cmd.rootId
    · subst hid
      rw [← h.everyone, hself, hroot]
      rfl
    · rw [hother id hid]
      exact h.everyone id
  once := h.once
  finite id s hs := by
    by_cases hid : id = cmd.rootId
    · subst hid
      rwa [← Option.some.inj (hself.symm.trans hs)]
    · exact h.finite id s ((hother id hid).symm.trans hs)
  backed terms ht := (hbacked terms ht).elim (fun ht => hkeep terms (h.backed terms ht)) (hkeep terms)
  balance currency := by
    rw [h.sum_gain hroot hself hother (hmoved currency), h.balance currency]
    abel

/-- Nobody was created and nothing was to be moved. -/
theorem silent {msgs : List Message} (h : Books B w created reserved committed)
    (heff : Effect B w cmd w' msgs)
    (hnobody : ∀ p, cmd = .createParticipantCmd p → .participantCreatedEvt p.id p.name ∉ msgs)
    (hnot : ¬ Admits redisParticipantStateRepo B w cmd) : Books B w' created reserved committed := by
  cases heff with
  | still hsame hnot hsilent => exact h.still hsame
  | create participant hcmd hnew hself hother hmsgs =>
    have hmem := hnobody participant hcmd
    rw [hmsgs] at hmem
    exact absurd List.mem_cons_self hmem
  | move root root' hmoves => exact absurd (admits_iff.mpr ⟨root, root', hmoves⟩) hnot

/-- The entry of a created participant. -/
theorem create {msgs : List Message} (h : Books B w created reserved committed)
    {p : ParticipantState} (heff : Effect B w (.createParticipantCmd p) w' msgs)
    (hmsg : .participantCreatedEvt p.id p.name ∈ msgs) (hfinite : p.FinitePositions B) :
    Books B w' (created ++ [p]) reserved committed := by
  have hkeep : ∀ t, Backed B w t → Backed B w' t := fun _ => heff.backed
  cases heff with
  | still hsame hnot hsilent => exact absurd rfl ((hsilent _ hmsg).2 p.id p.name)
  | move root root' hmoves => exact hmoves.elim
  | create participant hcmd hnew hself hother hmsgs =>
    cases hcmd
    have habsent : p.id ∉ created.map (·.id) := fun hmem => by
      have hsome := (h.everyone p.id).mpr hmem
      rw [hnew] at hsome
      cases hsome
    refine { everyone := fun id => ?_, once := ?_, finite := fun id s hs => ?_,
             backed := fun t ht => hkeep t (h.backed t ht), balance := fun currency => ?_ }
    · rw [List.map_append, List.map_singleton, List.mem_append, List.mem_singleton]
      by_cases hid : id = p.id
      · subst hid
        rw [hself]
        exact ⟨fun _ => Or.inr rfl, fun _ => rfl⟩
      · rw [hother id hid, h.everyone id]
        exact ⟨Or.inl, fun hmem => hmem.elim (fun hm => hm) fun he => absurd he hid⟩
    · rw [List.map_append, List.map_singleton]
      exact List.nodup_append.mpr ⟨h.once, List.nodup_singleton _, fun a ha b hb hab => by
        obtain rfl := List.mem_singleton.mp hb
        exact habsent (hab ▸ ha)⟩
    · by_cases hid : id = p.id
      · subst hid
        rwa [← Option.some.inj (hself.symm.trans hs)]
      · exact h.finite id s ((hother id hid).symm.trans hs)
    · have hothers : created.map (gain B w' currency) = created.map (gain B w currency) :=
        List.map_congr_left fun b hb => by
          rw [gain, gain, hother b.id fun hid => habsent (hid ▸ List.mem_map_of_mem hb)]
      have hp : gain B w' currency p = 0 := by
        rw [gain, hself]
        exact sub_self _
      rw [List.map_append, List.sum_append, List.map_singleton, List.sum_singleton, hothers, hp,
        add_zero]
      exact h.balance currency

/-- The entry of a reserve that went through. -/
theorem reserve {msgs : List Message} (h : Books B w created reserved committed)
    {terms : TransferTerms} (heff : Effect B w (.reservePayerFundsCmd terms) w' msgs)
    (hadmits : Admits redisParticipantStateRepo B w (.reservePayerFundsCmd terms)) :
    Books B w' created (reserved ++ [terms]) committed := by
  have hkeep : ∀ t, Backed B w t → Backed B w' t := fun _ => heff.backed
  cases heff with
  | still hsame hnot hsilent => exact absurd hadmits hnot
  | create participant hcmd => cases hcmd
  | move root root' hmoves hroot hself hother hmsgs =>
    obtain ⟨hlookup, ⟨payee, hpayee, hpayeeacc⟩, hreserve⟩ := hmoves
    have hfinite := h.finite _ root hroot
    obtain ⟨hfinite', hposition⟩ := ParticipantState.reserveFunds_positions hfinite hreserve
    have hpayer : HasPosition w terms.payerId terms.currency := by
      obtain ⟨account, _, hacc, -⟩ := ParticipantState.reserveFunds_ok hreserve
      exact ⟨root, hroot, by rw [ParticipantState.hasAccount, hacc]; rfl⟩
    refine h.move hkeep hroot hself hother hfinite' (fun t ht => ?_) fun currency => ?_
    · rcases List.mem_append.mp ht with ht | ht
      · exact Or.inl ht
      · obtain rfl := List.mem_singleton.mp ht
        exact Or.inr
          { amount := (ParticipantState.positive_of_reserveFunds hfinite hreserve).finite
            payer := hpayer, payee := ⟨payee, hpayee, hpayeeacc⟩ }
    · rw [hposition currency, List.map_append, List.sum_append, List.map_singleton,
        List.sum_singleton, amountIn]
      abel

/-- The entry of a commit: the funds of a reserve can be committed, so it goes through. -/
theorem commit {msgs : List Message} (h : Books B w created reserved committed)
    {terms : TransferTerms} (heff : Effect B w (.commitPayeeFundsCmd terms) w' msgs)
    (hterms : terms ∈ reserved) : Books B w' created reserved (committed ++ [terms]) := by
  have hbacked := h.backed terms hterms
  have hkeep : ∀ t, Backed B w t → Backed B w' t := fun _ => heff.backed
  cases heff with
  | still hsame hnot hsilent => exact absurd hbacked.admits hnot
  | create participant hcmd => cases hcmd
  | move root root' hmoves hroot hself hother hmsgs =>
    obtain ⟨hlookup, -, hcommit⟩ := hmoves
    obtain ⟨hfinite', hposition⟩ := ParticipantState.commitFunds_positions (h.finite _ root hroot)
      hbacked.amount hcommit
    refine h.move hkeep hroot hself hother hfinite' (fun t ht => Or.inl ht) fun currency => ?_
    rw [hposition currency, List.map_append, List.sum_append, List.map_singleton,
      List.sum_singleton, amountIn]
    split <;> abel

end Books

end ParticpantsAgg

end Participants
end PocArchitecture
