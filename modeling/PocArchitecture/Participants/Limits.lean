/-
Positions and their limits.

`SameAccounts` relates two participants that show the same first accounts and differ in
positions at most where no load looks; replay keeps it even when it rewrites more than
one account.  `lookup_after` says what a load can find after a command in these terms,
and from it a cap that holds when a participant is created holds of everything that is
ever loaded, provided no commit brings an amount that is not positive.
-/
import PocArchitecture.Participants.LaterLoads
import PocArchitecture.Participants.Positions

namespace PocArchitecture
namespace Participants

open PublicMessages Infrastructure
open Domain (Loaded PublishOutcome Settled)
open Domain.BaseEventSourcingAggregate

namespace ParticipantState

/-- The participant with every position wiped out: what no movement changes. -/
def blank (s : ParticipantState) : ParticipantState :=
  { s with accounts := s.accounts.map (.withPosition "") }

/-- Every question about a position gets the same answer. -/
structure SameAccounts (s t : ParticipantState) : Prop where
  getAccount : ∀ currency, s.getAccount .position currency = t.getAccount .position currency
  blank : s.blank = t.blank

theorem SameAccounts.refl (s : ParticipantState) : s.SameAccounts s :=
  { getAccount := fun _ => rfl, blank := rfl }

theorem blank_setPosition (s : ParticipantState) (currency : CurrencyTypes) (position : String) :
    (s.setPosition currency position).blank = s.blank :=
  congrArg (fun accounts => { s with accounts := accounts })
    (FirstMatch.map_updateFirst (p := isAccount .position currency) (f := .withPosition position)
      (g := .withPosition "") (fun _ _ => rfl) s.accounts)

/-- What replay does to the accounts. -/
def rewritePositions (s : ParticipantState) (currency : CurrencyTypes) (position : String) :
    ParticipantState :=
  { s with
    accounts := FirstMatch.updateEvery (isAccount .position currency) (.withPosition position)
      s.accounts }

theorem getAccount_rewritePositions_self (s : ParticipantState) (currency : CurrencyTypes)
    (position : String) :
    (s.rewritePositions currency position).getAccount .position currency =
      (s.getAccount .position currency).map (.withPosition position) :=
  FirstMatch.find?_updateEvery (p := isAccount .position currency) (f := .withPosition position)
    (fun _ ha => ha) s.accounts

theorem getAccount_rewritePositions_of_ne (s : ParticipantState) {currency currency' : CurrencyTypes}
    (position : String) (h : currency' ≠ currency) :
    (s.rewritePositions currency position).getAccount .position currency' =
      s.getAccount .position currency' := by
  have hne : ∀ a, isAccount .position currency a = true →
      isAccount .position currency' a = false := by
    intro a ha
    simp only [isAccount, Bool.and_eq_true, beq_iff_eq] at ha
    rw [isAccount, ha.2, beq_eq_false_iff_ne.mpr h.symm, Bool.and_false]
  exact FirstMatch.find?_updateEvery_of_disjoint (f := .withPosition position) hne hne s.accounts

theorem blank_rewritePositions (s : ParticipantState) (currency : CurrencyTypes)
    (position : String) : (s.rewritePositions currency position).blank = s.blank := by
  refine congrArg (fun accounts => { s with accounts := accounts }) ?_
  rw [rewritePositions, FirstMatch.updateEvery, List.map_map]
  refine List.map_congr_left fun a _ => ?_
  rw [Function.comp_apply]
  split <;> rfl

theorem MovesTo.blank_eq {s s' : ParticipantState} {currency : CurrencyTypes}
    (h : s.MovesTo currency s') : s'.blank = s.blank := by
  rcases h with rfl | ⟨position, rfl⟩
  · rfl
  · exact blank_setPosition s currency position

end ParticipantState

namespace ParticpantsAgg

open ParticipantState (SameAccounts)

variable {R : StateRepo ParticipantState} {B : BigNumber} {f : Faults} {w : World} {cmd : Command}

/-- Replay of a movement shows the accounts the movement left. -/
theorem sameAccounts_of_replay {root root' s : ParticipantState} {currency : CurrencyTypes}
    {position : String} {evt : ParticipantPositionChangedStateEvtPayload}
    (hto : root.MovesTo currency root') (hpos : root'.getCurrentPosition currency = .ok position)
    (hcurrency : evt.currency = currency) (hposition : evt.currentPosition = position)
    (h : applyPositionChangedStateEvent root evt = some s) : s.SameAccounts root' := by
  obtain ⟨account, hacc, rfl⟩ := ParticipantState.getCurrentPosition_ok hpos
  rw [applyPositionChangedStateEvent, hcurrency, hposition] at h
  split at h
  · obtain rfl : root.rewritePositions currency account.position = s := Option.some.inj h
    refine { getAccount := fun currency' => ?_, blank := ?_ }
    · by_cases hc : currency' = currency
      · subst hc
        rw [hacc, ParticipantState.getAccount_rewritePositions_self]
        rcases hto with rfl | ⟨p, rfl⟩
        · rw [hacc]
          rfl
        · rw [ParticipantState.getAccount_setPosition_self] at hacc
          obtain ⟨a, ha, rfl⟩ := Option.map_eq_some_iff.mp hacc
          rw [ha]
          rfl
      · rw [ParticipantState.getAccount_rewritePositions_of_ne _ _ hc]
        rcases hto with rfl | ⟨p, rfl⟩
        · rfl
        · rw [ParticipantState.getAccount_setPosition_of_ne _ _ _ fun h => hc h.2]
    · rw [hto.blank_eq, ParticipantState.blank_rewritePositions]
  · cases h

/-- What a load finds after a command: what it found before, a participant just created,
or one whose position just moved. -/
theorem lookup_after (hR : R.Lawful ParticipantState.id) (hw : WellKept R w) {id : String}
    {s : ParticipantState}
    (h : lookup R applyStateEvent (processCommand R B f w cmd).repo id = .found s) :
    lookup R applyStateEvent w id = .found s ∨ cmd = .createParticipantCmd s ∨
      ∃ root root', lookup R applyStateEvent w id = .found root ∧ Moves R B w cmd root root' ∧
        s.SameAccounts root' := by
  by_cases hid : id = cmd.rootId
  · subst hid
    cases hv : verdict R B w cmd with
    | reject =>
      rw [lookup_of_reject hR hw hv] at h
      exact Or.inl h
    | refuse root events =>
      rw [lookup_of_refuse hR hw hv] at h
      exact Or.inl h
    | snapshot root =>
      rw [lookup_of_snapshot hR hw hv] at h
      exact Or.inl h
    | create participant =>
      rw [lookup_of_create hR hw hv] at h
      split at h
      · cases h
        exact Or.inr (Or.inl (verdict_create hv).1)
      · cases h
    | move root root' events stateEvent =>
      obtain ⟨hmoves, terms, position, -, -, hpos, hto, -, -, rfl⟩ := verdict_move hv
      have hroot := verdict_loaded (B := B) (s := root) (by rw [hv]; rfl)
      rw [positionChanged] at hv
      rw [lookup_of_move hR hw hv] at h
      split at h
      · cases h
        exact Or.inr (Or.inr ⟨root, _, hroot, hmoves, SameAccounts.refl _⟩)
      · split at h
        · cases h
          exact Or.inl hroot
        · split at h
          · exact Or.inr (Or.inr ⟨root, root', hroot, hmoves,
              sameAccounts_of_replay hto hpos rfl rfl (Loaded.ofReplay_eq_found.mp h)⟩)
          · cases h
            exact Or.inl hroot
  · rw [lookup_processCommand_ne hR hw hid] at h
    exact Or.inl h

/-! ## The net debit cap -/

/-- The position is a finite decimal strictly below the first NET_DEBIT_CAP limit. -/
def BelowCap (B : BigNumber) (account : ParticipantAccountState) : Prop :=
  ∃ limit, getLimitFromAccount account .netDebitCap = some limit ∧ B.Finite account.position ∧
    (B.valueOf account.position).lt (B.valueOf limit.value) = true

/-- The first POSITION account of every currency is below its cap. -/
def Capped (B : BigNumber) (s : ParticipantState) : Prop :=
  ∀ currency account, s.getAccount .position currency = some account → BelowCap B account

theorem capped_of_sameAccounts {s t : ParticipantState} (h : s.SameAccounts t) (ht : Capped B t) :
    Capped B s := fun currency account hacc => ht currency account (h.getAccount currency ▸ hacc)

theorem capped_setPosition {s : ParticipantState} {currency : CurrencyTypes} {position : String}
    (hs : Capped B s)
    (hnew : ∀ account, s.getAccount .position currency = some account →
      BelowCap B (account.withPosition position)) :
    Capped B (s.setPosition currency position) := by
  intro currency' account hacc
  by_cases hc : currency' = currency
  · subst hc
    rw [ParticipantState.getAccount_setPosition_self] at hacc
    obtain ⟨a, ha, rfl⟩ := Option.map_eq_some_iff.mp hacc
    exact hnew a ha
  · rw [ParticipantState.getAccount_setPosition_of_ne _ _ _ fun h => hc h.2] at hacc
    exact hs currency' account hacc

theorem Capped.finitePositions {s : ParticipantState} (hs : Capped B s) : s.FinitePositions B :=
  fun currency account hacc =>
    let ⟨_, _, hfinite, _⟩ := hs currency account hacc
    hfinite

/-- A reserve that goes through brought a positive amount and stays below the cap. -/
theorem capped_reserveFunds {s s' : ParticipantState} {currency : CurrencyTypes} {amount : String}
    (hs : Capped B s) (h : s.reserveFunds B currency amount = .ok s') :
    B.Positive amount ∧ Capped B s' := by
  have hpositive := ParticipantState.positive_of_reserveFunds hs.finitePositions h
  obtain ⟨q, hq⟩ := hpositive.finite
  obtain ⟨account, limit, hacc, hlim, -, -, hlt, rfl⟩ := ParticipantState.reserveFunds_ok h
  obtain ⟨_, -, ⟨p, hp⟩, -⟩ := hs currency account hacc
  rw [B.isLessThan_eq, B.value_plus_ofString, hp] at hlt
  refine ⟨hpositive, capped_setPosition hs fun a ha => ?_⟩
  obtain rfl := Option.some.inj (hacc.symm.trans ha)
  refine ⟨limit, hlim, ⟨p + q, ?_⟩, ?_⟩
  · show B.valueOf (B.toString _) = _
    rw [B.valueOf_toString, B.value_plus_ofString, hp, hq, ExtendedRat.add_fin]
  · show (B.valueOf (B.toString _)).lt _ = true
    rw [B.valueOf_toString, B.value_plus_ofString, hp]
    exact hlt

/-- A commit of a positive amount lowers the position. -/
theorem capped_commitFunds {s s' : ParticipantState} {currency : CurrencyTypes} {amount : String}
    (hs : Capped B s) (hamount : B.Positive amount)
    (h : s.commitFunds B currency amount = .ok s') : Capped B s' := by
  obtain ⟨account, hacc, rfl⟩ := ParticipantState.commitFunds_ok h
  obtain ⟨limit, hlim, ⟨p, hp⟩, hlt⟩ := hs currency account hacc
  obtain ⟨q, hq, hq0⟩ := hamount
  split
  · exact hs
  · rw [hp] at hlt
    refine capped_setPosition hs fun a ha => ?_
    obtain rfl := Option.some.inj (hacc.symm.trans ha)
    have hvalue : B.valueOf (B.toString (B.minus (B.ofString account.position)
        (B.ofString amount))) = .fin (p - q) := by
      rw [B.valueOf_toString, B.value_minus_ofString, hp, hq, ExtendedRat.sub_fin]
    refine ⟨limit, hlim, ⟨p - q, hvalue⟩, ?_⟩
    change (B.valueOf (B.toString _)).lt _ = true
    rw [hvalue]
    exact ExtendedRat.lt_of_lt_of_le hlt (sub_le_self p hq0.le)

/-- Everything a load finds is below its caps, and is one of the created participants but
for the positions. -/
structure WithinLimits (R : StateRepo ParticipantState) (B : BigNumber)
    (created : ParticipantState → Prop) (w : World) : Prop where
  capped : ∀ id s, lookup R applyStateEvent w id = .found s → Capped B s
  origin : ∀ id s, lookup R applyStateEvent w id = .found s →
    ∃ participant, created participant ∧ s.blank = participant.blank

theorem Moves.blank_eq {root root' : ParticipantState} (h : Moves R B w cmd root root') :
    root'.blank = root.blank := by
  cases cmd with
  | createParticipantCmd participant => exact h.elim
  | snapshotParticipantStateCmd participantId => exact h.elim
  | reservePayerFundsCmd payload => exact (ParticipantState.reserveFunds_movesTo h.2.2).blank_eq
  | commitPayeeFundsCmd payload => exact (ParticipantState.commitFunds_movesTo h.2.2).blank_eq

theorem WithinLimits.processCommand (hR : R.Lawful ParticipantState.id) (hw : WellKept R w)
    {created created' : ParticipantState → Prop} (h : WithinLimits R B created w)
    (hsub : ∀ p, created p → created' p)
    (hcreate : ∀ p, cmd = .createParticipantCmd p → created' p ∧ Capped B p)
    (hcommit : ∀ terms, cmd = .commitPayeeFundsCmd terms → B.Positive terms.amount)
    (f : Faults) : WithinLimits R B created' (processCommand R B f w cmd).repo := by
  have key : ∀ id s,
      lookup R applyStateEvent (ParticpantsAgg.processCommand R B f w cmd).repo id = .found s →
      Capped B s ∧ ∃ participant, created' participant ∧ s.blank = participant.blank := by
    intro id s hs
    rcases lookup_after hR hw hs with hbefore | hcmd | ⟨root, root', hroot, hmoves, hsame⟩
    · obtain ⟨p, hp, hblank⟩ := h.origin id s hbefore
      exact ⟨h.capped id s hbefore, p, hsub p hp, hblank⟩
    · exact ⟨(hcreate s hcmd).2, s, (hcreate s hcmd).1, rfl⟩
    · obtain ⟨p, hp, hblank⟩ := h.origin id root hroot
      refine ⟨capped_of_sameAccounts hsame ?_, p, hsub p hp, by rw [hsame.blank, hmoves.blank_eq, hblank]⟩
      have hcapped := h.capped id root hroot
      cases cmd with
      | createParticipantCmd participant => exact hmoves.elim
      | snapshotParticipantStateCmd participantId => exact hmoves.elim
      | reservePayerFundsCmd payload => exact (capped_reserveFunds hcapped hmoves.2.2).2
      | commitPayeeFundsCmd payload =>
        exact capped_commitFunds hcapped (hcommit payload rfl) hmoves.2.2
  exact { capped := fun id s hs => (key id s hs).1, origin := fun id s hs => (key id s hs).2 }

/-- A reserve that moves a participant within its limits has a positive amount. -/
theorem WithinLimits.positive {created : ParticipantState → Prop}
    (h : WithinLimits R B created w) {terms : TransferTerms} {root root' : ParticipantState}
    (hmoves : Moves R B w (.reservePayerFundsCmd terms) root root') : B.Positive terms.amount :=
  (capped_reserveFunds (h.capped _ root hmoves.1) hmoves.2.2).1

end ParticpantsAgg

end Participants
end PocArchitecture
