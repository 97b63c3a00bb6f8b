/-
Recovery from the log.

A live movement assigns to the first POSITION account of a currency; its replay rewrites
all of them.  The two agree on a participant with at most one such account, and then the
log always rebuilds what the cache holds: over any run of commands, with participants
evicted from the cache at any moment.
-/
import PocArchitecture.Participants.Repos
import PocArchitecture.Participants.LaterLoads

namespace PocArchitecture
namespace Participants

open PublicMessages Infrastructure
open Domain (Loaded PublishOutcome Settled)
open Domain.BaseEventSourcingAggregate

namespace ParticpantsAgg

/-- The cached state of a participant is deleted. -/
def evict (R : StateRepo ParticipantState) (w : World) (id : String) : World :=
  { w with repo := R.remove w.repo id }

inductive CacheLabel where
  | command (cmd : Command)
  | evict (id : String)
  deriving DecidableEq

/-- One aggregate working without failures on a cache that may lose entries. -/
def cacheStep (R : StateRepo ParticipantState) (B : BigNumber) (w : World) : CacheLabel → World
  | .command cmd => (processCommand R B Faults.none w cmd).repo
  | .evict id => evict R w id

/-- If the cached state is deleted now, the next load yields it again. -/
def Recovers (R : StateRepo ParticipantState) (w : World) (id : String) : Prop :=
  ∀ s ∈ R.view w.repo id, (load R applyStateEvent true (evict R w id) id).root = .found s

instance (R : StateRepo ParticipantState) (w : World) (id : String) :
    Decidable (Recovers R w id) := by
  unfold Recovers
  infer_instance

/-- A participant whose position a command moves has one POSITION account in the currency
of the command. -/
def SingleAccount (R : StateRepo ParticipantState) (B : BigNumber) (w : World) : CacheLabel → Prop
  | .command cmd => ∀ root root' terms, Moves R B w cmd root root' → cmd.terms = some terms →
      root.accounts.countP (isAccount .position terms.currency) ≤ 1
  | .evict _ => True

/-- The log rebuilds what a load finds. -/
structure Recoverable (R : StateRepo ParticipantState) (w : World) : Prop where
  wellKept : WellKept R w
  rebuilds : ∀ id, rebuild applyStateEvent (w.log.sourced id) = lookup R applyStateEvent w id

section

variable {R : StateRepo ParticipantState} {B : BigNumber} {w : World} {cmd : Command}

/-- On a single account, replay repeats the movement. -/
theorem applyPositionChangedStateEvent_of_movesTo {root root' : ParticipantState}
    {currency : CurrencyTypes} {position : String} {evt : ParticipantPositionChangedStateEvtPayload}
    (hto : root.MovesTo currency root') (hpos : root'.getCurrentPosition currency = .ok position)
    (hone : root.accounts.countP (isAccount .position currency) ≤ 1)
    (hcurrency : evt.currency = currency) (hposition : evt.currentPosition = position) :
    applyPositionChangedStateEvent root evt = some root' := by
  obtain ⟨account, hacc, rfl⟩ := ParticipantState.getCurrentPosition_ok hpos
  have hhas : root.hasAccount .position currency = true := by
    rw [← hto.hasAccount_eq, ParticipantState.hasAccount, hacc, Option.isSome_some]
  have hany : root.accounts.any (isAccount .position currency) = true :=
    List.any_eq_true.mpr (List.find?_isSome.mp hhas)
  rw [applyPositionChangedStateEvent, hcurrency, hposition, if_pos hany,
    FirstMatch.updateEvery_eq_updateFirst hone]
  rcases hto with rfl | ⟨p, rfl⟩
  · rw [FirstMatch.updateFirst_eq_self hacc rfl]
  · rw [ParticipantState.getAccount_setPosition_self] at hacc
    obtain ⟨a, -, rfl⟩ := Option.map_eq_some_iff.mp hacc
    rfl

theorem recoverable_start (hR : R.Lawful ParticipantState.id) (partitioner : String → Nat) :
    Recoverable R (start partitioner) where
  wellKept := wellKept_start hR partitioner
  rebuilds id := by
    rw [lookup_of_view_none]
    exact hR.view_empty id

theorem Recoverable.evict (hR : R.Lawful ParticipantState.id) (h : Recoverable R w) (id : String) :
    Recoverable R (evict R w id) where
  wellKept :=
    { view_id := fun id' s hs => by
        rw [ParticpantsAgg.evict, hR.view_remove] at hs
        split at hs
        · cases hs
        · exact h.wellKept.view_id id' s hs
      log_keyed := h.wellKept.log_keyed
      log_consistent := h.wellKept.log_consistent }
  rebuilds id' := by
    have hview : R.view (ParticpantsAgg.evict R w id).repo id' =
        if id' = id then none else R.view w.repo id' := hR.view_remove w.repo id id'
    by_cases hid : id' = id
    · rw [if_pos hid] at hview
      rw [lookup_of_view_none hview]
    · rw [if_neg hid] at hview
      rw [lookup_congr (w := w) hview rfl]
      exact h.rebuilds id'

/-- One command keeps log and cache in agreement. -/
theorem Recoverable.command (hR : R.Lawful ParticipantState.id) (h : Recoverable R w)
    (hone : SingleAccount R B w (.command cmd)) :
    Recoverable R (processCommand R B Faults.none w cmd).repo where
  wellKept := h.wellKept.processCommand hR B _ cmd
  rebuilds id := by
    have hw := h.wellKept
    by_cases hid : id = cmd.rootId
    · subst hid
      have hbefore := h.rebuilds cmd.rootId
      cases hv : verdict R B w cmd with
      | reject =>
        rw [lookup_of_reject hR hw hv, ← hbefore, sourced_unmoved hR hw (by rw [hv]; rfl)]
      | refuse root events =>
        rw [lookup_of_refuse hR hw hv, ← hbefore, sourced_unmoved hR hw (by rw [hv]; rfl)]
      | snapshot root =>
        rw [lookup_of_snapshot hR hw hv]
        rw [verdict_loaded (B := B) (s := root) (by rw [hv]; rfl)] at hbefore ⊢
        exact rebuild_of_snapshot hR hw hv hbefore
      | create participant =>
        obtain ⟨rfl, hnot⟩ := verdict_create hv
        rw [lookup_of_create hR hw hv, rebuild_of_create hR hw hv (hbefore.trans hnot)]
      | move root root' events stateEvent =>
        obtain ⟨hmv, terms, position, m, hterms, hpos, hto, -, -, hst⟩ := verdict_move hv
        rw [positionChanged] at hst
        subst hst
        rw [verdict_loaded (B := B) (s := root) (by rw [hv]; rfl)] at hbefore
        rw [rebuild_of_move hR hw hv hbefore, lookup_of_move hR hw hv]
        exact Loaded.ofReplay_eq_found.mpr (applyPositionChangedStateEvent_of_movesTo hto hpos
          (hone root root' terms hmv hterms) rfl rfl)
    · rw [lookup_processCommand_ne hR hw hid, ← h.rebuilds id, sourced_processCommand_ne hR hw hid]

theorem Recoverable.recovers (hR : R.Lawful ParticipantState.id) (h : Recoverable R w)
    (id : String) : Recovers R w id := by
  intro s hs
  have hnone : R.view (ParticpantsAgg.evict R w id).repo id = none := by
    rw [ParticpantsAgg.evict, hR.view_remove, if_pos rfl]
  rw [load_root, lookup_of_view_none hnone]
  exact (h.rebuilds id).trans (lookup_of_view hs)

/-- Over every run whose movements are on single accounts, with evictions at any moment,
what is deleted from the cache is what the next load rebuilds. -/
theorem recovers_along (kind : RepoInfraTypes) (B : BigNumber) (partitioner : String → Nat)
    (ls : List CacheLabel)
    (h : Machine.Along (cacheStep kind.repo B) (SingleAccount kind.repo B) (start partitioner) ls)
    (id : String) :
    Recovers kind.repo (Machine.run (cacheStep kind.repo B) (start partitioner) ls) id := by
  have hR := kind.repo_lawful
  refine Recoverable.recovers hR (Machine.run_invariant (fun w l hw hl => ?_)
    (recoverable_start hR partitioner) h) id
  cases l with
  | command cmd => exact hw.command hR hl
  | evict id => exact hw.evict hR id

end

/-- A participant with two dollar accounts. -/
def twoAccounts (id : String) : ParticipantState :=
  { sampleParticipant id with
    accounts := (sampleParticipant id).accounts ++ (sampleParticipant id).accounts }

theorem recovers_along_sample :
    Recovers RepoInfraTypes.redis.repo
      (Machine.run (cacheStep RepoInfraTypes.redis.repo wholeNumbers) (start fun _ => 0)
        [.command (.createParticipantCmd (sampleParticipant "blue")),
          .command (.createParticipantCmd (sampleParticipant "green")),
          .command (.reservePayerFundsCmd sampleTerms)]) "blue" := by
  refine recovers_along .redis wholeNumbers _ _ ?_ "blue"
  refine ⟨fun _ _ _ h => h.elim, fun _ _ _ h => h.elim, fun root root' terms h hterms => ?_, trivial⟩
  have hblue : root = sampleParticipant "blue" := Loaded.found.inj (h.1.symm.trans (by decide))
  obtain rfl := Option.some.inj hterms
  rw [hblue]
  decide

/-- A reserve on the first of two accounts: its replay moves both. -/
theorem replay_moves_both_accounts :
    ¬ Recovers RepoInfraTypes.redis.repo
      (Machine.run (cacheStep RepoInfraTypes.redis.repo wholeNumbers) (start fun _ => 0)
        [.command (.createParticipantCmd (twoAccounts "blue")),
          .command (.createParticipantCmd (sampleParticipant "green")),
          .command (.reservePayerFundsCmd sampleTerms)]) "blue" := by
  decide

end ParticpantsAgg

end Participants
end PocArchitecture
