/-
What a rejected command leaves behind.

A command rejects when a load throws, a publish fails or the store is refused.  By then
the entity may have been changed in place, and the state event may be in the log.
`undisturbed_iff` says for which repositories, states, commands and failures every later
load still returns what it would have returned before.
-/
import PocArchitecture.Participants.Repos
import PocArchitecture.Participants.LaterLoads

namespace PocArchitecture
namespace Participants

open PublicMessages Infrastructure
open Domain (Loaded PublishOutcome Settled)
open Domain.BaseEventSourcingAggregate

namespace ParticpantsAgg

/-- If the promise rejects, no later load tells the difference. -/
def Undisturbed (R : StateRepo ParticipantState) (w : World) (settled : Settled Message World) :
    Prop :=
  settled.outcome = none →
    ∀ id, lookup R applyStateEvent settled.repo id = lookup R applyStateEvent w id

/-- The failures a creation survives: either its messages are out and its entity is
stored, or its state event is not out. -/
def CreationSafe (kind : RepoInfraTypes) (f : Faults) : Prop :=
  if f.publish₁.isOk then (f.store || !kind.asksRedis false) = true
  else f.publish₁.deliversAt 1 = false

/-- The failures a movement survives.  A repository that hands out its object shows the
movement at once, so the command has to succeed or to move nothing.  Redis shows what it
holds; for a participant it does not hold, the refill or the log has to agree. -/
def MovementSafe (kind : RepoInfraTypes) (f : Faults) (cached : Bool)
    (root root' : ParticipantState) (currency : CurrencyTypes) : Prop :=
  if kind.repo.aliased then
    root' = root ∨ (f.publish₁.isOk && (f.store || !kind.asksRedis true)) = true
  else
    (f.publish₁.isOk && f.store) = true ∨ (cached || f.refill) = true ∨
      f.publish₁.deliversAt 1 = false ∨
      ∀ position, root'.getCurrentPosition currency = .ok position →
        applyPositionChangedStateEvent root
          { id := root.id, currency := currency, currentPosition := position,
            partition := root.partition } = some root

def RejectionSafe (kind : RepoInfraTypes) (B : BigNumber) (f : Faults) (w : World)
    (cmd : Command) : Prop :=
  (∀ participant, cmd = .createParticipantCmd participant →
    lookup kind.repo applyStateEvent w participant.id = .notFound → CreationSafe kind f) ∧
  ∀ root root' terms, Moves kind.repo B w cmd root root' → cmd.terms = some terms →
    MovementSafe kind f (kind.repo.view w.repo cmd.rootId).isSome root root' terms.currency

section

variable {kind : RepoInfraTypes} {B : BigNumber} {f : Faults} {w : World} {cmd : Command}

theorem undisturbed_of_root (hw : WellKept kind.repo w)
    (h : (processCommand kind.repo B f w cmd).outcome = none →
      lookup kind.repo applyStateEvent (processCommand kind.repo B f w cmd).repo cmd.rootId =
        lookup kind.repo applyStateEvent w cmd.rootId) :
    Undisturbed kind.repo w (processCommand kind.repo B f w cmd) := by
  intro hout id
  by_cases hid : id = cmd.rootId
  · rw [hid]
    exact h hout
  · exact lookup_processCommand_ne kind.repo_lawful hw hid

/-- When an accepted command rejects. -/
theorem outcome_eq_none_iff (hw : WellKept kind.repo w) {s : ParticipantState}
    (hs : (verdict kind.repo B w cmd).accepted = some s) :
    (processCommand kind.repo B f w cmd).outcome = none ↔
      (f.publish₁.isOk && (f.store || !kind.asksRedis
        (kind.repo.aliased && (verdict kind.repo B w cmd).loaded.isSome))) = false := by
  have hf := handle_follows (B := B) (f := f) kind.repo_lawful (hw.keyed cmd)
  have hid := verdict_accepted_id (hw.keyed cmd) hs
  rw [← hf.holds_root, ← hid, ← kind.store_resolves]
  exact hf.outcome_eq_none_iff hs

theorem undisturbed_create_iff (hw : WellKept kind.repo w) {participant : ParticipantState}
    (hv : verdict kind.repo B w cmd = .create participant) :
    Undisturbed kind.repo w (processCommand kind.repo B f w cmd) ↔ CreationSafe kind f := by
  have hR := kind.repo_lawful
  have hout := outcome_eq_none_iff (f := f) hw (s := participant) (by rw [hv]; rfl)
  have hafter := lookup_of_create (f := f) hR hw hv
  have hbefore : lookup kind.repo applyStateEvent w cmd.rootId = .notFound := by
    obtain ⟨rfl, h⟩ := verdict_create hv
    exact h
  rw [hv, Verdict.loaded, Option.isSome_none, Bool.and_false] at hout
  have hroot : Undisturbed kind.repo w (processCommand kind.repo B f w cmd) ↔
      ((f.publish₁.isOk && (f.store || !kind.asksRedis false)) = false →
        f.publish₁.deliversAt 1 = false) := by
    rw [← hout]
    refine ⟨fun h hnone => ?_, fun h => undisturbed_of_root hw fun hnone => ?_⟩
    · have := h hnone cmd.rootId
      rw [hafter, hbefore] at this
      cases hd : f.publish₁.deliversAt 1 with
      | false => rfl
      | true =>
        rw [hd, if_pos rfl] at this
        cases this
    · rw [hafter, hbefore, h hnone, if_neg Bool.false_ne_true]
  rw [hroot, CreationSafe]
  cases hok : f.publish₁.isOk with
  | true =>
    rw [Bool.true_and, if_pos rfl, PublishOutcome.deliversAt_of_isOk hok]
    cases f.store || !kind.asksRedis false <;> simp
  | false => simp

theorem undisturbed_iff_root (hw : WellKept kind.repo w) :
    Undisturbed kind.repo w (processCommand kind.repo B f w cmd) ↔
      ((processCommand kind.repo B f w cmd).outcome = none →
        lookup kind.repo applyStateEvent (processCommand kind.repo B f w cmd).repo cmd.rootId =
          lookup kind.repo applyStateEvent w cmd.rootId) :=
  ⟨fun h hnone => h hnone cmd.rootId, undisturbed_of_root hw⟩

theorem asksRedis_of_not_aliased (h : kind.repo.aliased = false) (held : Bool) :
    kind.asksRedis held = true := by
  cases kind <;> first | rfl | cases h

theorem undisturbed_move_iff (hw : WellKept kind.repo w) {root root' : ParticipantState}
    {events : List Message} {stateEvent : Message} {terms : TransferTerms}
    (hv : verdict kind.repo B w cmd = .move root root' events stateEvent)
    (hterms : cmd.terms = some terms) :
    Undisturbed kind.repo w (processCommand kind.repo B f w cmd) ↔
      MovementSafe kind f (kind.repo.view w.repo cmd.rootId).isSome root root' terms.currency := by
  have hout := outcome_eq_none_iff (f := f) hw (s := root') (by rw [hv]; rfl)
  obtain ⟨-, terms', position, m, hterms', hpos, hto, -, -, hst⟩ := verdict_move hv
  rw [positionChanged] at hst
  subst hst
  have hafter := lookup_of_move (f := f) kind.repo_lawful hw hv
  have hbefore := verdict_loaded (B := B) (s := root) (by rw [hv]; rfl)
  rw [hv, Verdict.loaded, Option.isSome_some, Bool.and_true] at hout
  rw [undisturbed_iff_root hw, hout, hafter, hbefore, MovementSafe]
  cases hal : kind.repo.aliased with
  | true =>
    rw [if_pos rfl, Bool.or_true, if_pos rfl, Loaded.found.injEq]
    cases f.publish₁.isOk && (f.store || !kind.asksRedis true) <;> simp
  | false =>
    obtain rfl := Option.some.inj (hterms.symm.trans hterms')
    -- the replay of the movement, as the log would make it
    have hposition : (∀ p, root'.getCurrentPosition terms.currency = .ok p →
        applyPositionChangedStateEvent root
          { id := root.id, currency := terms.currency, currentPosition := p,
            partition := root.partition } = some root) ↔
        applyStateEvent (some root) (.participantPositionChangedStateEvt
          { id := root'.id, currency := terms.currency, currentPosition := position,
            partition := root'.partition }) = some root := by
      rw [hpos, hto.id_eq, hto.partition_eq]
      exact ⟨fun h => h position rfl, fun h p hp => Except.ok.inj hp ▸ h⟩
    rw [if_neg Bool.false_ne_true, hposition, Bool.or_false, asksRedis_of_not_aliased hal,
      Bool.not_true, Bool.or_false]
    cases f.publish₁.isOk && f.store with
    | true => simp
    | false =>
      rw [if_neg Bool.false_ne_true]
      cases (kind.repo.view w.repo cmd.rootId).isSome || f.refill with
      | true => simp
      | false =>
        rw [if_neg Bool.false_ne_true]
        cases f.publish₁.deliversAt 1 with
        | true => simp [Loaded.ofReplay_eq_found]
        | false => simp

/-- Rejected, refused and snapshot commands are safe, and disturb nothing. -/
theorem undisturbed_of_still (hw : WellKept kind.repo w)
    (h : lookup kind.repo applyStateEvent (processCommand kind.repo B f w cmd).repo cmd.rootId =
      lookup kind.repo applyStateEvent w cmd.rootId)
    (hc : ∀ participant, verdict kind.repo B w cmd ≠ .create participant)
    (hm : ∀ root root' events stateEvent,
      verdict kind.repo B w cmd ≠ .move root root' events stateEvent) :
    Undisturbed kind.repo w (processCommand kind.repo B f w cmd) ↔
      RejectionSafe kind B f w cmd := by
  refine ⟨fun _ => ⟨?_, fun root root' _ hmv _ => ?_⟩, fun _ => undisturbed_of_root hw fun _ => h⟩
  · rintro participant rfl hnot
    exact (hc participant (by rw [verdict, hnot])).elim
  · obtain ⟨events, stateEvent, hv⟩ := verdict_of_moves hmv
    exact (hm root root' events stateEvent hv).elim

/-- A rejected command leaves every participant as it was exactly when it is safe. -/
theorem undisturbed_iff (kind : RepoInfraTypes) (B : BigNumber) (f : Faults) (w : World)
    (cmd : Command) (hw : WellKept kind.repo w) :
    Undisturbed kind.repo w (processCommand kind.repo B f w cmd) ↔
      RejectionSafe kind B f w cmd := by
  have hR := kind.repo_lawful
  cases hv : verdict kind.repo B w cmd with
  | reject =>
    exact undisturbed_of_still hw (lookup_of_reject hR hw hv) (by simp [hv]) (by simp [hv])
  | refuse root events =>
    exact undisturbed_of_still hw (lookup_of_refuse hR hw hv) (by simp [hv]) (by simp [hv])
  | snapshot root =>
    exact undisturbed_of_still hw (lookup_of_snapshot hR hw hv) (by simp [hv]) (by simp [hv])
  | create participant =>
    obtain ⟨hcmd, hnot⟩ := verdict_create hv
    rw [undisturbed_create_iff hw hv]
    refine ⟨fun h => ⟨fun _ _ _ => h, fun root root' _ hmv _ => ?_⟩,
      fun h => h.1 participant hcmd hnot⟩
    rw [hcmd] at hmv
    exact hmv.elim
  | move root root' events stateEvent =>
    obtain ⟨hmv, terms, -, -, hterms, -⟩ := verdict_move hv
    rw [undisturbed_move_iff hw hv hterms]
    refine ⟨fun h => ⟨fun p hp _ => ?_, fun r r' t hr ht => ?_⟩,
      fun h => h.2 root root' terms hmv hterms⟩
    · rw [hp] at hmv
      exact hmv.elim
    · obtain ⟨rfl, rfl⟩ := moves_unique hmv hr
      obtain rfl := Option.some.inj (hterms.symm.trans ht)
      exact h

end

/-- A reserve whose publish fails, in a repository that hands out its object. -/
theorem undisturbed_iff_sample :
    Undisturbed RepoInfraTypes.inMemory.repo (sampleWorld RepoInfraTypes.inMemory.repo)
        (processCommand RepoInfraTypes.inMemory.repo wholeNumbers
          { Faults.none with publish₁ := .failed [] } (sampleWorld RepoInfraTypes.inMemory.repo)
          (.reservePayerFundsCmd sampleTerms)) ↔
      RejectionSafe .inMemory wholeNumbers { Faults.none with publish₁ := .failed [] }
        (sampleWorld RepoInfraTypes.inMemory.repo) (.reservePayerFundsCmd sampleTerms) :=
  undisturbed_iff .inMemory wholeNumbers _ _ _
    (sampleWorld_wellKept RepoInfraTypes.inMemory.repo_lawful)

/-- There the failed reserve shows in the store: the payer stands at ten. -/
theorem rejected_reserve_moves_position :
    ¬ Undisturbed RepoInfraTypes.inMemory.repo (sampleWorld RepoInfraTypes.inMemory.repo)
        (processCommand RepoInfraTypes.inMemory.repo wholeNumbers
          { Faults.none with publish₁ := .failed [] } (sampleWorld RepoInfraTypes.inMemory.repo)
          (.reservePayerFundsCmd sampleTerms)) := by
  intro h
  exact absurd (h (by decide) "blue") (by decide)

end ParticpantsAgg

end Participants
end PocArchitecture
