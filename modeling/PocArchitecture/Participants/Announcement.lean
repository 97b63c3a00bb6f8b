/-
When an announced movement has really happened.

The money events are published before the entity is stored, and after a failed publish
they are published once more without the state event.  `Announced` is what the other
contexts rely on; `announced_iff` says for which states, commands and failures a command
keeps it.
-/
import PocArchitecture.Participants.Repos
import PocArchitecture.Participants.WorldInvariant

namespace PocArchitecture
namespace Participants

open PublicMessages Infrastructure
open Domain (Loaded PublishOutcome Settled)
open Domain.BaseEventSourcingAggregate

namespace ParticpantsAgg

/-- The position a load shows. -/
def storedPosition (R : StateRepo ParticipantState) (w : World) (id : String)
    (currency : CurrencyTypes) : Option String :=
  ((R.view w.repo id).bind (·.getAccount .position currency)).map (·.position)

/-- Every published movement is in the log and in the stored state. -/
def Announced (R : StateRepo ParticipantState) (settled : Settled Message World) : Prop :=
  ∀ m ∈ settled.published, ∀ mv ∈ m.movement,
    (∃ m' ∈ settled.published, m'.positionChange = some mv) ∧
      storedPosition R settled.repo mv.1 mv.2.1 = some mv.2.2

instance (R : StateRepo ParticipantState) (settled : Settled Message World) :
    Decidable (Announced R settled) := by
  unfold Announced
  infer_instance

/-- Either the command moves nothing, or its events and its state get out: the first
publish succeeds and the state is stored, or shows what it should without being stored; or
both publishes fail. -/
def AnnouncementSafe (R : StateRepo ParticipantState) (B : BigNumber) (f : Faults) (w : World)
    (cmd : Command) : Prop :=
  ∀ root root' terms, Moves R B w cmd root root' → cmd.terms = some terms →
    if f.publish₁.isOk then
      f.store = true ∨ R.aliased = true ∨
        ((R.view w.repo cmd.rootId).isSome || f.refill) = true ∧
          root.getCurrentPosition terms.currency = root'.getCurrentPosition terms.currency
    else f.publish₂.isOk = false

section

variable {R : StateRepo ParticipantState} {B : BigNumber} {f : Faults} {w : World} {cmd : Command}

theorem storedPosition_of_view {id : String} {s : ParticipantState} {currency : CurrencyTypes}
    (h : R.view w.repo id = some s) (position : String) :
    storedPosition R w id currency = some position ↔
      s.getCurrentPosition currency = .ok position := by
  rw [storedPosition, h, Option.bind_some, ParticipantState.getCurrentPosition]
  cases s.getAccount .position currency with
  | none => simp
  | some account => simp

/-- A command that moves nothing announces nothing. -/
theorem announced_of_not_moves (hR : R.Lawful ParticipantState.id) (hw : WellKept R w)
    (h : ∀ root root', ¬ Moves R B w cmd root root') :
    Announced R (processCommand R B f w cmd) := by
  have hsilent : ∀ m ∈ (verdict R B w cmd).events ++ (verdict R B w cmd).stateEvents,
      m.movement = none := by
    cases hv : verdict R B w cmd with
    | reject => simp [Verdict.events, Verdict.stateEvents]
    | refuse root events =>
      obtain ⟨m, rfl, hm⟩ := verdict_refuse hv
      simp [Verdict.events, Verdict.stateEvents, Message.movement_of_isRefusal hm]
    | create root => simp [Verdict.events, Verdict.stateEvents, Message.movement]
    | move root root' events stateEvent => exact (h root root' (verdict_move hv).1).elim
    | snapshot root => simp [Verdict.events, Verdict.stateEvents, Message.movement]
  intro m hm mv hmv
  rw [processCommand_published hR (hw.keyed cmd)] at hm
  rw [hsilent m (mem_published hm)] at hmv
  cases hmv

variable {root root' : ParticipantState} {events : List Message} {m : Message}
  {terms : TransferTerms} {position : String}

theorem announcementSafe_iff (h : Moves R B w cmd root root') (hterms : cmd.terms = some terms) :
    AnnouncementSafe R B f w cmd ↔
      if f.publish₁.isOk then
        f.store = true ∨ R.aliased = true ∨
          ((R.view w.repo cmd.rootId).isSome || f.refill) = true ∧
            root.getCurrentPosition terms.currency = root'.getCurrentPosition terms.currency
      else f.publish₂.isOk = false := by
  refine ⟨fun hs => hs root root' terms h hterms, fun hs r r' t hr ht => ?_⟩
  obtain ⟨rfl, rfl⟩ := moves_unique h hr
  obtain rfl := Option.some.inj (hterms.symm.trans ht)
  exact hs

/-- With both messages out, the announcement is about the stored state. -/
theorem announced_of_published {settled : Settled Message World} {id : String}
    (hid : root'.id = id) (hm : m.movement = some (id, terms.currency, position))
    (hpub : settled.published = [m, positionChanged root' terms.currency position]) :
    Announced R settled ↔
      storedPosition R settled.repo id terms.currency = some position := by
  have hchange : (positionChanged root' terms.currency position).positionChange =
      some (id, terms.currency, position) := by
    rw [← hid]
    rfl
  have hnot : (positionChanged root' terms.currency position).movement = none := rfl
  rw [Announced, hpub]
  simp [hm, hchange, hnot]

/-- A movement announced by the second publish alone is in no log. -/
theorem not_announced_alone {settled : Settled Message World}
    {mv : String × CurrencyTypes × String} (hm : m.movement = some mv)
    (hpub : settled.published = [m]) : ¬ Announced R settled := by
  intro h
  obtain ⟨⟨m', hm', hc⟩, -⟩ := h m (by rw [hpub]; exact List.mem_cons_self) mv hm
  rw [hpub, List.mem_singleton] at hm'
  rw [hm', Message.positionChange_of_movement hm] at hc
  cases hc

/-- The stored position after a published movement. -/
theorem storedPosition_after_move (hR : R.Lawful ParticipantState.id) (hw : WellKept R w)
    (hv : verdict R B w cmd =
      .move root root' events (positionChanged root' terms.currency position))
    (hpos : root'.getCurrentPosition terms.currency = .ok position)
    (hok : f.publish₁.isOk = true) :
    storedPosition R (processCommand R B f w cmd).repo cmd.rootId terms.currency = some position ↔
      f.store = true ∨ R.aliased = true ∨
        ((R.view w.repo cmd.rootId).isSome || f.refill) = true ∧
          root.getCurrentPosition terms.currency = root'.getCurrentPosition terms.currency := by
  have hview := processCommand_view_root (B := B) (f := f) hR (hw.keyed cmd)
  rw [hv, Verdict.finalView, Verdict.accepted, hok, Option.isSome_some, Bool.true_and,
    Bool.true_and, Verdict.handledView, afterLoad] at hview
  cases hstore : f.store with
  | true =>
    rw [hstore, Bool.true_or, if_pos rfl] at hview
    simp [storedPosition_of_view hview, hpos]
  | false =>
    cases hal : R.aliased with
    | true =>
      rw [hal, Bool.or_true, if_pos rfl] at hview
      simp [storedPosition_of_view hview, hpos]
    | false =>
      rw [hstore, hal, Bool.or_self, if_neg Bool.false_ne_true, if_neg Bool.false_ne_true,
        Bool.or_false] at hview
      cases hshown : (R.view w.repo cmd.rootId).isSome || f.refill with
      | true =>
        rw [hshown, if_pos rfl] at hview
        simp [storedPosition_of_view hview, hpos]
      | false =>
        rw [hshown, if_neg Bool.false_ne_true] at hview
        simp [storedPosition, hview]

/-- An announced movement has happened, in the log and in the store, exactly when the
command is safe. -/
theorem announced_iff (kind : RepoInfraTypes) (B : BigNumber) (f : Faults) (w : World)
    (cmd : Command) (hw : WellKept kind.repo w) (h₁ : f.publish₁.AllOrNothing)
    (h₂ : f.publish₂.AllOrNothing) :
    Announced kind.repo (processCommand kind.repo B f w cmd) ↔
      AnnouncementSafe kind.repo B f w cmd := by
  have hR := kind.repo_lawful
  by_cases hmoves : ∃ root root', Moves kind.repo B w cmd root root'
  · obtain ⟨root, root', hmv⟩ := hmoves
    obtain ⟨events, stateEvent, hv⟩ := verdict_of_moves hmv
    obtain ⟨-, terms, position, m, hterms, hpos, -, rfl, hm, rfl⟩ := verdict_move hv
    have hid : root'.id = cmd.rootId := verdict_accepted_id (hw.keyed cmd) (by rw [hv]; rfl)
    have hpub := processCommand_published (B := B) (f := f) hR (hw.keyed cmd)
    rw [hv, Verdict.published, Verdict.events, Verdict.stateEvents] at hpub
    rw [announcementSafe_iff hmv hterms]
    cases hok : f.publish₁.isOk with
    | true =>
      rw [hok, if_pos rfl] at hpub
      rw [if_pos rfl, announced_of_published hid hm hpub,
        storedPosition_after_move hR hw hv hpos hok]
    | false =>
      rw [hok, if_neg Bool.false_ne_true, PublishOutcome.delivered_of_not_isOk hok h₁,
        List.nil_append] at hpub
      rw [if_neg Bool.false_ne_true]
      cases hok₂ : f.publish₂.isOk with
      | true =>
        rw [PublishOutcome.delivered_of_isOk hok₂] at hpub
        exact ⟨fun h => (not_announced_alone hm hpub h).elim, fun h => by cases h⟩
      | false =>
        rw [PublishOutcome.delivered_of_not_isOk hok₂ h₂] at hpub
        refine ⟨fun _ => rfl, fun _ m' hm' => ?_⟩
        rw [hpub] at hm'
        cases hm'
  · have hnot : ∀ root root', ¬ Moves kind.repo B w cmd root root' := fun root root' h =>
      hmoves ⟨root, root', h⟩
    exact ⟨fun _ root root' _ h => (hnot root root' h).elim,
      fun _ => announced_of_not_moves hR hw hnot⟩

end

/-- A reserve under a store that refuses its answer. -/
theorem announced_iff_sample :
    Announced RepoInfraTypes.redis.repo (processCommand RepoInfraTypes.redis.repo wholeNumbers
        { Faults.none with store := false } (sampleWorld RepoInfraTypes.redis.repo)
        (.reservePayerFundsCmd sampleTerms)) ↔
      AnnouncementSafe RepoInfraTypes.redis.repo wholeNumbers { Faults.none with store := false }
        (sampleWorld RepoInfraTypes.redis.repo) (.reservePayerFundsCmd sampleTerms) :=
  announced_iff .redis wholeNumbers _ _ _ (sampleWorld_wellKept RepoInfraTypes.redis.repo_lawful)
    (by decide) (by decide)

/-- The first publish fails and the second succeeds: the reservation is announced, but no
state event says so and the position is where it was. -/
theorem reserve_announced_without_movement :
    ¬ Announced RepoInfraTypes.redis.repo (processCommand RepoInfraTypes.redis.repo wholeNumbers
        { Faults.none with publish₁ := .failed [] } (sampleWorld RepoInfraTypes.redis.repo)
        (.reservePayerFundsCmd sampleTerms)) := by
  decide

end ParticpantsAgg

end Participants
end PocArchitecture
