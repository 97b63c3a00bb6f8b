/-
The two aggregate base classes: what `processCommand` does around a command handler.

`BaseAggregate` publishes the events a handler recorded, then stores the root entity.
`BaseEventSourcingAggregate` does the same with the state event the handler returned
appended to the domain events.  Both publish before they store, and both publish what is
still uncommitted once more in their `catch`.  The handlers are in the modules of the
two bounded contexts; here they are the `Handled` record they leave behind.
-/
import PocArchitecture.Domain.Publisher

namespace PocArchitecture
namespace Domain

/-- How the calls made around one command end.  `publish₁` and `publish₂` are the first
and the second `publishMany`, `store` is whether the repository's service accepts the
root entity. -/
structure Faults where
  publish₁ : PublishOutcome
  publish₂ : PublishOutcome
  store : Bool
  deriving DecidableEq

/-- No call fails. -/
def Faults.none : Faults := { publish₁ := .ok, publish₂ := .ok, store := true }

/-- What `processCommand` leaves behind: the repository, the messages delivered in order,
and the value the promise resolves with, `none` when it rejects. -/
structure Settled (M R : Type) where
  repo : R
  published : List M
  outcome : Option Bool

namespace BaseAggregate

variable {M S R : Type}

/-- A handler of `BaseAggregate` when its promise settles: the repositories, the root
entity, `_uncommittedEvents`, and the result, `none` when it threw. -/
structure Handled (M S R : Type) where
  repo : R
  root : Option S
  events : List M
  result : Option Bool

/-- `BaseAggregate.processCommand` after the handler. -/
def finish (store : R → S → R × Bool) (f : Faults) (h : Handled M S R) : Settled M R :=
  match h.result with
  | none => { repo := h.repo, published := f.publish₁.delivered h.events, outcome := none }
  | some result =>
    if h.events.isEmpty || f.publish₁.isOk then
      match result, h.root with
      | false, _ => { repo := h.repo, published := h.events, outcome := some false }
      | true, none => { repo := h.repo, published := h.events, outcome := none }
      | true, some s =>
        let stored := store h.repo s
        -- a failed store reaches the `catch` with nothing left to publish
        { repo := stored.1, published := h.events,
          outcome := if stored.2 then some true else none }
    else
      { repo := h.repo,
        published := f.publish₁.delivered h.events ++ f.publish₂.delivered h.events,
        outcome := none }

/-- Only recorded events are published, whatever fails. -/
theorem mem_finish_published {store : R → S → R × Bool} {f : Faults} {h : Handled M S R} {m : M}
    (hm : m ∈ (finish store f h).published) : m ∈ h.events := by
  unfold finish at hm
  split at hm
  · exact PublishOutcome.mem_of_mem_delivered hm
  · split at hm
    · split at hm <;> exact hm
    · rcases List.mem_append.mp hm with hm | hm <;>
        exact PublishOutcome.mem_of_mem_delivered hm

/-- The repository ends as the handler left it, or with the root entity stored on top. -/
theorem finish_repo_cases (store : R → S → R × Bool) (f : Faults) (h : Handled M S R) :
    (finish store f h).repo = h.repo ∨
      ∃ s, h.root = some s ∧ h.result = some true ∧ (finish store f h).repo = (store h.repo s).1 ∧
        (finish store f h).published = h.events := by
  unfold finish
  split
  · exact Or.inl rfl
  · rename_i result hres
    split
    · split
      · exact Or.inl rfl
      · exact Or.inl rfl
      · rename_i s hs
        exact Or.inr ⟨s, hs, hres, rfl, rfl⟩
    · exact Or.inl rfl

end BaseAggregate

namespace BaseEventSourcingAggregate

variable {M S R : Type}

structure TCommandResult (M : Type) where
  success : Bool
  stateEvent : Option M

/-- A handler of `BaseEventSourcingAggregate` when its promise settles, with
`_uncommittedDomainEvents` in `events`. -/
structure Handled (M S R : Type) where
  repo : R
  root : Option S
  events : List M
  result : Option (TCommandResult M)

/-- `BaseEventSourcingAggregate.processCommand` after the handler. -/
def finish (store : R → S → R × Bool) (f : Faults) (h : Handled M S R) : Settled M R :=
  match h.result with
  | none => { repo := h.repo, published := f.publish₁.delivered h.events, outcome := none }
  | some ⟨false, _⟩ =>
    if h.events.isEmpty || f.publish₁.isOk then
      { repo := h.repo, published := h.events, outcome := some false }
    else
      { repo := h.repo,
        published := f.publish₁.delivered h.events ++ f.publish₂.delivered h.events,
        outcome := none }
  | some ⟨true, stateEvent⟩ =>
    let all := h.events ++ stateEvent.toList
    if all.isEmpty || f.publish₁.isOk then
      match h.root with
      | none => { repo := h.repo, published := all, outcome := none }
      | some s =>
        let stored := store h.repo s
        -- a failed store reaches the `catch` with nothing left to publish
        { repo := stored.1, published := all,
          outcome := if stored.2 then some true else none }
    else
      -- the `catch` sends the domain events again, but not the state event
      { repo := h.repo,
        published := f.publish₁.delivered all ++ f.publish₂.delivered h.events,
        outcome := none }

/-- The messages a handler asks to be published. -/
def Handled.messages (h : Handled M S R) : List M :=
  match h.result with
  | some ⟨true, stateEvent⟩ => h.events ++ stateEvent.toList
  | _ => h.events

theorem mem_finish_published {store : R → S → R × Bool} {f : Faults} {h : Handled M S R} {m : M}
    (hm : m ∈ (finish store f h).published) : m ∈ h.messages := by
  unfold finish at hm
  unfold Handled.messages
  split at hm
  · rename_i hres
    rw [hres]
    exact PublishOutcome.mem_of_mem_delivered hm
  · rename_i hres
    rw [hres]
    split at hm
    · exact hm
    · rcases List.mem_append.mp hm with hm | hm <;>
        exact PublishOutcome.mem_of_mem_delivered hm
  · rename_i stateEvent hres
    rw [hres]
    dsimp only at hm ⊢
    split at hm
    · split at hm <;> exact hm
    · rcases List.mem_append.mp hm with hm | hm
      · exact PublishOutcome.mem_of_mem_delivered hm
      · exact List.mem_append_left _ (PublishOutcome.mem_of_mem_delivered hm)

/-- A first publish that succeeds sends everything once. -/
theorem finish_published_of_isOk {f : Faults} (hok : f.publish₁.isOk = true)
    (store : R → S → R × Bool) (h : Handled M S R) :
    (finish store f h).published = h.messages := by
  unfold finish Handled.messages
  split
  · rename_i hres
    rw [hres]
    exact PublishOutcome.delivered_of_isOk hok h.events
  · rename_i hres
    rw [hres, hok, Bool.or_true, if_pos rfl]
  · rename_i stateEvent hres
    dsimp only
    rw [hres, hok, Bool.or_true, if_pos rfl]
    split <;> rfl

/-- The repository ends as the handler left it, or with the root entity of an accepted
command stored on top. -/
theorem finish_repo_cases (store : R → S → R × Bool) (f : Faults) (h : Handled M S R) :
    (finish store f h).repo = h.repo ∨
      ∃ s stateEvent, h.root = some s ∧ h.result = some ⟨true, stateEvent⟩ ∧
        (finish store f h).repo = (store h.repo s).1 := by
  unfold finish
  split
  · exact Or.inl rfl
  · split <;> exact Or.inl rfl
  · rename_i stateEvent hres
    dsimp only
    split
    · split
      · exact Or.inl rfl
      · rename_i s hs
        exact Or.inr ⟨s, stateEvent, hs, hres, rfl⟩
    · exact Or.inl rfl

end BaseEventSourcingAggregate

end Domain
end PocArchitecture
