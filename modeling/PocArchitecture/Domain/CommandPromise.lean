/-
`processCommand` as a promise: what it is rejected with.

A command handler awaits calls of its repositories, and between two calls runs code of
its own.  `Script` is a handler in this view.  Its own code can depend on the payload and
on the answers in any way; when it throws, it throws an error.  A call that is rejected
ends the handler with the reason of the call.  `settleWith` is what the two base classes
make of the end of a handler, with the reasons kept that `finish` leaves out.
-/
import PocArchitecture.Domain.BaseAggregate
import PocArchitecture.Infrastructure.Callbacks

namespace PocArchitecture
namespace Domain

open Infrastructure

/-- A handler from one awaited call to the next.  No handler records an event before its
last call. -/
inductive Script (S O E : Type) where
  | ends (e : E)
  | add (id : String) (next : Bool → Script S O E)
  | load (id : String) (next : Option S → Script S O E)
  | offsets (id : String) (next : Option O → Script S O E)

/-- How the calls of one command settle, by their place in the command. -/
structure Services (S O : Type) where
  add : Nat → Promise Bool
  load : Nat → Promise (Option S)
  offsets : Nat → Promise (Option O)

/-- What a handler leaves behind: the events it recorded, the root entity, and its result
or the error it threw. -/
structure Ended (M S R : Type) where
  events : List M
  root : Option S
  result : Except String R

/-- The calls of `processCommand` itself. -/
structure Calls where
  deliveries₁ : Deliveries
  deliveries₂ : Deliveries
  store : Promise Unit

variable {S O E M R : Type}

namespace Script

/-- The handler from its `i`-th call on. -/
def run (V : Services S O) : Nat → Script S O E → Promise E
  | _, ends e => .ok e
  | i, add _ next => V.add i >>= fun isNotDuplicate => run V (i + 1) (next isNotDuplicate)
  | i, load _ next => V.load i >>= fun entityState => run V (i + 1) (next entityState)
  | i, offsets _ next => V.offsets i >>= fun found => run V (i + 1) (next found)

end Script

/-- No call is rejected with null. -/
def Services.NeverNull (V : Services S O) : Prop :=
  ∀ i, ¬ (V.add i).IsNull ∧ ¬ (V.load i).IsNull ∧ ¬ (V.offsets i).IsNull

/-- The reason of a rejected handler is the reason of a call. -/
theorem Script.run_not_isNull {V : Services S O} (hV : V.NeverNull) (script : Script S O E) :
    ∀ i, ¬ (script.run V i).IsNull := by
  induction script with
  | ends e => exact fun _ => not_isNull_ok e
  | add id next ih => exact fun i => bind_not_isNull (hV i).1 fun b => ih b (i + 1)
  | load id next ih => exact fun i => bind_not_isNull (hV i).2.1 fun s => ih s (i + 1)
  | offsets id next ih => exact fun i => bind_not_isNull (hV i).2.2 fun o => ih o (i + 1)

/-! ## Around the handler -/

/-- `commit`: nothing is published when nothing was recorded. -/
def commit (deliveries : Deliveries) (events : List M) : Promise Unit :=
  if events.length ≤ 0 then .ok () else RDKafkaProducer.send deliveries events.length

/-- The `catch`, after its own `commit`. -/
def rethrow (committed : Promise Unit) (err : Reason) : Promise Bool :=
  match committed with
  | .error err' => .error err'
  | .ok () => .error err

/-- `stateEvents` are the ones that come with the result of the handler. -/
def settleWith (success : R → Bool) (stateEvents : R → List M) (noState : String)
    (calls : Calls) : Promise (Ended M S R) → Promise Bool
  | .error err => .error err
  | .ok e =>
    match e.result with
    | .error message => rethrow (commit calls.deliveries₁ e.events) (.error message)
    | .ok r =>
      match commit calls.deliveries₁ (e.events ++ stateEvents r) with
      | .error err => rethrow (commit calls.deliveries₂ e.events) err
      | .ok () =>
        if success r then
          match e.root with
          | none => .error (.error noState)
          | some _ =>
            match calls.store with
            -- nothing is left to publish in the `catch`
            | .error err => .error err
            | .ok () => .ok true
        else .ok false

/-- The command gets as far as the store. -/
def ReachesStore (success : R → Bool) (stateEvents : R → List M) (deliveries₁ : Deliveries)
    (h : Promise (Ended M S R)) : Prop :=
  ∃ e r, h = .ok e ∧ e.result = .ok r ∧ success r = true ∧ e.root.isSome = true ∧
    commit deliveries₁ (e.events ++ stateEvents r) = .ok ()

theorem commit_not_isNull (deliveries : Deliveries) (events : List M) :
    ¬ (commit deliveries events).IsNull := by
  rw [commit]
  split
  · exact not_isNull_ok ()
  · exact RDKafkaProducer.send_not_isNull deliveries events.length

theorem rethrow_isNull_iff {committed : Promise Unit} (h : ¬ committed.IsNull) {err : Reason} :
    (rethrow committed err).IsNull ↔ committed = .ok () ∧ err = .null := by
  cases committed with
  | ok u =>
    rw [rethrow, isNull_iff]
    simp
  | error err' =>
    rw [rethrow]
    exact iff_of_false (error_not_isNull h) fun hok => by cases hok.1

/-- Only the store can make a command end with null. -/
theorem settleWith_isNull_iff {success : R → Bool} {stateEvents : R → List M} {noState : String}
    {calls : Calls} {h : Promise (Ended M S R)} (hh : ¬ h.IsNull) :
    (settleWith success stateEvents noState calls h).IsNull ↔
      ReachesStore success stateEvents calls.deliveries₁ h ∧ calls.store.IsNull := by
  cases h with
  | error err =>
    refine iff_of_false (error_not_isNull hh) ?_
    rintro ⟨⟨e, r, he, -⟩, -⟩
    cases he
  | ok e =>
    cases hresult : e.result with
    | error message =>
      rw [settleWith, hresult, rethrow_isNull_iff (commit_not_isNull _ _)]
      refine iff_of_false (fun hnull => by cases hnull.2) ?_
      rintro ⟨⟨e', r, he, hr, -⟩, -⟩
      cases he
      rw [hresult] at hr
      cases hr
    | ok r =>
      have hreach : ReachesStore success stateEvents calls.deliveries₁ (.ok e) ↔
          success r = true ∧ e.root.isSome = true ∧
            commit calls.deliveries₁ (e.events ++ stateEvents r) = .ok () := by
        constructor
        · rintro ⟨e', r', he, hr, hreach⟩
          cases he
          rw [hresult] at hr
          cases hr
          exact hreach
        · exact fun hreach => ⟨e, r, rfl, hresult, hreach⟩
      rw [settleWith, hresult, hreach]
      dsimp only
      cases hcommit : commit calls.deliveries₁ (e.events ++ stateEvents r) with
      | error err =>
        have hnot := commit_not_isNull calls.deliveries₁ (e.events ++ stateEvents r)
        rw [hcommit, isNull_iff] at hnot
        dsimp only
        rw [rethrow_isNull_iff (commit_not_isNull _ _)]
        exact iff_of_false (fun hnull => hnot (by rw [hnull.2])) fun hall => by cases hall.1.2.2
      | ok u =>
        dsimp only
        cases success r with
        | false => simp
        | true =>
          cases e.root with
          | none => simp
          | some s =>
            cases calls.store with
            | ok u => simp
            | error err => simp [isNull_iff]

/-- The same for a command that has first to be made of a message. -/
theorem map_settleWith_isNull_iff {success : R → Bool} {stateEvents : R → List M}
    {noState : String} {calls : Calls} {command : Except String E}
    {ended : E → Promise (Ended M S R)} (hended : ∀ e, ¬ (ended e).IsNull) :
    (∃ processed, (command.map fun e => settleWith success stateEvents noState calls (ended e)) =
        .ok processed ∧ processed.IsNull) ↔
      (∃ e, command = .ok e ∧ ReachesStore success stateEvents calls.deliveries₁ (ended e)) ∧
        calls.store.IsNull := by
  cases command with
  | error thrown =>
    refine iff_of_false ?_ ?_
    · rintro ⟨processed, h, -⟩
      cases h
    · rintro ⟨⟨e, h, -⟩, -⟩
      cases h
  | ok e =>
    constructor
    · rintro ⟨processed, h, hnull⟩
      cases h
      obtain ⟨hreach, hstore⟩ := (settleWith_isNull_iff (hended e)).mp hnull
      exact ⟨⟨e, rfl, hreach⟩, hstore⟩
    · rintro ⟨⟨e', h, hreach⟩, hstore⟩
      cases h
      exact ⟨_, rfl, (settleWith_isNull_iff (hended e)).mpr ⟨hreach, hstore⟩⟩

namespace BaseAggregate

/-- `processCommand` of `BaseAggregate`. -/
def settle (msgName : String) (calls : Calls) (h : Promise (Ended M S Bool)) : Promise Bool :=
  settleWith id (fun _ => [])
    s!"Aggregate doesn't have a valid state to process command with name {msgName}" calls h

end BaseAggregate

namespace BaseEventSourcingAggregate

/-- The state event of a successful command, if it has one. -/
def TCommandResult.published (r : TCommandResult M) : List M :=
  if r.success then r.stateEvent.toList else []

/-- `processCommand` of `BaseEventSourcingAggregate`. -/
def settle (msgName : String) (calls : Calls) (h : Promise (Ended M S (TCommandResult M))) :
    Promise Bool :=
  settleWith (·.success) TCommandResult.published
    s!"Aggregate doesn't have a valid state after processing command with name {msgName}" calls h

end BaseEventSourcingAggregate

/-! ## The outcome -/

/-- The publishing calls fail together with those of a fault record. -/
structure Calls.Matches (calls : Calls) (f : Faults) : Prop where
  publish₁ : ∀ n, 0 < n →
    (RDKafkaProducer.send calls.deliveries₁ n = .ok () ↔ f.publish₁.isOk = true)
  publish₂ : ∀ n, 0 < n →
    (RDKafkaProducer.send calls.deliveries₂ n = .ok () ↔ f.publish₂.isOk = true)

theorem rethrow_toOption (committed : Promise Unit) (err : Reason) :
    (rethrow committed err).toOption = none := by
  cases committed <;> rfl

theorem Calls.Matches.commit_iff {calls : Calls} {f : Faults} (h : calls.Matches f)
    (events : List M) :
    commit calls.deliveries₁ events = .ok () ↔ (events.isEmpty || f.publish₁.isOk) = true := by
  rw [commit]
  cases events with
  | nil => simp
  | cons m ms =>
    rw [if_neg (by simp), h.publish₁ _ (by simp)]
    simp

/-- How a handler that did not throw is settled, without the reasons. -/
theorem settleWith_toOption {store : O → S → O × Bool} {f : Faults} {calls : Calls}
    (hcalls : calls.Matches f) {success : R → Bool} {stateEvents : R → List M} {noState : String}
    {e : Ended M S R} {r : R} (hresult : e.result = .ok r) {repo : O}
    (hstore : ∀ s, e.root = some s → (calls.store = .ok () ↔ (store repo s).2 = true)) :
    (settleWith success stateEvents noState calls (.ok e)).toOption =
      if (e.events ++ stateEvents r).isEmpty || f.publish₁.isOk then
        if success r then e.root.bind fun s => if (store repo s).2 then some true else none
        else some false
      else none := by
  have hcommit := hcalls.commit_iff (e.events ++ stateEvents r)
  rw [settleWith, hresult]
  dsimp only
  by_cases hok : ((e.events ++ stateEvents r).isEmpty || f.publish₁.isOk) = true
  · rw [if_pos hok, hcommit.mpr hok]
    cases success r with
    | false => rfl
    | true =>
      cases hroot : e.root with
      | none => rfl
      | some s =>
        have hs := hstore s hroot
        show (match calls.store with
          | .error err => (.error err : Promise Bool)
          | .ok () => .ok true).toOption = if (store repo s).2 then some true else none
        cases hcs : calls.store with
        | ok u => rw [if_pos (hs.mp hcs), Except.toOption]
        | error err =>
          have hfails : ¬ (store repo s).2 = true := fun h => by
            rw [hs.mpr h] at hcs
            cases hcs
          rw [if_neg hfails, Except.toOption]
  · rw [if_neg hok]
    cases hc : commit calls.deliveries₁ (e.events ++ stateEvents r) with
    | ok u => exact absurd (hcommit.mp hc) hok
    | error err => exact rethrow_toOption _ _

/-- `finish` is the promise without its reasons. -/
theorem BaseAggregate.settle_outcome {store : O → S → O × Bool} {f : Faults}
    {calls : Calls} (hcalls : calls.Matches f) {h : BaseAggregate.Handled M S O}
    (hstore : ∀ s, h.root = some s → (calls.store = .ok () ↔ (store h.repo s).2 = true))
    {e : Ended M S Bool} (hevents : e.events = h.events) (hroot : e.root = h.root)
    (hresult : e.result.toOption = h.result) (msgName : String) :
    (BaseAggregate.settle msgName calls (.ok e)).toOption =
      (BaseAggregate.finish store f h).outcome := by
  rw [BaseAggregate.settle, BaseAggregate.finish, ← hresult]
  cases hr : e.result with
  | error message =>
    rw [settleWith, hr]
    exact rethrow_toOption _ _
  | ok r =>
    rw [settleWith_toOption hcalls hr (hroot ▸ hstore), hevents, hroot, List.append_nil]
    dsimp only [Except.toOption]
    cases r <;> cases h.root <;> split <;> rfl

theorem BaseEventSourcingAggregate.settle_outcome {store : O → S → O × Bool} {f : Faults}
    {calls : Calls} (hcalls : calls.Matches f) {h : BaseEventSourcingAggregate.Handled M S O}
    (hstore : ∀ s, h.root = some s → (calls.store = .ok () ↔ (store h.repo s).2 = true))
    {e : Ended M S (BaseEventSourcingAggregate.TCommandResult M)} (hevents : e.events = h.events)
    (hroot : e.root = h.root) (hresult : e.result.toOption = h.result) (msgName : String) :
    (BaseEventSourcingAggregate.settle msgName calls (.ok e)).toOption =
      (BaseEventSourcingAggregate.finish store f h).outcome := by
  rw [BaseEventSourcingAggregate.settle, BaseEventSourcingAggregate.finish, ← hresult]
  cases hr : e.result with
  | error message =>
    rw [settleWith, hr]
    exact rethrow_toOption _ _
  | ok r =>
    rw [settleWith_toOption hcalls hr (hroot ▸ hstore), hevents, hroot]
    obtain ⟨success, stateEvent⟩ := r
    dsimp only [Except.toOption, BaseEventSourcingAggregate.TCommandResult.published]
    cases success with
    | false =>
      simp only [Bool.false_eq_true, if_false, List.append_nil]
      split <;> rfl
    | true =>
      simp only [if_true]
      cases h.root <;> split <;> rfl

end Domain
end PocArchitecture
