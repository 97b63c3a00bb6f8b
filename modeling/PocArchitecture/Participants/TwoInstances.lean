/-
Two instances over one Redis.

Each instance keeps a map of its own in front of the shared Redis and never drops an
entry, so it may work on a copy the other instance has moved past.  `step` runs a command
on one of the two.  As long as no instance moves or snapshots a participant on a stale
copy, the published messages and the contents of Redis are those of a single instance:
the counterpart of a transfer may be stale, since a handler reads only its accounts'
kinds and its endpoints, and movements do not change these.
-/
import PocArchitecture.Participants.Repos
import PocArchitecture.Participants.LaterLoads

namespace PocArchitecture
namespace Participants

open PublicMessages Infrastructure
open Domain (Loaded PublishOutcome Settled)
open Domain.BaseEventSourcingAggregate

namespace ParticpantsAgg

inductive Instance where
  | first
  | second
  deriving DecidableEq

/-- The maps of the two instances, and what they share. -/
structure Deployment where
  memory : Instance → KeyValue String ParticipantState
  redis : KeyValue String ParticipantState
  log : Log
  published : List Message

namespace Deployment

abbrev R : StateRepo ParticipantState := cachedPersistedRedisParticipantStateRepo

/-- What an instance works on. -/
def world (d : Deployment) (i : Instance) : World :=
  { repo := { inMemory := d.memory i, redis := d.redis }, log := d.log }

/-- One command, run to completion on one instance. -/
def step (B : BigNumber) (d : Deployment) (l : Instance × Command) : Deployment :=
  let settled := processCommand R B Faults.none (d.world l.1) l.2
  { memory := fun j => if j = l.1 then settled.repo.repo.inMemory else d.memory j
    redis := settled.repo.repo.redis
    log := settled.repo.log
    published := d.published ++ settled.published }

def start (partitioner : String → Nat) : Deployment :=
  { memory := fun _ => ∅, redis := ∅, log := EventStore.empty partitioner, published := [] }

/-- The same command on the first instance. -/
def onFirst (l : Instance × Command) : Instance × Command := (.first, l.2)

/-- The instance holds no stale copy of the participant the command is addressed to.  A
creation does not care: any copy makes it a duplicate. -/
def FreshRoot (d : Deployment) (l : Instance × Command) : Prop :=
  match l.2 with
  | .createParticipantCmd _ => True
  | cmd => ∀ s ∈ (d.memory l.1).get (keyWithPrefix cmd.rootId),
      d.redis.get (keyWithPrefix cmd.rootId) = some s

instance (d : Deployment) (l : Instance × Command) : Decidable (FreshRoot d l) := by
  unfold FreshRoot
  split <;> infer_instance

/-- What a handler reads of a counterpart. -/
structure SameShape (a b : ParticipantState) : Prop where
  endpoints : a.endpoints = b.endpoints
  hasAccount : ∀ accType currency, a.hasAccount accType currency = b.hasAccount accType currency

theorem SameShape.refl (a : ParticipantState) : SameShape a a :=
  { endpoints := rfl, hasAccount := fun _ _ => rfl }

theorem SameShape.of_movesTo {a s s' : ParticipantState} {currency : CurrencyTypes}
    (h : SameShape a s) (hto : s.MovesTo currency s') : SameShape a s' where
  endpoints := h.endpoints.trans hto.endpoints_eq.symm
  hasAccount t c := (h.hasAccount t c).trans (hto.hasAccount_eq t c).symm

theorem repo_lawful : R.Lawful ParticipantState.id :=
  RepoInfraTypes.repo_lawful .cachedPersistedRedis

/-! ## What a command does to Redis -/

section Redis

variable {B : BigNumber} {w : World} {cmd : Command} {f : Faults}

@[simp] theorem load_redis (r : RepoState ParticipantState) (id : String) :
    (R.load r id).1.redis = r.redis := by
  rcases StateRepo.cachedRepo_load _ r id with h | ⟨s, -, -, h⟩ <;> rw [R,
    cachedPersistedRedisParticipantStateRepo, h]

@[simp] theorem write_redis (r : RepoState ParticipantState) (id : String) (s : ParticipantState) :
    (R.write r id s).redis = r.redis := by
  show (if (r.inMemory.get (keyWithPrefix id)).isSome then
    { r with inMemory := r.inMemory.set (keyWithPrefix id) s } else r).redis = _
  split <;> rfl

theorem conclude_redis (id : String) (root : ParticipantState) (d : Decision) :
    (conclude R f id w false root d).repo.repo.redis = w.repo.redis := by
  cases d with
  | refuse events => rfl
  | accept root' events stateEvent => exact write_redis _ _ _

theorem withCounterpart_redis (id : String) (root : ParticipantState) (counterpartId : String)
    (decide : Option ParticipantState → Decision) :
    (withCounterpart R f id w false root counterpartId decide).repo.repo.redis = w.repo.redis := by
  rw [withCounterpart]
  exact (conclude_redis id root _).trans (load_redis _ _)

/-- With nothing to refill, a handler leaves Redis alone. -/
theorem handle_redis (hdue : (load R applyStateEvent f.offsets w cmd.rootId).refillDue = false) :
    (handle R B f w cmd).repo.repo.redis = w.repo.redis := by
  have hload : ∀ id, (load R applyStateEvent f.offsets w id).world.repo.redis = w.repo.redis := by
    intro id
    rw [load_repo, load_redis]
  cases cmd with
  | createParticipantCmd participant =>
    dsimp only [Command.rootId] at hdue
    rw [handle, processCreateParticipantCommand]
    split
    · exact hload _
    · rw [hdue]
      exact hload _
    · exact hload _
  | reservePayerFundsCmd payload =>
    dsimp only [Command.rootId] at hdue
    rw [handle, processReserveFundsCommand]
    split
    · exact hload _
    · exact hload _
    · rw [hdue]
      exact (withCounterpart_redis _ _ _ _).trans (hload _)
  | commitPayeeFundsCmd payload =>
    dsimp only [Command.rootId] at hdue
    rw [handle, processCommitFundsCommand]
    split
    · exact hload _
    · exact hload _
    · split
      · rw [hdue]
        exact (withCounterpart_redis _ _ _ _).trans (hload _)
      · rw [hdue]
        exact hload _
  | snapshotParticipantStateCmd participantId =>
    dsimp only [Command.rootId] at hdue
    rw [handle, processParticipantStateSnapshotCommand]
    split
    · exact hload _
    · exact hload _
    · rw [hdue]
      exact hload _

/-- Without failures, and with nothing to refill, Redis gets the accepted entity. -/
theorem processCommand_redis
    (hkeyed : ∀ s, lookup R applyStateEvent w cmd.rootId = .found s → s.id = cmd.rootId)
    (hdue : (load R applyStateEvent true w cmd.rootId).refillDue = false) :
    (processCommand R B Faults.none w cmd).repo.repo.redis =
      match (verdict R B w cmd).accepted with
      | some s => w.repo.redis.set (keyWithPrefix s.id) s
      | none => w.repo.redis := by
  have hf := handle_follows (B := B) (f := Faults.none) repo_lawful hkeyed
  have hredis := handle_redis (B := B) (f := Faults.none) hdue
  show (finish _ _ (handle R B Faults.none w cmd)).repo.repo.redis = _
  rw [hf.finish_eq.2]
  cases (verdict R B w cmd).accepted with
  | none => exact hredis
  | some s => exact congrArg (·.set (keyWithPrefix s.id) s) hredis

end Redis

/-! ## What every step keeps -/

/-- Everything is kept under its own id, a copy differs from what Redis holds in nothing a
handler reads of a counterpart, and a participant Redis does not hold is not in the log. -/
structure Kept (d : Deployment) : Prop where
  memory_id : ∀ i id s, (d.memory i).get (keyWithPrefix id) = some s → s.id = id
  redis_id : ∀ id s, d.redis.get (keyWithPrefix id) = some s → s.id = id
  log_keyed : LogKeyed d.log
  log_consistent : d.log.Consistent
  shape : ∀ i id s, (d.memory i).get (keyWithPrefix id) = some s →
    ∃ s', d.redis.get (keyWithPrefix id) = some s' ∧ SameShape s s'
  unlogged : ∀ id, d.redis.get (keyWithPrefix id) = none →
    rebuild applyStateEvent (d.log.sourced id) = .notFound

section Step

variable {B : BigNumber} {d e : Deployment} {i : Instance} {cmd : Command} {id : String}

theorem view_world (d : Deployment) (i : Instance) (id : String) :
    R.view (d.world i).repo id =
      ((d.memory i).get (keyWithPrefix id)).or (d.redis.get (keyWithPrefix id)) :=
  StateRepo.cachedRepo_view (d.world i).repo id

theorem view_eq_none (hv : R.view (d.world i).repo id = none) :
    (d.memory i).get (keyWithPrefix id) = none ∧ d.redis.get (keyWithPrefix id) = none := by
  rw [view_world, Option.or_eq_none_iff] at hv
  exact hv

theorem kept_start (partitioner : String → Nat) : Kept (start partitioner) where
  memory_id i id s h := by simp [start] at h
  redis_id id s h := by simp [start] at h
  log_keyed := (wellKept_start repo_lawful partitioner).log_keyed
  log_consistent := (wellKept_start repo_lawful partitioner).log_consistent
  shape i id s h := by simp [start] at h
  unlogged _ _ := rfl

namespace Kept

variable (h : Kept d)

include h

theorem wellKept (i : Instance) : WellKept R (d.world i) where
  view_id id s hs := by
    rw [view_world, Option.or_eq_some_iff] at hs
    rcases hs with hs | ⟨-, hs⟩
    · exact h.memory_id i id s hs
    · exact h.redis_id id s hs
  log_keyed := h.log_keyed
  log_consistent := h.log_consistent

theorem lookup_of_none (hv : R.view (d.world i).repo id = none) :
    lookup R applyStateEvent (d.world i) id = .notFound := by
  rw [lookup_of_view_none hv]
  exact h.unlogged id (view_eq_none hv).2

theorem view_of_lookup {s : ParticipantState}
    (hs : lookup R applyStateEvent (d.world i) id = .found s) :
    R.view (d.world i).repo id = some s := by
  cases hv : R.view (d.world i).repo id with
  | none =>
    rw [h.lookup_of_none hv] at hs
    cases hs
  | some s' =>
    rw [lookup_of_view hv] at hs
    exact congrArg some (Loaded.found.inj hs)

/-- The cache is ahead of the log, so no refill is ever due. -/
theorem not_due (i : Instance) (cmd : Command) :
    (load R applyStateEvent true (d.world i) cmd.rootId).refillDue = false := by
  rw [load_refillDue]
  cases hv : R.view (d.world i).repo cmd.rootId with
  | none =>
    rw [h.lookup_of_none hv]
    rfl
  | some s => rfl

theorem redis_step (B : BigNumber) (i : Instance) (cmd : Command) :
    (step B d (i, cmd)).redis =
      match (verdict R B (d.world i) cmd).accepted with
      | some s => d.redis.set (keyWithPrefix s.id) s
      | none => d.redis :=
  processCommand_redis ((h.wellKept i).keyed cmd) (h.not_due i cmd)

/-- After a command, its instance sees the accepted entity and is otherwise where it was. -/
theorem view_step (B : BigNumber) (i : Instance) (cmd : Command) (id : String) :
    R.view (processCommand R B Faults.none (d.world i) cmd).repo.repo id =
      if id = cmd.rootId ∧ (verdict R B (d.world i) cmd).accepted.isSome then
        (verdict R B (d.world i) cmd).accepted
      else R.view (d.world i).repo id := by
  have hw := h.wellKept i
  by_cases hid : id = cmd.rootId
  · subst hid
    cases hacc : (verdict R B (d.world i) cmd).accepted with
    | some s =>
      rw [processCommand_view_root repo_lawful (hw.keyed cmd), Verdict.finalView, hacc]
      exact (if_pos rfl).trans (if_pos ⟨rfl, rfl⟩).symm
    | none =>
      rw [if_neg (by simp)]
      have hsame : lookup R applyStateEvent (processCommand R B Faults.none (d.world i) cmd).repo
          cmd.rootId = lookup R applyStateEvent (d.world i) cmd.rootId := by
        cases hv : verdict R B (d.world i) cmd with
        | reject => exact lookup_of_reject repo_lawful hw hv
        | refuse root events => exact lookup_of_refuse repo_lawful hw hv
        | create participant => rw [hv] at hacc; cases hacc
        | move root root' events stateEvent => rw [hv] at hacc; cases hacc
        | snapshot root => rw [hv] at hacc; cases hacc
      cases hv' : R.view (processCommand R B Faults.none (d.world i) cmd).repo.repo cmd.rootId with
      | some s =>
        rw [lookup_of_view hv'] at hsame
        exact (h.view_of_lookup hsame.symm).symm
      | none =>
        cases hv : R.view (d.world i).repo cmd.rootId with
        | none => rfl
        | some s =>
          -- nothing takes a shown participant out of the cache
          rw [processCommand_view_root repo_lawful (hw.keyed cmd), Verdict.finalView, hacc] at hv'
          cases hver : verdict R B (d.world i) cmd with
          | reject => rw [hver] at hv'; exact (hv.symm.trans hv').symm
          | create participant => rw [hver] at hacc; cases hacc
          | move root root' events stateEvent => rw [hver] at hacc; cases hacc
          | snapshot root => rw [hver] at hacc; cases hacc
          | refuse root events =>
            rw [hver] at hv'
            cases root with
            | none => exact (hv.symm.trans hv').symm
            | some root => simp [Verdict.handledView, afterLoad, hv] at hv'
  · rw [if_neg fun hc => hid hc.1]
    exact processCommand_view_ne repo_lawful (hw.keyed cmd) hid

/-- An accepted entity has the shape of what Redis held of it. -/
theorem accepted_shape {s r : ParticipantState}
    (hacc : (verdict R B (d.world i) cmd).accepted = some s)
    (hr : d.redis.get (keyWithPrefix cmd.rootId) = some r) {a : ParticipantState}
    (ha : SameShape a r) : SameShape a s := by
  have hshown : ∀ root, lookup R applyStateEvent (d.world i) cmd.rootId = .found root →
      SameShape a root := by
    intro root hroot
    have hview := h.view_of_lookup hroot
    rw [view_world, Option.or_eq_some_iff] at hview
    rcases hview with hm | ⟨-, hr'⟩
    · obtain ⟨r', hr', hshape⟩ := h.shape i _ root hm
      obtain rfl := Option.some.inj (hr.symm.trans hr')
      exact
        { endpoints := ha.endpoints.trans hshape.endpoints.symm
          hasAccount := fun t c => (ha.hasAccount t c).trans (hshape.hasAccount t c).symm }
    · obtain rfl := Option.some.inj (hr.symm.trans hr')
      exact ha
  cases hv : verdict R B (d.world i) cmd with
  | reject => rw [hv] at hacc; cases hacc
  | refuse root events => rw [hv] at hacc; cases hacc
  | create participant =>
    obtain ⟨rfl, hnot⟩ := verdict_create hv
    have hnone := view_none_of_lookup (R := R) (by rw [hnot]; rfl)
    rw [Command.rootId, (view_eq_none hnone).2] at hr
    cases hr
  | move root root' events stateEvent =>
    obtain ⟨-, terms, -, -, -, -, hto, -⟩ := verdict_move hv
    have hroot := verdict_loaded (B := B) (s := root) (by rw [hv]; rfl)
    rw [hv] at hacc
    cases hacc
    exact (hshown root hroot).of_movesTo hto
  | snapshot root =>
    have hroot := verdict_loaded (B := B) (s := root) (by rw [hv]; rfl)
    rw [hv] at hacc
    exact Option.some.inj hacc ▸ hshown root hroot

end Kept

theorem get_redis_step (h : Kept d) (B : BigNumber) (i : Instance) (cmd : Command) (id : String) :
    (step B d (i, cmd)).redis.get (keyWithPrefix id) =
      if id = cmd.rootId ∧ (verdict R B (d.world i) cmd).accepted.isSome then
        (verdict R B (d.world i) cmd).accepted
      else d.redis.get (keyWithPrefix id) := by
  rw [h.redis_step]
  cases hacc : (verdict R B (d.world i) cmd).accepted with
  | none => rw [if_neg (by simp)]
  | some s =>
    have hid : s.id = cmd.rootId := verdict_accepted_id ((h.wellKept i).keyed cmd) hacc
    dsimp only
    rw [hid]
    by_cases h : id = cmd.rootId
    · rw [h, KeyValue.get_set_self, if_pos ⟨rfl, rfl⟩]
    · rw [KeyValue.get_set_ne _ _ (keyWithPrefix_injective.ne h), if_neg fun hc => h hc.1]

/-- What an instance's map holds after a command, it has just seen. -/
theorem get_memory_step (h : Kept d) (B : BigNumber) (i : Instance) (cmd : Command) {id : String}
    {s : ParticipantState}
    (hs : ((step B d (i, cmd)).memory i).get (keyWithPrefix id) = some s) :
    (if id = cmd.rootId ∧ (verdict R B (d.world i) cmd).accepted.isSome then
        (verdict R B (d.world i) cmd).accepted
      else R.view (d.world i).repo id) = some s := by
  rw [← h.view_step, R, cachedPersistedRedisParticipantStateRepo, StateRepo.cachedRepo_view,
    Option.or_eq_some_iff]
  rw [step] at hs
  dsimp only at hs
  rw [if_pos rfl] at hs
  exact Or.inl hs

theorem memory_step_ne (B : BigNumber) (d : Deployment) {i j : Instance} (cmd : Command)
    (hne : j ≠ i) : (step B d (i, cmd)).memory j = d.memory j :=
  if_neg hne

theorem Kept.step (h : Kept d) (B : BigNumber) (i : Instance) (cmd : Command) :
    Kept (step B d (i, cmd)) where
  memory_id j id s hs := by
    by_cases hj : j = i
    · subst hj
      have hw := (h.wellKept j).processCommand repo_lawful B Faults.none cmd
      have hs := get_memory_step h B j cmd hs
      rw [← h.view_step] at hs
      exact hw.view_id id s hs
    · rw [memory_step_ne B d cmd hj] at hs
      exact h.memory_id j id s hs
  redis_id id s hs := by
    rw [get_redis_step h] at hs
    split at hs
    · rename_i hc
      rw [hc.1]
      exact verdict_accepted_id ((h.wellKept i).keyed cmd) hs
    · exact h.redis_id id s hs
  log_keyed := ((h.wellKept i).processCommand repo_lawful B Faults.none cmd).log_keyed
  log_consistent := ((h.wellKept i).processCommand repo_lawful B Faults.none cmd).log_consistent
  shape j id s hs := by
    rw [get_redis_step h]
    by_cases hj : j = i
    · subst hj
      have hs := get_memory_step h B j cmd hs
      split at hs
      · rename_i hc
        exact ⟨s, by rw [if_pos hc, hs], SameShape.refl s⟩
      · rename_i hc
        rw [if_neg hc]
        rw [view_world, Option.or_eq_some_iff] at hs
        rcases hs with hs | ⟨-, hs⟩
        · exact h.shape j id s hs
        · exact ⟨s, hs, SameShape.refl s⟩
    · rw [memory_step_ne B d cmd hj] at hs
      obtain ⟨r, hr, hshape⟩ := h.shape j id s hs
      split
      · rename_i hc
        obtain ⟨rfl, hacc⟩ := hc
        obtain ⟨s', hs'⟩ := Option.isSome_iff_exists.mp hacc
        exact ⟨s', hs', h.accepted_shape hs' hr hshape⟩
      · exact ⟨r, hr, hshape⟩
  unlogged id hid := by
    rw [get_redis_step h] at hid
    split at hid
    · rename_i hc
      rw [hid] at hc
      cases hc.2
    · rename_i hc
      have hw := h.wellKept i
      have hsame : (Deployment.step B d (i, cmd)).log.sourced id = d.log.sourced id := by
        by_cases hroot : id = cmd.rootId
        · have hacc : (verdict R B (d.world i) cmd).stateEvents = [] := by
            cases hv : verdict R B (d.world i) cmd with
            | reject => rfl
            | refuse root events => rfl
            | create participant => exact (hc ⟨hroot, by rw [hv]; rfl⟩).elim
            | move root root' events stateEvent => exact (hc ⟨hroot, by rw [hv]; rfl⟩).elim
            | snapshot root => exact (hc ⟨hroot, by rw [hv]; rfl⟩).elim
          exact sourced_unmoved repo_lawful hw hacc id
        · exact sourced_processCommand_ne repo_lawful hw hroot
      rw [hsame]
      exact h.unlogged id hid

/-! ## Two instances against one -/

/-- A first instance whose map agrees with Redis. -/
def Exact (e : Deployment) : Prop :=
  ∀ id s, (e.memory .first).get (keyWithPrefix id) = some s →
    e.redis.get (keyWithPrefix id) = some s

theorem Exact.view (he : Exact e) (id : String) :
    R.view (e.world .first).repo id = e.redis.get (keyWithPrefix id) := by
  rw [view_world]
  cases hm : (e.memory .first).get (keyWithPrefix id) with
  | none => rfl
  | some s => exact (he id s hm).symm

theorem Exact.step (he : Exact e) (hk : Kept e) (B : BigNumber) (cmd : Command) :
    Exact (step B e (.first, cmd)) := by
  intro id s hs
  have hs := get_memory_step hk B .first cmd hs
  rw [get_redis_step hk]
  rw [he.view] at hs
  exact hs

/-- The deployment with two instances shows what the one with one instance shows. -/
structure Agree (d e : Deployment) : Prop where
  kept_left : Kept d
  kept_right : Kept e
  exact_right : Exact e
  redis : d.redis = e.redis
  log : d.log = e.log
  published : d.published = e.published

/-- Two counterparts a handler cannot tell apart. -/
inductive Alike : Option ParticipantState → Option ParticipantState → Prop where
  | none : Alike none none
  | some {a b : ParticipantState} (h : SameShape a b) : Alike (some a) (some b)

theorem Agree.view_alike (h : Agree d e) (i : Instance) (id : String) :
    Alike (R.view (d.world i).repo id) (R.view (e.world .first).repo id) := by
  rw [h.exact_right.view, ← h.redis, view_world]
  cases hm : (d.memory i).get (keyWithPrefix id) with
  | some s =>
    obtain ⟨r, hr, hshape⟩ := h.kept_left.shape i id s hm
    rw [hr]
    exact .some hshape
  | none =>
    rw [Option.none_or]
    cases d.redis.get (keyWithPrefix id) with
    | none => exact .none
    | some r => exact .some (SameShape.refl r)

theorem decideReserve_congr {payload : TransferTerms} {payer : ParticipantState}
    {a b : Option ParticipantState} (h : Alike a b) :
    decideReserve B payload payer a = decideReserve B payload payer b := by
  cases h with
  | none => rfl
  | some h => rw [decideReserve, decideReserve, h.hasAccount, h.endpoints]

theorem decideCommit_congr {payload : TransferTerms} {payee : ParticipantState}
    {a b : Option ParticipantState} (h : Alike a b) :
    decideCommit B payload payee a = decideCommit B payload payee b := by
  cases h with
  | none => rfl
  | some h => rw [decideCommit, decideCommit, h.hasAccount, h.endpoints]

/-- With a fresh root entity the two deployments come to the same verdict. -/
theorem Agree.verdict_eq (h : Agree d e)
    (hroot : lookup R applyStateEvent (d.world i) cmd.rootId =
      lookup R applyStateEvent (e.world .first) cmd.rootId) :
    verdict R B (d.world i) cmd = verdict R B (e.world .first) cmd := by
  cases cmd with
  | createParticipantCmd participant =>
    rw [Command.rootId] at hroot
    rw [verdict, verdict, hroot]
  | reservePayerFundsCmd payload =>
    rw [Command.rootId] at hroot
    rw [verdict, verdict, hroot]
    simp only [decideReserve_congr (h.view_alike i payload.payeeId)]
  | commitPayeeFundsCmd payload =>
    rw [Command.rootId] at hroot
    rw [verdict, verdict, hroot]
    simp only [decideCommit_congr (h.view_alike i payload.payerId)]
  | snapshotParticipantStateCmd participantId =>
    rw [Command.rootId] at hroot
    rw [verdict, verdict, hroot]

theorem Agree.lookup_eq (h : Agree d e)
    (hfresh : ∀ s ∈ (d.memory i).get (keyWithPrefix id), d.redis.get (keyWithPrefix id) = some s) :
    lookup R applyStateEvent (d.world i) id = lookup R applyStateEvent (e.world .first) id := by
  have hview : R.view (d.world i).repo id = R.view (e.world .first).repo id := by
    rw [h.exact_right.view, ← h.redis, view_world]
    cases hm : (d.memory i).get (keyWithPrefix id) with
    | none => rfl
    | some s => exact (hfresh s hm).symm
  refine lookup_congr hview ?_
  show d.log.sourced id = e.log.sourced id
  rw [h.log]

/-- What the two deployments publish and store for one command. -/
theorem Agree.verdict_same (h : Agree d e) (hfresh : FreshRoot d (i, cmd)) :
    (verdict R B (d.world i) cmd).accepted = (verdict R B (e.world .first) cmd).accepted ∧
      (verdict R B (d.world i) cmd).published Faults.none =
        (verdict R B (e.world .first) cmd).published Faults.none := by
  cases cmd with
  | createParticipantCmd participant =>
    -- a stale copy makes the creation a duplicate as well as a fresh one does
    have hv := h.view_alike i participant.id
    rw [verdict, verdict]
    cases hd : R.view (d.world i).repo participant.id with
    | none =>
      rw [hd] at hv
      have he : R.view (e.world .first).repo participant.id = none := by
        generalize R.view (e.world .first).repo participant.id = b at hv
        cases hv
        rfl
      rw [h.kept_left.lookup_of_none hd, h.kept_right.lookup_of_none he]
      exact ⟨rfl, rfl⟩
    | some a =>
      rw [hd] at hv
      obtain ⟨b, he⟩ : ∃ b, R.view (e.world .first).repo participant.id = some b := by
        generalize R.view (e.world .first).repo participant.id = b at hv
        cases hv
        exact ⟨_, rfl⟩
      rw [lookup_of_view hd, lookup_of_view he]
      exact ⟨rfl, rfl⟩
  | reservePayerFundsCmd payload =>
    rw [h.verdict_eq (h.lookup_eq hfresh)]
    exact ⟨rfl, rfl⟩
  | commitPayeeFundsCmd payload =>
    rw [h.verdict_eq (h.lookup_eq hfresh)]
    exact ⟨rfl, rfl⟩
  | snapshotParticipantStateCmd participantId =>
    rw [h.verdict_eq (h.lookup_eq hfresh)]
    exact ⟨rfl, rfl⟩

theorem Agree.step (h : Agree d e) (B : BigNumber) {l : Instance × Command}
    (hfresh : FreshRoot d l) : Agree (step B d l) (step B e (onFirst l)) := by
  obtain ⟨i, cmd⟩ := l
  obtain ⟨hacc, hpub⟩ := h.verdict_same (B := B) hfresh
  have hwd := (h.kept_left.wellKept i).keyed cmd
  have hwe := (h.kept_right.wellKept .first).keyed cmd
  have hpub' : (processCommand R B Faults.none (d.world i) cmd).published =
      (processCommand R B Faults.none (e.world .first) cmd).published := by
    rw [processCommand_published repo_lawful hwd, processCommand_published repo_lawful hwe, hpub]
  refine
    { kept_left := h.kept_left.step B i cmd
      kept_right := h.kept_right.step B .first cmd
      exact_right := h.exact_right.step h.kept_right B cmd
      redis := ?_
      log := ?_
      published := ?_ }
  · show (Deployment.step B d (i, cmd)).redis = (Deployment.step B e (.first, cmd)).redis
    rw [h.kept_left.redis_step, h.kept_right.redis_step, hacc, h.redis]
  · show (processCommand R B Faults.none (d.world i) cmd).repo.log =
      (processCommand R B Faults.none (e.world .first) cmd).repo.log
    rw [processCommand_log repo_lawful hwd, processCommand_log repo_lawful hwe, hpub]
    have hsome : (R.view (d.world i).repo cmd.rootId).isSome =
        (R.view (e.world .first).repo cmd.rootId).isSome := by
      have hv := h.view_alike i cmd.rootId
      generalize R.view (d.world i).repo cmd.rootId = a at hv ⊢
      generalize R.view (e.world .first).repo cmd.rootId = b at hv ⊢
      cases hv <;> rfl
    rw [load_log_eq, load_log_eq, hsome, show (d.world i).log = (e.world .first).log from h.log]
  · show d.published ++ _ = e.published ++ _
    rw [h.published, hpub']
    rfl

/-- As long as no command meets a stale copy of its participant, two instances publish
what one would, and leave Redis as one would. -/
theorem two_instances_agree (B : BigNumber) (partitioner : String → Nat)
    (ls : List (Instance × Command))
    (h : Machine.Along (Deployment.step B) FreshRoot (start partitioner) ls) :
    (Machine.run (Deployment.step B) (start partitioner) ls).published =
        (Machine.run (Deployment.step B) (start partitioner) (ls.map onFirst)).published ∧
      (Machine.run (Deployment.step B) (start partitioner) ls).redis =
        (Machine.run (Deployment.step B) (start partitioner) (ls.map onFirst)).redis := by
  have hstart : Agree (start partitioner) (start partitioner) :=
    { kept_left := kept_start partitioner
      kept_right := kept_start partitioner
      exact_right := fun id s hs => by simp [start] at hs
      redis := rfl, log := rfl, published := rfl }
  have hstep : ∀ d e l, Agree d e → FreshRoot d l →
      Agree (Deployment.step B d l) ((fun e l => Deployment.step B e (onFirst l)) e l) :=
    fun _ _ _ hde hl => hde.step B hl
  have hrun := Machine.run_lockstep hstep hstart h
  have hmap : ∀ e, Machine.run (fun e l => Deployment.step B e (onFirst l)) e ls =
      Machine.run (Deployment.step B) e (ls.map onFirst) := fun e => (List.foldl_map ..).symm
  rw [hmap] at hrun
  exact ⟨hrun.published, hrun.redis⟩

end Step

/-- The second instance creates one participant and the first goes on from there. -/
def handedOver : List (Instance × Command) :=
  [(.first, .createParticipantCmd (sampleParticipant "blue")),
    (.second, .createParticipantCmd (sampleParticipant "green")),
    (.first, .reservePayerFundsCmd sampleTerms),
    (.second, .commitPayeeFundsCmd sampleTerms)]

theorem two_instances_agree_sample :
    (Machine.run (Deployment.step wholeNumbers) (start fun _ => 0) handedOver).published =
        (Machine.run (Deployment.step wholeNumbers) (start fun _ => 0)
          (handedOver.map onFirst)).published ∧
      (Machine.run (Deployment.step wholeNumbers) (start fun _ => 0) handedOver).redis =
        (Machine.run (Deployment.step wholeNumbers) (start fun _ => 0)
          (handedOver.map onFirst)).redis :=
  two_instances_agree wholeNumbers _ _ (by decide)

/-- The partition moves to the second instance and back. -/
def handedBack : List (Instance × Command) :=
  handedOver ++ [(.second, .reservePayerFundsCmd sampleTerms),
    (.first, .reservePayerFundsCmd sampleTerms)]

/-- The first instance reserves from the copy it kept, and the movement in between is
lost. -/
theorem update_lost_on_return :
    (Machine.run (Deployment.step wholeNumbers) (start fun _ => 0) handedBack).redis ≠
      (Machine.run (Deployment.step wholeNumbers) (start fun _ => 0)
        (handedBack.map onFirst)).redis := by
  intro h
  exact absurd (congrArg (·.get (keyWithPrefix "blue")) h) (by decide)

end Deployment

end ParticpantsAgg

end Participants
end PocArchitecture
