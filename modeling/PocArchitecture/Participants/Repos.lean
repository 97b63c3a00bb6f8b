/-
The participant repositories of `RepoInfraTypes`.
-/
import PocArchitecture.Infrastructure.StateRepo
import PocArchitecture.Participants.Entity

namespace PocArchitecture
namespace Participants

open Infrastructure

inductive RepoInfraTypes where
  | inMemory
  | redis
  | cachedRedis
  | cachedPersistedRedis
  deriving DecidableEq

def keyWithPrefix (id : String) : String := "participant_" ++ id

def inMemoryParticipantStateRepo : StateRepo ParticipantState :=
  StateRepo.mapRepo ParticipantState.id

def redisParticipantStateRepo : StateRepo ParticipantState :=
  StateRepo.redisRepo keyWithPrefix ParticipantState.id

/-- Goes to Redis only for a participant the map does not hold yet. -/
def cachedRedisParticipantStateRepo : StateRepo ParticipantState :=
  StateRepo.cachedRepo keyWithPrefix (StateRepo.storeThroughIfNew keyWithPrefix ParticipantState.id)

def cachedPersistedRedisParticipantStateRepo : StateRepo ParticipantState :=
  StateRepo.cachedRepo keyWithPrefix (StateRepo.storeThrough keyWithPrefix ParticipantState.id)

def RepoInfraTypes.repo : RepoInfraTypes → StateRepo ParticipantState
  | inMemory => inMemoryParticipantStateRepo
  | redis => redisParticipantStateRepo
  | cachedRedis => cachedRedisParticipantStateRepo
  | cachedPersistedRedis => cachedPersistedRedisParticipantStateRepo

/-- Whether a store waits for Redis, given that the map holds the entity or not. -/
def RepoInfraTypes.asksRedis : RepoInfraTypes → Bool → Bool
  | inMemory, _ => false
  | cachedRedis, held => !held
  | redis, _ | cachedPersistedRedis, _ => true

theorem RepoInfraTypes.store_resolves (kind : RepoInfraTypes) (ok : Bool)
    (r : RepoState ParticipantState) (s : ParticipantState) :
    (kind.repo.store ok r s).2 = (ok || !kind.asksRedis (kind.repo.holds r s.id)) := by
  cases kind with
  | inMemory => exact (Bool.or_true ok).symm
  | redis => cases ok <;> rfl
  | cachedRedis =>
    show (StateRepo.storeThroughIfNew keyWithPrefix ParticipantState.id ok r s).2 =
      (ok || !!(r.inMemory.get (keyWithPrefix s.id)).isSome)
    rw [StateRepo.storeThroughIfNew, Bool.not_not]
    split
    · rename_i h
      rw [h, Bool.or_true]
    · rename_i h
      rw [Bool.not_eq_true] at h
      rw [h]
      cases ok <;> rfl
  | cachedPersistedRedis => cases ok <;> rfl

theorem keyWithPrefix_injective : Function.Injective keyWithPrefix :=
  StateRepo.injective_prepend "participant_"

theorem RepoInfraTypes.repo_lawful (kind : RepoInfraTypes) :
    kind.repo.Lawful ParticipantState.id := by
  cases kind with
  | inMemory => exact StateRepo.mapRepo_lawful _
  | redis => exact StateRepo.redisRepo_lawful keyWithPrefix_injective _
  | cachedRedis =>
    exact StateRepo.cachedRepo_lawful keyWithPrefix_injective
      (StateRepo.storeThroughIfNew_cachedStore _ _)
  | cachedPersistedRedis =>
    exact StateRepo.cachedRepo_lawful keyWithPrefix_injective
      (StateRepo.storeThrough_cachedStore _ _)

theorem redis_lawful : redisParticipantStateRepo.Lawful ParticipantState.id :=
  RepoInfraTypes.repo_lawful .redis

end Participants
end PocArchitecture
