/-
The transfer repositories of `RepoInfraTypes`, without expiry.
-/
import PocArchitecture.Infrastructure.StateRepo
import PocArchitecture.Transfers.Entity

namespace PocArchitecture
namespace Transfers

open Infrastructure

inductive RepoInfraTypes where
  | inMemory
  | nodeCache
  | redis
  | cachedRedis
  | cachedPersistedRedis
  deriving DecidableEq

def keyWithPrefix (id : String) : String := "transfer_" ++ id

def inMemoryTransferStateRepo : StateRepo TransferState := StateRepo.mapRepo TransferState.id

/-- `NodeCache` with `useClones` off. -/
def inMemoryNodeCacheTransferStateRepo : StateRepo TransferState :=
  StateRepo.mapRepo TransferState.id

def redisTransferStateRepo : StateRepo TransferState :=
  StateRepo.redisRepo keyWithPrefix TransferState.id

/-- Reads Redis and never writes it. -/
def cachedRedisTransferStateRepo : StateRepo TransferState :=
  StateRepo.cachedRepo keyWithPrefix (StateRepo.storeInMemory keyWithPrefix TransferState.id)

def cachedPersistedRedisTransferStateRepo : StateRepo TransferState :=
  StateRepo.cachedRepo keyWithPrefix (StateRepo.storeThrough keyWithPrefix TransferState.id)

def RepoInfraTypes.repo : RepoInfraTypes → StateRepo TransferState
  | inMemory => inMemoryTransferStateRepo
  | nodeCache => inMemoryNodeCacheTransferStateRepo
  | redis => redisTransferStateRepo
  | cachedRedis => cachedRedisTransferStateRepo
  | cachedPersistedRedis => cachedPersistedRedisTransferStateRepo

theorem keyWithPrefix_injective : Function.Injective keyWithPrefix :=
  StateRepo.injective_prepend "transfer_"

theorem RepoInfraTypes.repo_lawful (kind : RepoInfraTypes) :
    kind.repo.Lawful TransferState.id := by
  cases kind with
  | inMemory => exact StateRepo.mapRepo_lawful _
  | nodeCache => exact StateRepo.mapRepo_lawful _
  | redis => exact StateRepo.redisRepo_lawful keyWithPrefix_injective _
  | cachedRedis =>
    exact StateRepo.cachedRepo_lawful keyWithPrefix_injective
      (StateRepo.storeInMemory_cachedStore _ _)
  | cachedPersistedRedis =>
    exact StateRepo.cachedRepo_lawful keyWithPrefix_injective
      (StateRepo.storeThrough_cachedStore _ _)

theorem redis_lawful : redisTransferStateRepo.Lawful TransferState.id :=
  RepoInfraTypes.repo_lawful .redis

theorem RepoInfraTypes.aliased_iff (kind : RepoInfraTypes) :
    kind.repo.aliased = true ↔ kind ≠ .redis := by
  cases kind <;> simp [repo, inMemoryTransferStateRepo, inMemoryNodeCacheTransferStateRepo,
    redisTransferStateRepo, cachedRedisTransferStateRepo, cachedPersistedRedisTransferStateRepo,
    StateRepo.mapRepo, StateRepo.redisRepo, StateRepo.cachedRepo]

end Transfers
end PocArchitecture
