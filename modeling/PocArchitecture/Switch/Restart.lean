/-
Which repositories of the two services survive a restart.

The plain Redis repositories and those that write Redis on every store always do.  The
cached participant repository writes Redis only for a participant that is new to its map,
and the cached transfer repository never does; these lose whatever the map alone holds.
-/
import PocArchitecture.Infrastructure.Restart
import PocArchitecture.Participants.Repos
import PocArchitecture.Participants.WorldInvariant
import PocArchitecture.Transfers.Repos
import PocArchitecture.Transfers.History

namespace PocArchitecture
namespace Switch

open Infrastructure
open Participants (ParticipantState)
open Participants.ParticpantsAgg (sampleParticipant)
open Transfers (TransferState)
open Transfers.TransfersAgg (prepareTransferData samplePrepare)

theorem participants_survive_iff (kind : Participants.RepoInfraTypes)
    (calls : List (RepoCall ParticipantState)) :
    kind.repo.Survives ParticipantState.id calls ↔
      kind ∈ [.redis, .cachedPersistedRedis] ∨ kind.repo.RestartsInStep calls := by
  have hkey := Participants.keyWithPrefix_injective
  cases kind with
  | redis => exact iff_of_true (StateRepo.redisRepo_survives hkey _ calls) (Or.inl (by decide))
  | cachedPersistedRedis =>
    exact iff_of_true (StateRepo.storeThrough_survives hkey calls) (Or.inl (by decide))
  | inMemory =>
    rw [or_iff_right (by decide)]
    exact StateRepo.survives_iff (StateRepo.mapRepo_lawful _) (StateRepo.mapRepo_restartable _) calls
  | cachedRedis =>
    have hstore := StateRepo.storeThroughIfNew_cachedStore Participants.keyWithPrefix
      ParticipantState.id
    rw [or_iff_right (by decide)]
    exact StateRepo.survives_iff (StateRepo.cachedRepo_lawful hkey hstore)
      (StateRepo.cachedRepo_restartable hstore) calls

theorem transfers_survive_iff (kind : Transfers.RepoInfraTypes)
    (calls : List (RepoCall TransferState)) :
    kind.repo.Survives TransferState.id calls ↔
      kind ∈ [.redis, .cachedPersistedRedis] ∨ kind.repo.RestartsInStep calls := by
  have hkey := Transfers.keyWithPrefix_injective
  cases kind with
  | redis => exact iff_of_true (StateRepo.redisRepo_survives hkey _ calls) (Or.inl (by decide))
  | cachedPersistedRedis =>
    exact iff_of_true (StateRepo.storeThrough_survives hkey calls) (Or.inl (by decide))
  | inMemory | nodeCache =>
    rw [or_iff_right (by decide)]
    exact StateRepo.survives_iff (StateRepo.mapRepo_lawful _) (StateRepo.mapRepo_restartable _) calls
  | cachedRedis =>
    have hstore := StateRepo.storeInMemory_cachedStore Transfers.keyWithPrefix TransferState.id
    rw [or_iff_right (by decide)]
    exact StateRepo.survives_iff (StateRepo.cachedRepo_lawful hkey hstore)
      (StateRepo.cachedRepo_restartable hstore) calls

/-- A repository that does not write Redis on every store survives exactly those runs in
which each restart finds its map in step with Redis. -/
theorem stored_survives_restart_iff (kind : Participants.RepoInfraTypes)
    (calls : List (RepoCall ParticipantState)) (kind' : Transfers.RepoInfraTypes)
    (calls' : List (RepoCall TransferState)) :
    (kind.repo.Survives ParticipantState.id calls ↔
      kind ∈ [.redis, .cachedPersistedRedis] ∨ kind.repo.RestartsInStep calls) ∧
    (kind'.repo.Survives TransferState.id calls' ↔
      kind' ∈ [.redis, .cachedPersistedRedis] ∨ kind'.repo.RestartsInStep calls') :=
  ⟨participants_survive_iff kind calls, transfers_survive_iff kind' calls'⟩

/-- A position stored twice is back at its first value after a restart, and a transfer that
was stored is gone. -/
theorem update_lost_on_restart :
    let blue := sampleParticipant "blue"
    let position : List (RepoCall ParticipantState) :=
      [.store blue, .store (blue.setPosition "USD" "10"), .restart]
    let transfer := TransferState.prepareTransfer (prepareTransferData samplePrepare)
    let prepared : List (RepoCall TransferState) := [.store transfer, .restart]
    (Participants.cachedRedisParticipantStateRepo.view
        (Machine.run (StateRepo.callStep Participants.cachedRedisParticipantStateRepo)
          RepoState.empty position) "blue" = some blue ∧
      ¬ Participants.cachedRedisParticipantStateRepo.Survives ParticipantState.id position) ∧
    (Transfers.cachedRedisTransferStateRepo.view
        (Machine.run (StateRepo.callStep Transfers.cachedRedisTransferStateRepo)
          RepoState.empty prepared) "t1" = none ∧
      ¬ Transfers.cachedRedisTransferStateRepo.Survives TransferState.id prepared) := by
  intro blue position transfer prepared
  refine ⟨⟨by decide +kernel, fun h => ?_⟩, by decide +kernel, fun h => ?_⟩
  · exact absurd (h position List.prefix_rfl "blue") (by decide +kernel)
  · exact absurd (h prepared List.prefix_rfl "t1") (by decide +kernel)

end Switch
end PocArchitecture
