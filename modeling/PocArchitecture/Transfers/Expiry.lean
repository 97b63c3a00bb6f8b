/-
The transfer repositories over Redis with an expiry.

`expirationInSeconds` is what Redis gets as the time of its `SETEX` and the cache as the
time to live of its `set`.  The clock is in milliseconds.
-/
import PocArchitecture.Infrastructure.Expiry
import PocArchitecture.Transfers.Repos
import Mathlib.Data.PNat.Basic

namespace PocArchitecture
namespace Transfers

open Infrastructure

namespace Expiry

/-- The milliseconds a stored transfer is good for. -/
def life (expirationInSeconds : ℕ+) : Nat := expirationInSeconds * 1000

def redisTransferStateRepo (expirationInSeconds : ℕ+) : ExpiringRepo TransferState :=
  ExpiringRepo.redisRepo keyWithPrefix TransferState.id (life expirationInSeconds)

def cachedPersistedRedisTransferStateRepo (expirationInSeconds : ℕ+) :
    ExpiringRepo TransferState :=
  ExpiringRepo.cachedRepo keyWithPrefix TransferState.id (life expirationInSeconds)

variable (expirationInSeconds : ℕ+)

/-! Until the time of the first store can have passed, no load shows that there is an expiry. -/

theorem redisTransferStateRepo_loadAfter (calls : List (TimedCall TransferState)) (delay : Nat)
    (id : String) (hnow : ((redisTransferStateRepo expirationInSeconds).after calls).clock + delay <
      life expirationInSeconds) :
    (redisTransferStateRepo expirationInSeconds).loadAfter calls delay id =
      Transfers.redisTransferStateRepo.view (Machine.run Transfers.redisTransferStateRepo.callStep
        RepoState.empty (calls.map TimedCall.call)) id :=
  (ExpiringRepo.redisRepo_expires _ _ _).loadAfter_eq calls delay id hnow

theorem cachedPersistedRedisTransferStateRepo_loadAfter (calls : List (TimedCall TransferState))
    (delay : Nat) (id : String)
    (hnow : ((cachedPersistedRedisTransferStateRepo expirationInSeconds).after calls).clock +
      delay < life expirationInSeconds) :
    (cachedPersistedRedisTransferStateRepo expirationInSeconds).loadAfter calls delay id =
      Transfers.cachedPersistedRedisTransferStateRepo.view
        (Machine.run Transfers.cachedPersistedRedisTransferStateRepo.callStep RepoState.empty
          (calls.map TimedCall.call)) id :=
  (ExpiringRepo.cachedRepo_expires _ _ _).loadAfter_eq calls delay id hnow

/-- The cache shows only when a load fills it after a restart and another load comes between
the end of the transfer's time and the end of the cache's. -/
theorem cache_unnoticed_iff (calls : List (TimedCall TransferState)) :
    ExpiringRepo.Truthful (cachedPersistedRedisTransferStateRepo expirationInSeconds)
        (redisTransferStateRepo expirationInSeconds) TransferState.id (life expirationInSeconds)
        calls ↔
      ExpiringRepo.NeverOverdue TransferState.id (life expirationInSeconds) calls :=
  ExpiringRepo.truthful_iff keyWithPrefix_injective calls

def sampleTransfer : TransferState :=
  { id := "t1", amount := "10", currency := "USD", transferInternalState := .reserved
    payerId := "blue", payeeId := "green", expiration := "", condition := ""
    prepare := { headers := none, payload := none }
    fulfilment := none, completedTimestamp := none, fulfil := none }

/-- Good for 100 seconds: a restart, a load after 90 seconds and another after 110. -/
theorem cache_keeps_expired :
    ¬ ExpiringRepo.Truthful (cachedPersistedRedisTransferStateRepo 100)
      (redisTransferStateRepo 100) TransferState.id (life 100)
      [⟨0, .store sampleTransfer⟩, ⟨0, .restart⟩, ⟨90000, .load "t1"⟩, ⟨20000, .load "t1"⟩] := by
  intro h
  have hload := h [⟨0, .store sampleTransfer⟩, ⟨0, .restart⟩, ⟨90000, .load "t1"⟩] 20000 "t1"
    (List.prefix_refl _)
  have hnever := (ExpiringRepo.loadsAlike_iff keyWithPrefix_injective _ _ _).mp hload
  have hlife : Life.afterCalls TransferState.id (life 100) "t1"
      [⟨0, .store sampleTransfer⟩, ⟨0, .restart⟩, ⟨90000, .load "t1"⟩] =
      (90000, some ⟨sampleTransfer, 0, some 90000⟩) := by
    simp [Life.afterCalls, Life.afterCall, Life.refilled, sampleTransfer, life]
  rw [hlife] at hnever
  exact hnever ⟨sampleTransfer, 0, some 90000⟩ rfl ⟨90000, rfl, by decide, by decide⟩

end Expiry

end Transfers
end PocArchitecture
