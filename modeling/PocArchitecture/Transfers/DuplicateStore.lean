/-
The duplicate store of `TransferCmdHandler`.

`start` picks one of three stores.  The two in Redis answer every sequence of calls as a
set does, and so does the aggregate's duplicate set; the store in memory does so exactly
as long as nothing is added twice and nothing absent is removed.
-/
import PocArchitecture.Infrastructure.DuplicateRepo
import PocArchitecture.Transfers.Aggregate

namespace PocArchitecture
namespace Transfers

open Infrastructure

/-- The configured type.  Any other text falls back to Redis. -/
inductive RedisDuplicateInfraTypes where
  | redis
  | redisSharded
  | memory
  | other (text : String)
  deriving DecidableEq

/-- A duplicate store: what it starts from, given the Redis it finds, and its answers. -/
structure DuplicateRepo where
  State : Type
  start : RedisSets → State
  call : State → DuplicateCall → State × DuplicateReply

def setKey : String := "transfers_duplicate"

namespace RedisDuplicateInfraTypes

/-- The choice of `start`. -/
def repo : RedisDuplicateInfraTypes → DuplicateRepo
  | redis => { State := RedisSets, start := id, call := RedisDuplicateRepo.call setKey }
  | redisSharded =>
    { State := RedisSets, start := id, call := RedisDuplicateShardedRepo.call true setKey }
  | memory =>
    { State := Finset String, start := fun _ => ∅, call := InMemoryTransferDuplicateRepo.call }
  | other _ => { State := RedisSets, start := id, call := RedisDuplicateRepo.call setKey }

end RedisDuplicateInfraTypes

/-- The answers of a store to a sequence of calls. -/
def DuplicateRepo.replies (repo : DuplicateRepo) (db : RedisSets) (calls : List DuplicateCall) :
    List DuplicateReply :=
  Machine.outputs repo.call (repo.start db) calls

/-- The answers of a set that starts empty. -/
def setReplies (calls : List DuplicateCall) : List DuplicateReply :=
  Machine.outputs setCall ∅ calls

/-- The `add` the aggregate relies on is the one of the set. -/
theorem addDuplicate_eq (s : Finset String) (id : String) :
    setCall s (.add id) =
      ((TransfersAgg.addDuplicate s id).1, .resolved (TransfersAgg.addDuplicate s id).2) := rfl

variable {db : RedisSets}

theorem redis_replies (h : Unused setKey db) (calls : List DuplicateCall) :
    RedisDuplicateInfraTypes.redis.repo.replies db calls = setReplies calls := by
  have hown : RedisSets.startsWith setKey setKey = true := by decide
  refine Machine.outputs_eq (R := fun (db : RedisSets) s => db.smembers setKey = s) ?_ ?_ calls
  · intro db s c hs
    exact RedisDuplicateRepo.call_eq hs c
  · exact h.smembers hown

theorem redisSharded_replies (h : Unused setKey db) (calls : List DuplicateCall) :
    RedisDuplicateInfraTypes.redisSharded.repo.replies db calls = setReplies calls := by
  refine Machine.outputs_eq (R := RedisDuplicateShardedRepo.Sharded setKey) ?_ h.sharded calls
  intro db s c hs
  exact hs.call c

theorem memory_replies_iff (db : RedisSets) (calls : List DuplicateCall) :
    RedisDuplicateInfraTypes.memory.repo.replies db calls = setReplies calls ↔
      Machine.Along (fun s c => (setCall s c).1) InMemoryTransferDuplicateRepo.Regular ∅ calls := by
  refine Machine.outputs_eq_iff (R := fun (s t : Finset String) => s = t) ?_ ?_ rfl calls
  · rintro s t c rfl
    exact InMemoryTransferDuplicateRepo.call_state
  · rintro s t c rfl
    exact InMemoryTransferDuplicateRepo.call_reply_iff

/-- All stores answer as one set, to a given sequence of calls. -/
def Interchangeable (db : RedisSets) (calls : List DuplicateCall) : Prop :=
  ∀ kind : RedisDuplicateInfraTypes, kind.repo.replies db calls = setReplies calls

/-- The stores are interchangeable exactly where nothing is added twice and nothing absent
is removed. -/
theorem interchangeable_iff (db : RedisSets) (calls : List DuplicateCall)
    (h : Unused setKey db) :
    Interchangeable db calls ↔
      Machine.Along (fun s c => (setCall s c).1) InMemoryTransferDuplicateRepo.Regular ∅ calls := by
  constructor
  · intro hall
    exact (memory_replies_iff db calls).mp (hall .memory)
  · intro hregular kind
    cases kind with
    | redis => exact redis_replies h calls
    | redisSharded => exact redisSharded_replies h calls
    | memory => exact (memory_replies_iff db calls).mpr hregular
    | other text => exact redis_replies h calls

theorem unused_empty : Unused setKey ∅ := fun _ _ => rfl

theorem interchangeable_iff_sample :
    Interchangeable ∅ [.add "t1", .existsId "t1", .remove "t1", .add "t1", .getAll] ↔
      Machine.Along (fun s c => (setCall s c).1) InMemoryTransferDuplicateRepo.Regular ∅
        [.add "t1", .existsId "t1", .remove "t1", .add "t1", .getAll] :=
  interchangeable_iff ∅ _ unused_empty

/-- The store in memory accepts the same id twice. -/
theorem added_twice_in_memory :
    RedisDuplicateInfraTypes.memory.repo.replies ∅ [.add "t1", .add "t1"] =
        [.resolved true, .resolved true] ∧
      RedisDuplicateInfraTypes.redis.repo.replies ∅ [.add "t1", .add "t1"] =
        [.resolved true, .resolved false] ∧
      ¬ Interchangeable ∅ [.add "t1", .add "t1"] := by
  have hmemory : RedisDuplicateInfraTypes.memory.repo.replies ∅ [.add "t1", .add "t1"] =
      [.resolved true, .resolved true] := rfl
  have hset : setReplies [.add "t1", .add "t1"] = [.resolved true, .resolved false] := by
    decide +kernel
  refine ⟨hmemory, (redis_replies unused_empty _).trans hset, fun hall => ?_⟩
  have hsame := hall .memory
  rw [hmemory, hset] at hsame
  cases hsame

end Transfers
end PocArchitecture
