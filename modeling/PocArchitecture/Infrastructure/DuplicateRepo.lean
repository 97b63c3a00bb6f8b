/-
The duplicate stores: `InMemoryTransferDuplicateRepo`, `RedisDuplicateRepo` and
`RedisDuplicateShardedRepo`.

All three keep a set of ids, and `setCall` is what a set answers.  The Redis store is one
Redis set.  The sharded store keeps one Redis set for each first character and puts them
together again through the keys that begin with the set key; `Sharded` says which ids
each of them holds.  The store in memory keeps the same set, but it answers `add` without
looking, and rejects a `remove` of an id it does not have.
-/
import PocArchitecture.Lib.Machine
import PocArchitecture.Lib.RedisSets
import Mathlib.Data.Finset.Union

namespace PocArchitecture
namespace Infrastructure

/-- The calls of `IEntityDuplicateRepository`. -/
inductive DuplicateCall where
  | add (id : String)
  | remove (id : String)
  | existsId (id : String)
  | getAll
  deriving DecidableEq

/-- How a call ends.  An array is compared as the set of its members. -/
inductive DuplicateReply where
  | resolved (flag : Bool)
  | members (ids : Finset String)
  | rejected (message : String)
  deriving DecidableEq

/-- What a set of ids answers. -/
def setCall (s : Finset String) : DuplicateCall → Finset String × DuplicateReply
  | .add id => (insert id s, .resolved (decide (id ∉ s)))
  | .remove id => (s.erase id, .resolved (decide (id ∈ s)))
  | .existsId id => (s, .resolved (decide (id ∈ s)))
  | .getAll => (s, .members s)

/-! ## The store in memory -/

namespace InMemoryTransferDuplicateRepo

def remove (s : Finset String) (id : String) : Finset String × DuplicateReply :=
  if id ∉ s then (s, .rejected "Not found") else (s.erase id, .resolved true)

def existsId (s : Finset String) (id : String) : Finset String × DuplicateReply :=
  if id ∈ s then (s, .resolved true) else (s, .resolved false)

def add (s : Finset String) (id : String) : Finset String × DuplicateReply :=
  (insert id s, .resolved true)

def getAll (s : Finset String) : Finset String × DuplicateReply := (s, .members s)

def call (s : Finset String) : DuplicateCall → Finset String × DuplicateReply
  | .add id => add s id
  | .remove id => remove s id
  | .existsId id => existsId s id
  | .getAll => getAll s

/-- The calls the store answers as a set does. -/
def Regular (s : Finset String) : DuplicateCall → Prop
  | .add id => id ∉ s
  | .remove id => id ∈ s
  | .existsId _ | .getAll => True

variable {s : Finset String} {c : DuplicateCall}

/-- It keeps the set, whatever it answers. -/
theorem call_state : (call s c).1 = (setCall s c).1 := by
  cases c with
  | add id => rfl
  | getAll => rfl
  | existsId id =>
    rw [call, existsId]
    split <;> rfl
  | remove id =>
    rw [call, remove]
    split
    · exact (Finset.erase_eq_of_notMem ‹_›).symm
    · rfl

theorem call_reply_iff : (call s c).2 = (setCall s c).2 ↔ Regular s c := by
  cases c with
  | add id =>
    rw [call, add, setCall, Regular]
    simp
  | getAll => exact iff_of_true rfl trivial
  | existsId id =>
    refine iff_of_true ?_ trivial
    rw [call, existsId, setCall]
    by_cases h : id ∈ s <;> simp [h]
  | remove id =>
    rw [call, remove, setCall, Regular]
    by_cases h : id ∈ s <;> simp [h]

end InMemoryTransferDuplicateRepo

/-! ## The store in Redis -/

namespace RedisDuplicateRepo

variable (setKey : String)

def add (db : RedisSets) (id : String) : RedisSets × DuplicateReply :=
  let added := db.sadd setKey id
  (added.1, .resolved (added.2 == 1))

def existsId (db : RedisSets) (id : String) : RedisSets × DuplicateReply :=
  (db, .resolved (db.sismember setKey id == 1))

def remove (db : RedisSets) (id : String) : RedisSets × DuplicateReply :=
  let removed := db.srem setKey id
  (removed.1, .resolved (removed.2 == 1))

def getAll (db : RedisSets) : RedisSets × DuplicateReply := (db, .members (db.smembers setKey))

def call (db : RedisSets) : DuplicateCall → RedisSets × DuplicateReply
  | .add id => add setKey db id
  | .remove id => remove setKey db id
  | .existsId id => existsId setKey db id
  | .getAll => getAll setKey db

end RedisDuplicateRepo

/-- The answers of the set commands say whether the id was there. -/
theorem sadd_reply (db : RedisSets) (key id : String) :
    ((db.sadd key id).2 == 1) = decide (id ∉ db.smembers key) := by
  rw [RedisSets.sadd]
  by_cases h : id ∈ db.smembers key <;> simp [h]

theorem srem_reply (db : RedisSets) (key id : String) :
    ((db.srem key id).2 == 1) = decide (id ∈ db.smembers key) := by
  rw [RedisSets.srem]
  by_cases h : id ∈ db.smembers key <;> simp [h]

theorem sismember_reply (db : RedisSets) (key id : String) :
    (db.sismember key id == 1) = decide (id ∈ db.smembers key) := by
  rw [RedisSets.sismember]
  by_cases h : id ∈ db.smembers key <;> simp [h]

/-- The one Redis set answers as a set does. -/
theorem RedisDuplicateRepo.call_eq {setKey : String} {db : RedisSets} {s : Finset String}
    (h : db.smembers setKey = s) (c : DuplicateCall) :
    (call setKey db c).1.smembers setKey = (setCall s c).1 ∧
      (call setKey db c).2 = (setCall s c).2 := by
  subst h
  cases c with
  | add id =>
    constructor
    · exact RedisSets.smembers_sadd.trans (if_pos rfl)
    · exact congrArg DuplicateReply.resolved (sadd_reply db setKey id)
  | remove id =>
    constructor
    · exact RedisSets.smembers_srem.trans (if_pos rfl)
    · exact congrArg DuplicateReply.resolved (srem_reply db setKey id)
  | existsId id => exact ⟨rfl, congrArg DuplicateReply.resolved (sismember_reply db setKey id)⟩
  | getAll => exact ⟨rfl, rfl⟩

/-! ## The sharded store in Redis -/

/-- `id.charAt(0)` as it reaches Redis.  Half of a surrogate pair arrives as the
replacement character. -/
def charAt0 (id : String) : String :=
  match id.toList with
  | [] => ""
  | c :: _ => if c.toNat < 0x10000 then String.singleton c else "\uFFFD"

namespace RedisDuplicateShardedRepo

variable (partitionEnabled : Bool) (setKey : String)

def getKey : Option String → String
  | some id => if partitionEnabled then setKey ++ "_" ++ charAt0 id else setKey
  | none => setKey

def getPartitionSets (db : RedisSets) : Finset String := db.keysFrom setKey

def add (db : RedisSets) (id : String) : RedisSets × DuplicateReply :=
  let added := db.sadd (getKey partitionEnabled setKey (some id)) id
  (added.1, .resolved (added.2 == 1))

def existsId (db : RedisSets) (id : String) : RedisSets × DuplicateReply :=
  (db, .resolved (db.sismember (getKey partitionEnabled setKey (some id)) id == 1))

def remove (db : RedisSets) (id : String) : RedisSets × DuplicateReply :=
  let removed := db.srem (getKey partitionEnabled setKey (some id)) id
  (removed.1, .resolved (removed.2 == 1))

def getAll (db : RedisSets) : RedisSets × DuplicateReply :=
  let partitionSets := getPartitionSets setKey db
  if partitionEnabled = true ∧ 0 < partitionSets.card then
    (db, .members (partitionSets.biUnion fun key => db.smembers key))
  else (db, .members (db.smembers (getKey partitionEnabled setKey none)))

def call (db : RedisSets) : DuplicateCall → RedisSets × DuplicateReply
  | .add id => add partitionEnabled setKey db id
  | .remove id => remove partitionEnabled setKey db id
  | .existsId id => existsId partitionEnabled setKey db id
  | .getAll => getAll partitionEnabled setKey db

variable {setKey : String} {db : RedisSets} {s : Finset String}

theorem startsWith_getKey (id : String) :
    RedisSets.startsWith setKey (getKey true setKey (some id)) = true := by
  rw [getKey, if_pos rfl, String.append_assoc]
  exact RedisSets.startsWith_append _ _

/-- Each key that begins with the set key holds the ids that belong to it. -/
def Sharded (setKey : String) (db : RedisSets) (s : Finset String) : Prop :=
  ∀ key, RedisSets.startsWith setKey key = true →
    db.smembers key = s.filter fun id => getKey true setKey (some id) = key

theorem Sharded.mem_iff (h : Sharded setKey db s) (id : String) :
    id ∈ db.smembers (getKey true setKey (some id)) ↔ id ∈ s := by
  rw [h _ (startsWith_getKey id), Finset.mem_filter]
  exact and_iff_left rfl

theorem Sharded.sadd (h : Sharded setKey db s) (id : String) :
    Sharded setKey (db.sadd (getKey true setKey (some id)) id).1 (insert id s) := by
  intro key hkey
  rw [RedisSets.smembers_sadd]
  by_cases hk : key = getKey true setKey (some id)
  · rw [if_pos hk, ← hk, h key hkey, Finset.filter_insert, if_pos hk.symm]
  · rw [if_neg hk, h key hkey, Finset.filter_insert, if_neg (Ne.symm hk)]

theorem Sharded.srem (h : Sharded setKey db s) (id : String) :
    Sharded setKey (db.srem (getKey true setKey (some id)) id).1 (s.erase id) := by
  intro key hkey
  rw [RedisSets.smembers_srem, Finset.filter_erase]
  by_cases hk : key = getKey true setKey (some id)
  · rw [if_pos hk, ← hk, h key hkey]
  · rw [if_neg hk, h key hkey]
    refine (Finset.erase_eq_of_notMem ?_).symm
    rw [Finset.mem_filter]
    exact fun hid => hk hid.2.symm

/-- The partitions together hold the set. -/
theorem Sharded.getAll (h : Sharded setKey db s) :
    RedisDuplicateShardedRepo.getAll true setKey db = (db, .members s) := by
  have hcovered : ∀ id ∈ s, getKey true setKey (some id) ∈ getPartitionSets setKey db := by
    intro id hid
    rw [getPartitionSets, RedisSets.mem_keysFrom]
    refine ⟨?_, startsWith_getKey id⟩
    have hmem := (h.mem_iff id).mpr hid
    rw [RedisSets.smembers] at hmem
    cases hget : db.get (getKey true setKey (some id)) with
    | some members => exact ⟨members, rfl⟩
    | none =>
      rw [hget] at hmem
      exact absurd hmem (Finset.notMem_empty id)
  rw [RedisDuplicateShardedRepo.getAll]
  by_cases hsome : 0 < (getPartitionSets setKey db).card
  · rw [if_pos ⟨rfl, hsome⟩]
    refine congrArg (fun ids => (db, DuplicateReply.members ids)) ?_
    ext id
    rw [Finset.mem_biUnion]
    constructor
    · rintro ⟨key, hkey, hid⟩
      rw [getPartitionSets, RedisSets.mem_keysFrom] at hkey
      rw [h key hkey.2, Finset.mem_filter] at hid
      exact hid.1
    · intro hid
      exact ⟨_, hcovered id hid, (h.mem_iff id).mpr hid⟩
  · -- no partition is left, and the set key itself is none
    have hempty : s = ∅ := by
      rw [Finset.eq_empty_iff_forall_notMem]
      intro id hid
      exact hsome (Finset.card_pos.mpr ⟨_, hcovered id hid⟩)
    rw [if_neg fun hall => hsome hall.2, getKey]
    refine congrArg (fun ids => (db, DuplicateReply.members ids)) ?_
    have hown : RedisSets.startsWith setKey setKey = true := by
      have happend := RedisSets.startsWith_append setKey ""
      rwa [String.append_empty] at happend
    rw [h setKey hown, hempty, Finset.filter_empty]

/-- The sharded store answers as a set does. -/
theorem Sharded.call (h : Sharded setKey db s) (c : DuplicateCall) :
    Sharded setKey (RedisDuplicateShardedRepo.call true setKey db c).1 (setCall s c).1 ∧
      (RedisDuplicateShardedRepo.call true setKey db c).2 = (setCall s c).2 := by
  cases c with
  | add id =>
    refine ⟨h.sadd id, congrArg DuplicateReply.resolved ?_⟩
    rw [sadd_reply, decide_eq_decide, h.mem_iff]
  | remove id =>
    refine ⟨h.srem id, congrArg DuplicateReply.resolved ?_⟩
    rw [srem_reply, decide_eq_decide, h.mem_iff]
  | existsId id =>
    refine ⟨h, congrArg DuplicateReply.resolved ?_⟩
    rw [sismember_reply, decide_eq_decide, h.mem_iff]
  | getAll =>
    rw [RedisDuplicateShardedRepo.call, h.getAll]
    exact ⟨h, rfl⟩

end RedisDuplicateShardedRepo

/-- No key begins with the set key. -/
def Unused (setKey : String) (db : RedisSets) : Prop :=
  ∀ key, RedisSets.startsWith setKey key = true → db.get key = none

theorem Unused.smembers {setKey : String} {db : RedisSets} (h : Unused setKey db) {key : String}
    (hkey : RedisSets.startsWith setKey key = true) : db.smembers key = ∅ := by
  rw [RedisSets.smembers, h key hkey]
  rfl

theorem Unused.sharded {setKey : String} {db : RedisSets} (h : Unused setKey db) :
    RedisDuplicateShardedRepo.Sharded setKey db ∅ := by
  intro key hkey
  rw [h.smembers hkey, Finset.filter_empty]

end Infrastructure
end PocArchitecture
