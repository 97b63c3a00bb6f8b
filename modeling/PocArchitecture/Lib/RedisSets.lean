/-
The set commands of a key-value service.

A set that loses its last member is no longer there, so the keys the service lists are
the keys of its sets with members.
-/
import PocArchitecture.Lib.KeyValue
import Mathlib.Data.Finset.Basic

namespace PocArchitecture

abbrev RedisSets := KeyValue String (Finset String)

namespace RedisSets

variable (db : RedisSets) (key id : String)

/-- A set that is not there has no members. -/
def smembers : Finset String := (db.get key).getD ∅

def sismember : Nat := if id ∈ db.smembers key then 1 else 0

/-- Leave these members under the key. -/
def put (members : Finset String) : RedisSets :=
  if members = ∅ then db.del key else db.set key members

/-- The number of members added. -/
def sadd : RedisSets × Nat :=
  if id ∈ db.smembers key then (db, 0) else (db.put key (insert id (db.smembers key)), 1)

/-- The number of members removed. -/
def srem : RedisSets × Nat :=
  if id ∈ db.smembers key then (db.put key ((db.smembers key).erase id), 1) else (db, 0)

/-- The pattern `text*`. -/
def startsWith (text key : String) : Bool := text.toList.isPrefixOf key.toList

/-- The keys that match `text*`. -/
def keysFrom (text : String) : Finset String :=
  (Finmap.keys db).filter fun key => startsWith text key = true

variable {db key id} {key' text : String} {members : Finset String}

theorem get_put :
    (db.put key members).get key' =
      if key' = key then (if members = ∅ then none else some members) else db.get key' := by
  rw [put]
  by_cases hm : members = ∅
  · rw [if_pos hm, if_pos hm, KeyValue.get_del]
  · rw [if_neg hm, if_neg hm]
    by_cases hk : key' = key
    · rw [if_pos hk, hk, KeyValue.get_set_self]
    · rw [if_neg hk, KeyValue.get_set_ne _ _ hk]

@[simp] theorem smembers_put_self : (db.put key members).smembers key = members := by
  rw [smembers, get_put, if_pos rfl]
  by_cases hm : members = ∅
  · rw [if_pos hm, hm]
    rfl
  · rw [if_neg hm]
    rfl

@[simp] theorem smembers_put_ne (h : key' ≠ key) :
    (db.put key members).smembers key' = db.smembers key' := by
  rw [smembers, get_put, if_neg h, smembers]

theorem mem_keysFrom :
    key ∈ db.keysFrom text ↔ (∃ members, db.get key = some members) ∧ startsWith text key = true := by
  rw [keysFrom, Finset.mem_filter, Finmap.mem_keys, Finmap.mem_iff]
  rfl

theorem startsWith_append (text more : String) : startsWith text (text ++ more) = true := by
  rw [startsWith, String.toList_append, List.isPrefixOf_iff_prefix]
  exact List.prefix_append _ _

/-- Adding and removing a member, in terms of the members. -/
theorem smembers_sadd :
    (db.sadd key id).1.smembers key' =
      if key' = key then insert id (db.smembers key) else db.smembers key' := by
  rw [sadd]
  by_cases hid : id ∈ db.smembers key
  · rw [if_pos hid, Finset.insert_eq_of_mem hid]
    by_cases hk : key' = key
    · rw [if_pos hk, hk]
    · rw [if_neg hk]
  · rw [if_neg hid]
    by_cases hk : key' = key
    · rw [if_pos hk, hk, smembers_put_self]
    · rw [if_neg hk, smembers_put_ne hk]

theorem smembers_srem :
    (db.srem key id).1.smembers key' =
      if key' = key then (db.smembers key).erase id else db.smembers key' := by
  rw [srem]
  by_cases hid : id ∈ db.smembers key
  · rw [if_pos hid]
    by_cases hk : key' = key
    · rw [if_pos hk, hk, smembers_put_self]
    · rw [if_neg hk, smembers_put_ne hk]
  · rw [if_neg hid, Finset.erase_eq_of_notMem hid]
    by_cases hk : key' = key
    · rw [if_pos hk, hk]
    · rw [if_neg hk]

end RedisSets
end PocArchitecture
