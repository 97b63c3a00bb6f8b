/-
`getAllIds` of the participant repositories.

The map answers with its keys.  The repositories over Redis ask for the keys with their
prefix and take it off again, into a list that is not the one they resolve with; and two of
them never make that list, so that the first key makes the callback throw.
-/
import PocArchitecture.Lib.RedisSets
import PocArchitecture.Infrastructure.Restart
import PocArchitecture.Participants.Repos
import Mathlib.Data.Finset.Max

namespace PocArchitecture
namespace Participants

open Infrastructure

namespace AllIds

def keyPrefix : String := "participant_"

/-- What becomes of the promise: after a throw in the callback it never settles. -/
inductive Reply where
  | resolved (ids : Finset String)
  | thrown
  deriving DecidableEq

/-- The answer to `KEYS participant_*`. -/
def redisKeys (r : RepoState ParticipantState) : Finset String :=
  (Finmap.keys r.redis).filter fun key => RedisSets.startsWith keyPrefix key = true

def getAllIds : RepoInfraTypes → RepoState ParticipantState → Reply
  | .inMemory, r => .resolved (Finmap.keys r.inMemory)
  -- takes the prefixes off into `results` and resolves with `result`
  | .redis, r => .resolved (redisKeys r)
  -- there are no `results` to push to
  | .cachedRedis, r | .cachedPersistedRedis, r =>
    if redisKeys r = ∅ then .resolved (redisKeys r) else .thrown

inductive RepoWrite where
  | store (s : ParticipantState)
  | remove (id : String)

def RepoWrite.call : RepoWrite → RepoCall ParticipantState
  | store s => .store s
  | remove id => .remove id

/-- After the calls, all of which succeed. -/
def after (kind : RepoInfraTypes) (writes : List RepoWrite) : RepoState ParticipantState :=
  Machine.run kind.repo.callStep RepoState.empty (writes.map RepoWrite.call)

/-- What a call makes of the ids stored and not removed since. -/
def idsAfter (ids : Finset String) : RepoWrite → Finset String
  | .store s => insert s.id ids
  | .remove id => ids.erase id

def storedIds (writes : List RepoWrite) : Finset String := writes.foldl idsAfter ∅

/-- `getAllIds` resolves to the ids that are stored, and each of them can be loaded. -/
def Enumerates (kind : RepoInfraTypes) (writes : List RepoWrite) : Prop :=
  getAllIds kind (after kind writes) = .resolved (storedIds writes) ∧
    ∀ id ∈ storedIds writes, (kind.repo.view (after kind writes) id).isSome = true

/-! ## What is held -/

theorem mem_keys {m : KeyValue String ParticipantState} {key : String} :
    key ∈ Finmap.keys m ↔ (m.get key).isSome = true :=
  Finmap.mem_keys.trans Finmap.lookup_isSome.symm

/-- The ids that can be loaded. -/
theorem view_iff (kind : RepoInfraTypes) (writes : List RepoWrite) (id : String) :
    (kind.repo.view (after kind writes) id).isSome = true ↔ id ∈ storedIds writes := by
  have hlawful := kind.repo_lawful
  induction writes using List.reverseRecOn with
  | nil =>
    show (kind.repo.view RepoState.empty id).isSome = true ↔ _
    rw [hlawful.view_empty]
    simp [storedIds]
  | append_singleton writes w ih =>
    rw [after, List.map_append, Machine.run_append, storedIds, List.foldl_append]
    change _ ↔ id ∈ idsAfter (storedIds writes) w
    cases w with
    | store s =>
      show (kind.repo.view (kind.repo.store true (after kind writes) s).1 id).isSome = true ↔
        id ∈ insert s.id (storedIds writes)
      rw [Finset.mem_insert]
      by_cases hid : id = s.id
      · rw [hid, hlawful.view_store_self]
        simp
      · rw [hlawful.view_store_ne _ _ _ _ hid]
        exact ih.trans (or_iff_right hid).symm
    | remove removed =>
      show (kind.repo.view (kind.repo.remove (after kind writes) removed) id).isSome = true ↔
        id ∈ (storedIds writes).erase removed
      rw [hlawful.view_remove, Finset.mem_erase]
      by_cases hid : id = removed
      · simp [hid]
      · rw [if_neg hid]
        exact ih.trans (and_iff_right hid).symm

/-- The keys in Redis are those of the ids, and the map is no help without them. -/
structure RedisHolds (kind : RepoInfraTypes) (ids : Finset String)
    (r : RepoState ParticipantState) : Prop where
  keys : ∀ key, (r.redis.get key).isSome = true ↔ ∃ id ∈ ids, keyWithPrefix id = key
  behind : kind = .cachedRedis → ∀ key, (r.inMemory.get key).isSome = true →
    (r.redis.get key).isSome = true

section

variable {kind : RepoInfraTypes} {ids : Finset String} {r r' : RepoState ParticipantState}

/-- A store leaves the key of the entity in both places, if it leaves it anywhere. -/
theorem RedisHolds.store (h : RedisHolds kind ids r) (s : ParticipantState)
    (hredis : ∀ key, (r'.redis.get key).isSome = true ↔
      key = keyWithPrefix s.id ∨ (r.redis.get key).isSome = true)
    (hmap : kind = .cachedRedis → ∀ key, (r'.inMemory.get key).isSome = true →
      key = keyWithPrefix s.id ∨ (r.inMemory.get key).isSome = true) :
    RedisHolds kind (insert s.id ids) r' where
  keys key := by
    rw [hredis, h.keys]
    constructor
    · rintro (hkey | ⟨id, hid, hkey⟩)
      · exact ⟨s.id, Finset.mem_insert_self _ _, hkey.symm⟩
      · exact ⟨id, Finset.mem_insert_of_mem hid, hkey⟩
    · rintro ⟨id, hid, hkey⟩
      rcases Finset.mem_insert.mp hid with hid | hid
      · exact Or.inl (hid ▸ hkey.symm)
      · exact Or.inr ⟨id, hid, hkey⟩
  behind hkind key hheld := by
    rw [hredis]
    rcases hmap hkind key hheld with hkey | hheld
    · exact Or.inl hkey
    · exact Or.inr (h.behind hkind key hheld)

theorem RedisHolds.remove (h : RedisHolds kind ids r) (removed : String)
    (hredis : ∀ key, r'.redis.get key =
      if key = keyWithPrefix removed then none else r.redis.get key)
    (hmap : kind = .cachedRedis → ∀ key, r'.inMemory.get key =
      if key = keyWithPrefix removed then none else r.inMemory.get key) :
    RedisHolds kind (ids.erase removed) r' where
  keys key := by
    rw [hredis]
    by_cases hkey : key = keyWithPrefix removed
    · rw [if_pos hkey]
      refine iff_of_false Bool.false_ne_true ?_
      rintro ⟨id, hid, hsame⟩
      exact Finset.ne_of_mem_erase hid (keyWithPrefix_injective (hsame.trans hkey))
    · rw [if_neg hkey, h.keys]
      refine exists_congr fun id => and_congr_left fun hsame => ?_
      refine (Finset.mem_erase.trans (and_iff_right ?_)).symm
      rintro rfl
      exact hkey hsame.symm
  behind hkind key hheld := by
    rw [hmap hkind] at hheld
    rw [hredis]
    split at hheld
    · cases hheld
    · rename_i hkey
      rw [if_neg hkey]
      exact h.behind hkind key hheld

/-- `SET` adds a key. -/
theorem isSome_get_set (m : KeyValue String ParticipantState) (s : ParticipantState)
    (key key' : String) :
    ((m.set key s).get key').isSome = true ↔ key' = key ∨ (m.get key').isSome = true := by
  by_cases hkey : key' = key
  · rw [hkey, KeyValue.get_set_self]
    exact iff_of_true rfl (Or.inl rfl)
  · rw [KeyValue.get_set_ne _ _ hkey]
    exact (or_iff_right hkey).symm

/-- A key that the map holds is in Redis already. -/
theorem RedisHolds.storeIfNew (h : RedisHolds .cachedRedis ids r) (s : ParticipantState) :
    RedisHolds .cachedRedis (insert s.id ids)
      (cachedRedisParticipantStateRepo.store true r s).1 := by
  show RedisHolds _ _ (StateRepo.storeThroughIfNew keyWithPrefix ParticipantState.id true r s).1
  rw [StateRepo.storeThroughIfNew]
  split
  · rename_i hheld
    refine h.store s (fun key => ?_) (fun _ key => (isSome_get_set _ s _ key).mp)
    refine (or_iff_right_of_imp ?_).symm
    rintro rfl
    exact h.behind rfl _ hheld
  · exact h.store s (isSome_get_set _ s _) (fun _ key => (isSome_get_set _ s _ key).mp)

end

theorem redisHolds_after {kind : RepoInfraTypes} (hkind : kind ≠ .inMemory)
    (writes : List RepoWrite) : RedisHolds kind (storedIds writes) (after kind writes) := by
  induction writes using List.reverseRecOn with
  | nil =>
    refine ⟨fun key => ?_, fun _ key hheld => ?_⟩
    · show ((∅ : KeyValue String ParticipantState).get key).isSome = true ↔
        ∃ id ∈ (∅ : Finset String), keyWithPrefix id = key
      simp
    · change ((∅ : KeyValue String ParticipantState).get key).isSome = true at hheld
      rw [KeyValue.get_empty] at hheld
      cases hheld
  | append_singleton writes w ih =>
    rw [after, List.map_append, Machine.run_append, storedIds, List.foldl_append]
    change RedisHolds kind (storedIds writes) (after kind writes) at ih
    change RedisHolds kind (idsAfter (storedIds writes) w)
      (kind.repo.callStep (after kind writes) w.call)
    cases w with
    | store s =>
      cases kind with
      | inMemory => exact absurd rfl hkind
      | redis => exact ih.store s (isSome_get_set _ s _) (fun h => by cases h)
      | cachedRedis => exact ih.storeIfNew s
      | cachedPersistedRedis => exact ih.store s (isSome_get_set _ s _) (fun h => by cases h)
    | remove removed =>
      cases kind with
      | inMemory => exact absurd rfl hkind
      | redis => exact ih.remove removed (KeyValue.get_del _ _) (fun h => by cases h)
      | cachedRedis =>
        exact ih.remove removed (KeyValue.get_del _ _) (fun _ => KeyValue.get_del _ _)
      | cachedPersistedRedis =>
        exact ih.remove removed (KeyValue.get_del _ _) (fun h => by cases h)

/-! ## What is answered -/

/-- Redis lists the keys of the ids. -/
theorem redisKeys_after {kind : RepoInfraTypes} (hkind : kind ≠ .inMemory)
    (writes : List RepoWrite) :
    redisKeys (after kind writes) = (storedIds writes).image keyWithPrefix := by
  ext key
  rw [redisKeys, Finset.mem_filter, mem_keys, (redisHolds_after hkind writes).keys,
    Finset.mem_image]
  refine and_iff_left_of_imp ?_
  rintro ⟨id, -, rfl⟩
  exact RedisSets.startsWith_append keyPrefix id

/-- The longest id becomes a longer key, which is no id. -/
theorem image_keyWithPrefix_eq_iff (ids : Finset String) :
    ids.image keyWithPrefix = ids ↔ ids = ∅ := by
  constructor
  · intro hsame
    by_contra hsome
    obtain ⟨id, hid, hlongest⟩ :=
      ids.exists_max_image String.length (Finset.nonempty_iff_ne_empty.mpr hsome)
    have hkey : keyWithPrefix id ∈ ids := by
      rw [← hsame]
      exact Finset.mem_image_of_mem _ hid
    have hlong := hlongest _ hkey
    have hlength : (keyWithPrefix id).length = 12 + id.length := String.length_append keyPrefix id
    omega
  · rintro rfl
    exact Finset.image_empty _

theorem getAllIds_inMemory (writes : List RepoWrite) :
    getAllIds .inMemory (after .inMemory writes) = .resolved (storedIds writes) := by
  refine congrArg Reply.resolved ?_
  ext id
  rw [mem_keys]
  exact view_iff .inMemory writes id

/-- The keys are no ids, and a list that was not made takes none. -/
theorem getAllIds_over_redis {kind : RepoInfraTypes} (hkind : kind ≠ .inMemory)
    (writes : List RepoWrite) :
    getAllIds kind (after kind writes) = .resolved (storedIds writes) ↔ storedIds writes = ∅ := by
  have hkeys := redisKeys_after hkind writes
  have hunmade : (if redisKeys (after kind writes) = ∅ then
      Reply.resolved (redisKeys (after kind writes)) else .thrown) =
      .resolved (storedIds writes) ↔ storedIds writes = ∅ := by
    rw [hkeys]
    by_cases hnone : storedIds writes = ∅
    · rw [hnone, Finset.image_empty, if_pos rfl]
      exact iff_of_true rfl rfl
    · rw [if_neg (mt Finset.image_eq_empty.mp hnone)]
      exact iff_of_false (fun h => by cases h) hnone
  cases kind with
  | inMemory => exact absurd rfl hkind
  | redis => rw [getAllIds, hkeys, Reply.resolved.injEq, image_keyWithPrefix_eq_iff]
  | cachedRedis => exact hunmade
  | cachedPersistedRedis => exact hunmade

/-- The repository in memory lists its ids, and those over Redis do if there are none. -/
theorem enumerates_iff (kind : RepoInfraTypes) (writes : List RepoWrite) :
    Enumerates kind writes ↔ kind = .inMemory ∨ storedIds writes = ∅ := by
  have hloads : ∀ id ∈ storedIds writes, (kind.repo.view (after kind writes) id).isSome = true :=
    fun id hid => (view_iff kind writes id).mpr hid
  rw [Enumerates, and_iff_left hloads]
  by_cases hkind : kind = .inMemory
  · rw [hkind]
    exact iff_of_true (getAllIds_inMemory writes) (Or.inl rfl)
  · exact (getAllIds_over_redis hkind writes).trans (or_iff_right hkind).symm

def sampleParticipant : ParticipantState :=
  { id := "blue", name := "blue", accounts := [], endpoints := [], partition := none }

/-- One participant: Redis answers with its key, and the callback of the cached ones throws. -/
theorem blue_not_enumerated :
    ¬ Enumerates .redis [.store sampleParticipant] ∧
      ¬ Enumerates .cachedRedis [.store sampleParticipant] ∧
      ¬ Enumerates .cachedPersistedRedis [.store sampleParticipant] := by
  have hstored : storedIds [.store sampleParticipant] ≠ ∅ := by decide
  refine ⟨fun h => ?_, fun h => ?_, fun h => ?_⟩
  · exact hstored ((getAllIds_over_redis (by decide) _).mp h.1)
  · exact hstored ((getAllIds_over_redis (by decide) _).mp h.1)
  · exact hstored ((getAllIds_over_redis (by decide) _).mp h.1)

end AllIds

end Participants
end PocArchitecture
