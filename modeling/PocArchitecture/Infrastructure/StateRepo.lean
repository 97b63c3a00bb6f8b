/-
Entity state repositories.

A repository keeps its states in an in-process map, in Redis, or in both.  A map keeps
the very object it was given and hands that object out again, so a later assignment to
the object shows in the map; `write` is that effect.  Redis keeps a JSON text, and what
is parsed from it is a fresh copy.  The states modelled here are JSON data, so the copy
equals the original.

The repositories of the two bounded contexts are instances of the three shapes below.
`Lawful` collects what the aggregates rely on, in terms of `view`, the state the next
`load` returns.
-/
import PocArchitecture.Lib.KeyValue

namespace PocArchitecture
namespace Infrastructure

/-- The contents of a repository: its in-process map and the Redis keys it owns. -/
structure RepoState (S : Type) where
  inMemory : KeyValue String S
  redis : KeyValue String S

def RepoState.empty {S : Type} : RepoState S := { inMemory := ∅, redis := ∅ }

structure StateRepo (S : Type) where
  load : RepoState S → String → RepoState S × Option S
  /-- The flag is Redis' answer to a `SET`; the result says whether the promise resolves. -/
  store : Bool → RepoState S → S → RepoState S × Bool
  remove : RepoState S → String → RepoState S
  /-- `load` resolves without a round trip to Redis. -/
  answersLocally : RepoState S → String → Bool
  /-- The map handed out by `load` is the one it keeps. -/
  aliased : Bool
  /-- The map keeps an object for this id. -/
  holds : RepoState S → String → Bool
  /-- Assignment through the object handed out for this id. -/
  write : RepoState S → String → S → RepoState S

namespace StateRepo

variable {S : Type}

/-- The state the next `load` returns. -/
def view (R : StateRepo S) (r : RepoState S) (id : String) : Option S := (R.load r id).2

/-! ## The three shapes -/

/-- A `Map`, or a `NodeCache` with `useClones` off, and nothing else. -/
def mapRepo (idOf : S → String) : StateRepo S where
  load r id := (r, r.inMemory.get id)
  store _ r s := ({ r with inMemory := r.inMemory.set (idOf s) s }, true)
  remove r id := { r with inMemory := r.inMemory.del id }
  answersLocally _ _ := true
  aliased := true
  holds r id := (r.inMemory.get id).isSome
  write r id s :=
    if (r.inMemory.get id).isSome then { r with inMemory := r.inMemory.set id s } else r

/-- Redis and nothing else. -/
def redisRepo (key : String → String) (idOf : S → String) : StateRepo S where
  load r id := (r, r.redis.get (key id))
  store ok r s :=
    if ok then ({ r with redis := r.redis.set (key (idOf s)) s }, true) else (r, false)
  remove r id := { r with redis := r.redis.del (key id) }
  answersLocally _ _ := false
  aliased := false
  holds _ _ := false
  write r _ _ := r

/-- A map in front of Redis, filled by `load`; the three repositories of this shape
differ in what `store` sends to Redis. -/
def cachedRepo (key : String → String) (store : Bool → RepoState S → S → RepoState S × Bool) :
    StateRepo S where
  load r id :=
    match r.inMemory.get (key id) with
    | some s => (r, some s)
    | none =>
      match r.redis.get (key id) with
      | none => (r, none)
      | some s => ({ r with inMemory := r.inMemory.set (key id) s }, some s)
  store := store
  remove r id := { inMemory := r.inMemory.del (key id), redis := r.redis.del (key id) }
  answersLocally r id := (r.inMemory.get (key id)).isSome
  aliased := true
  holds r id := (r.inMemory.get (key id)).isSome
  write r id s :=
    if (r.inMemory.get (key id)).isSome then
      { r with inMemory := r.inMemory.set (key id) s }
    else r

/-- Map and Redis on every store. -/
def storeThrough (key : String → String) (idOf : S → String) (ok : Bool) (r : RepoState S) (s : S) :
    RepoState S × Bool :=
  let r := { r with inMemory := r.inMemory.set (key (idOf s)) s }
  if ok then ({ r with redis := r.redis.set (key (idOf s)) s }, true) else (r, false)

/-- Redis only for a key the map does not hold yet. -/
def storeThroughIfNew (key : String → String) (idOf : S → String) (ok : Bool) (r : RepoState S)
    (s : S) : RepoState S × Bool :=
  if (r.inMemory.get (key (idOf s))).isSome then
    ({ r with inMemory := r.inMemory.set (key (idOf s)) s }, true)
  else storeThrough key idOf ok r s

/-- The map only. -/
def storeInMemory (key : String → String) (idOf : S → String) (_ : Bool) (r : RepoState S) (s : S) :
    RepoState S × Bool :=
  ({ r with inMemory := r.inMemory.set (key (idOf s)) s }, true)

/-! ## What every repository guarantees -/

structure Lawful (R : StateRepo S) (idOf : S → String) : Prop where
  view_empty : ∀ id, R.view RepoState.empty id = none
  view_load : ∀ r id id', R.view (R.load r id).1 id' = R.view r id'
  holds_load_self : ∀ r id, R.holds (R.load r id).1 id = (R.aliased && (R.view r id).isSome)
  holds_load_ne : ∀ r id id', id' ≠ id → R.holds (R.load r id).1 id' = R.holds r id'
  store_ok : ∀ r s, (R.store true r s).2 = true
  view_store_self : ∀ ok r s,
    R.view (R.store ok r s).1 (idOf s) = if ok || R.aliased then some s else R.view r (idOf s)
  view_store_ne : ∀ ok r s id, id ≠ idOf s → R.view (R.store ok r s).1 id = R.view r id
  stored_of_resolved : ∀ ok r s, (R.store ok r s).2 = true → ok || R.aliased
  holds_store_self : ∀ ok r s, R.holds (R.store ok r s).1 (idOf s) = R.aliased
  view_write_self : ∀ r id s,
    R.view (R.write r id s) id = if R.holds r id then some s else R.view r id
  view_write_ne : ∀ r id s id', id' ≠ id → R.view (R.write r id s) id' = R.view r id'
  holds_write : ∀ r id s id', R.holds (R.write r id s) id' = R.holds r id'
  aliased_of_holds : ∀ r id, R.holds r id = true → R.aliased = true
  aliased_of_answersLocally : ∀ r id, R.answersLocally r id = true → R.aliased = true
  view_of_holds : ∀ r id, R.holds r id = true → (R.view r id).isSome = true
  view_remove : ∀ r id id',
    R.view (R.remove r id) id' = if id' = id then none else R.view r id'

theorem mapRepo_lawful (idOf : S → String) : (mapRepo idOf).Lawful idOf where
  view_empty id := KeyValue.get_empty id
  view_load _ _ _ := rfl
  holds_load_self _ _ := rfl
  holds_load_ne _ _ _ _ := rfl
  store_ok _ _ := rfl
  view_store_self ok r s := by simp [view, mapRepo]
  view_store_ne ok r s id h := by simp [view, mapRepo, h]
  stored_of_resolved _ _ _ _ := by simp [mapRepo]
  holds_store_self ok r s := by simp [mapRepo]
  view_write_self r id s := by
    by_cases h : (r.inMemory.get id).isSome <;> simp [view, mapRepo, h]
  view_write_ne r id s id' hne := by
    by_cases h : (r.inMemory.get id).isSome <;> simp [view, mapRepo, h, hne]
  holds_write r id s id' := by
    by_cases h : (r.inMemory.get id).isSome
    · by_cases hid : id' = id
      · subst hid
        simp [mapRepo, h]
      · simp [mapRepo, h, hid]
    · simp [mapRepo, h]
  aliased_of_holds _ _ _ := rfl
  aliased_of_answersLocally _ _ _ := rfl
  view_of_holds _ _ h := h
  view_remove r id id' := KeyValue.get_del r.inMemory id id'

theorem redisRepo_lawful {key : String → String} (hkey : Function.Injective key)
    (idOf : S → String) : (redisRepo key idOf).Lawful idOf where
  view_empty id := KeyValue.get_empty (key id)
  view_load _ _ _ := rfl
  holds_load_self _ _ := by simp [redisRepo]
  holds_load_ne _ _ _ _ := rfl
  store_ok _ _ := rfl
  view_store_self ok r s := by cases ok <;> simp [view, redisRepo]
  view_store_ne ok r s id h := by
    cases ok <;> simp [view, redisRepo, hkey.ne h]
  stored_of_resolved ok _ _ h := by
    cases ok with
    | true => rfl
    | false => cases h
  holds_store_self _ _ _ := rfl
  view_write_self _ _ _ := by simp [redisRepo, view]
  view_write_ne _ _ _ _ _ := rfl
  holds_write _ _ _ _ := rfl
  aliased_of_holds _ _ h := h
  aliased_of_answersLocally _ _ h := h
  view_of_holds _ _ h := by cases h
  view_remove r id id' := by
    simp only [view, redisRepo, KeyValue.get_del, hkey.eq_iff]

/-- What the three cached repositories have in common about `store`. -/
structure CachedStore (key : String → String) (idOf : S → String)
    (store : Bool → RepoState S → S → RepoState S × Bool) : Prop where
  inMemory : ∀ ok r s, (store ok r s).1.inMemory = r.inMemory.set (key (idOf s)) s
  redis_ne : ∀ ok r s k, k ≠ key (idOf s) → (store ok r s).1.redis.get k = r.redis.get k
  resolves : ∀ r s, (store true r s).2 = true

theorem storeThrough_cachedStore (key : String → String) (idOf : S → String) :
    CachedStore key idOf (storeThrough key idOf) where
  inMemory ok r s := by cases ok <;> rfl
  redis_ne ok r s k hk := by cases ok <;> simp [storeThrough, hk]
  resolves _ _ := rfl

theorem storeThroughIfNew_cachedStore (key : String → String) (idOf : S → String) :
    CachedStore key idOf (storeThroughIfNew key idOf) where
  inMemory ok r s := by
    unfold storeThroughIfNew
    split
    · rfl
    · exact (storeThrough_cachedStore key idOf).inMemory ok r s
  redis_ne ok r s k hk := by
    unfold storeThroughIfNew
    split
    · rfl
    · exact (storeThrough_cachedStore key idOf).redis_ne ok r s k hk
  resolves r s := by
    unfold storeThroughIfNew
    split <;> rfl

theorem storeInMemory_cachedStore (key : String → String) (idOf : S → String) :
    CachedStore key idOf (storeInMemory key idOf) where
  inMemory _ _ _ := rfl
  redis_ne _ _ _ _ _ := rfl
  resolves _ _ := rfl

section Cached

variable {key : String → String} {idOf : S → String}
  {store : Bool → RepoState S → S → RepoState S × Bool}

theorem cachedRepo_view (r : RepoState S) (id : String) :
    (cachedRepo key store).view r id =
      (r.inMemory.get (key id)).or (r.redis.get (key id)) := by
  simp only [view, cachedRepo]
  cases r.inMemory.get (key id) with
  | some s => rfl
  | none => cases r.redis.get (key id) <;> rfl

/-- A load leaves Redis alone and can only fill the map with what Redis holds. -/
theorem cachedRepo_load (store : Bool → RepoState S → S → RepoState S × Bool) (r : RepoState S) (id : String) :
    ((cachedRepo key store).load r id).1 = r ∨
      ∃ s, r.inMemory.get (key id) = none ∧ r.redis.get (key id) = some s ∧
        ((cachedRepo key store).load r id).1 =
          { r with inMemory := r.inMemory.set (key id) s } := by
  simp only [cachedRepo]
  cases hm : r.inMemory.get (key id) with
  | some s => exact Or.inl rfl
  | none =>
    cases hr : r.redis.get (key id) with
    | none => exact Or.inl rfl
    | some s => exact Or.inr ⟨s, rfl, rfl, rfl⟩

theorem cachedRepo_lawful (hkey : Function.Injective key) (hstore : CachedStore key idOf store) :
    (cachedRepo key store).Lawful idOf where
  view_empty id := by simp [cachedRepo_view, RepoState.empty]
  view_load r id id' := by
    rcases cachedRepo_load store r id with h | ⟨s, hm, hr, h⟩
    · rw [h]
    · rw [h, cachedRepo_view, cachedRepo_view]
      by_cases hid : id' = id
      · subst hid
        simp [hm, hr]
      · simp [hkey.ne hid]
  holds_load_self r id := by
    simp only [view, cachedRepo]
    cases hm : r.inMemory.get (key id) with
    | some s => simp [hm]
    | none =>
      cases hr : r.redis.get (key id) with
      | none => simp [hm]
      | some s => simp
  holds_load_ne r id id' h := by
    rcases cachedRepo_load store r id with hl | ⟨s, hm, hr, hl⟩
    · rw [hl]
    · rw [hl]
      show ((r.inMemory.set (key id) s).get (key id')).isSome = (r.inMemory.get (key id')).isSome
      rw [KeyValue.get_set_ne _ _ (hkey.ne h)]
  store_ok := hstore.resolves
  view_store_self ok r s := by
    rw [cachedRepo_view]
    show ((store ok r s).1.inMemory.get (key (idOf s))).or _ = _
    rw [hstore.inMemory]
    simp [cachedRepo]
  view_store_ne ok r s id h := by
    rw [cachedRepo_view, cachedRepo_view]
    show ((store ok r s).1.inMemory.get (key id)).or ((store ok r s).1.redis.get (key id)) = _
    rw [hstore.inMemory, hstore.redis_ne ok r s (key id) (hkey.ne h),
      KeyValue.get_set_ne _ _ (hkey.ne h)]
  stored_of_resolved _ _ _ _ := by simp [cachedRepo]
  holds_store_self ok r s := by
    show ((store ok r s).1.inMemory.get (key (idOf s))).isSome = true
    rw [hstore.inMemory]
    simp
  view_write_self r id s := by
    by_cases h : (r.inMemory.get (key id)).isSome
    · rw [cachedRepo_view]
      simp [cachedRepo, h]
    · simp [cachedRepo, view, h]
  view_write_ne r id s id' hne := by
    by_cases h : (r.inMemory.get (key id)).isSome
    · rw [cachedRepo_view, cachedRepo_view]
      simp [cachedRepo, h, hkey.ne hne]
    · simp [cachedRepo, view, h]
  holds_write r id s id' := by
    by_cases h : (r.inMemory.get (key id)).isSome
    · by_cases hid : id' = id
      · subst hid
        simp [cachedRepo, h]
      · simp [cachedRepo, h, hkey.ne hid]
    · simp [cachedRepo, h]
  aliased_of_holds _ _ _ := rfl
  aliased_of_answersLocally _ _ _ := rfl
  view_of_holds r id h := by
    rw [cachedRepo_view]
    change (r.inMemory.get (key id)).isSome = true at h
    rw [Option.isSome_or, h]
    rfl
  view_remove r id id' := by
    rw [cachedRepo_view, cachedRepo_view]
    by_cases hid : id' = id
    · simp [cachedRepo, KeyValue.get_del, hid]
    · simp [cachedRepo, KeyValue.get_del, hid, hkey.ne hid]

end Cached

/-- Keys made by putting a fixed text in front of the id differ when the ids do. -/
theorem injective_prepend (text : String) : Function.Injective fun id : String => text ++ id :=
  fun _ _ h => String.append_right_inj text |>.mp h

end StateRepo

end Infrastructure
end PocArchitecture
