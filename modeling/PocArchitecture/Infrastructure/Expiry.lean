/-
Repositories whose states expire.

A store is good for a fixed time.  In Redis that time runs from the store.  A map in front
of Redis has its own: it runs from the store as well, but anew from a load that fills the
map, so after a restart the map can keep a state that Redis has dropped.  `Life` follows
both times for one id, and `Overdue` is the moment between the two.
-/
import PocArchitecture.Lib.Expiring
import PocArchitecture.Infrastructure.Restart

namespace PocArchitecture
namespace Infrastructure

/-- The map and the Redis keys of a repository, each with the time its entries are dropped. -/
structure ExpiringState (S : Type) where
  inMemory : Expiring String S
  redis : Expiring String S

def ExpiringState.empty {S : Type} : ExpiringState S := { inMemory := ∅, redis := ∅ }

/-- A new process: the map is empty, Redis is as it was. -/
def ExpiringState.restarted {S : Type} (r : ExpiringState S) : ExpiringState S :=
  { r with inMemory := ∅ }

/-- The calls of a repository at a time, all succeeding. -/
structure ExpiringRepo (S : Type) where
  load : Nat → ExpiringState S → String → ExpiringState S × Option S
  store : Nat → ExpiringState S → S → ExpiringState S
  remove : ExpiringState S → String → ExpiringState S

/-- Some time passes, and then a call is made. -/
structure TimedCall (S : Type) where
  delay : Nat
  call : RepoCall S

/-- The repository and the clock. -/
structure Timed (S : Type) where
  clock : Nat
  repo : ExpiringState S

namespace ExpiringRepo

variable {S : Type}

/-- Redis and nothing else. -/
def redisRepo (key : String → String) (idOf : S → String) (life : Nat) : ExpiringRepo S where
  load now r id := (r, r.redis.getAt now (key id))
  store now r s := { r with redis := r.redis.setFor now life (key (idOf s)) s }
  remove r id := { r with redis := r.redis.del (key id) }

/-- A map in front of Redis, filled by `load`. -/
def cachedRepo (key : String → String) (idOf : S → String) (life : Nat) : ExpiringRepo S where
  load now r id :=
    match r.inMemory.getAt now (key id) with
    | some s => (r, some s)
    | none =>
      match r.redis.getAt now (key id) with
      | none => (r, none)
      | some s => ({ r with inMemory := r.inMemory.setFor now life (key id) s }, some s)
  store now r s :=
    { inMemory := r.inMemory.setFor now life (key (idOf s)) s
      redis := r.redis.setFor now life (key (idOf s)) s }
  remove r id := { inMemory := r.inMemory.del (key id), redis := r.redis.del (key id) }

variable (R : ExpiringRepo S)

def callAt (now : Nat) (r : ExpiringState S) : RepoCall S → ExpiringState S
  | .store s => R.store now r s
  | .load id => (R.load now r id).1
  | .remove id => R.remove r id
  | .restart => r.restarted

def timedStep (t : Timed S) (c : TimedCall S) : Timed S :=
  { clock := t.clock + c.delay, repo := R.callAt (t.clock + c.delay) t.repo c.call }

/-- After the calls, from empty stores on. -/
def after (calls : List (TimedCall S)) : Timed S :=
  Machine.run R.timedStep { clock := 0, repo := ExpiringState.empty } calls

/-- What `load` returns some time after the calls. -/
def loadAfter (calls : List (TimedCall S)) (delay : Nat) (id : String) : Option S :=
  (R.load ((R.after calls).clock + delay) (R.after calls).repo id).2

end ExpiringRepo

/-! ## The two times of a state -/

/-- A state that was stored and not removed since: when that was, and when the map was last
filled with it, if the process has it. -/
structure Life (S : Type) where
  state : S
  storedAt : Nat
  cachedAt : Option Nat

namespace Life

variable {S : Type}

/-- The load finds nothing in the map, and Redis has not dropped the state yet. -/
def refilled (life now : Nat) (l : Life S) : Life S :=
  if l.cachedAt = none ∧ now < l.storedAt + life then { l with cachedAt := some now } else l

/-- What a call does to the times of `id`. -/
def afterCall (idOf : S → String) (life : Nat) (id : String) (now : Nat) (l : Option (Life S)) :
    RepoCall S → Option (Life S)
  | .store s => if id = idOf s then some ⟨s, now, some now⟩ else l
  | .load loaded => if id = loaded then l.map (refilled life now) else l
  | .remove removed => if id = removed then none else l
  | .restart => l.map fun l => { l with cachedAt := none }

/-- The clock and the times of `id` after the calls. -/
def afterCalls (idOf : S → String) (life : Nat) (id : String) (calls : List (TimedCall S)) :
    Nat × Option (Life S) :=
  calls.foldl
    (fun p c => (p.1 + c.delay, afterCall idOf life id (p.1 + c.delay) p.2 c.call)) (0, none)

/-- Redis has dropped the state, and the map, filled later, has not. -/
def Overdue (life now : Nat) (l : Life S) : Prop :=
  ∃ filled ∈ l.cachedAt, l.storedAt + life ≤ now ∧ now < filled + life

end Life

/-! ## What both repositories hold -/

namespace ExpiringRepo

variable {S : Type} {key : String → String} {idOf : S → String} {life : Nat}

section

variable (r : ExpiringState S) (now : Nat) (id : String)

theorem cachedRepo_load_result :
    ((cachedRepo key idOf life).load now r id).2 =
      (r.inMemory.getAt now (key id)).or (r.redis.getAt now (key id)) := by
  simp only [cachedRepo]
  cases r.inMemory.getAt now (key id) with
  | some s => rfl
  | none => cases r.redis.getAt now (key id) <;> rfl

theorem cachedRepo_load_redis :
    ((cachedRepo key idOf life).load now r id).1.redis = r.redis := by
  simp only [cachedRepo]
  cases r.inMemory.getAt now (key id) with
  | some s => rfl
  | none => cases r.redis.getAt now (key id) <;> rfl

/-- What the map holds need not be read from Redis. -/
theorem cachedRepo_load_hit {s : S} (h : r.inMemory.getAt now (key id) = some s) :
    ((cachedRepo key idOf life).load now r id).1 = r := by
  simp only [cachedRepo, h]

/-- Redis has nothing to fill the map with. -/
theorem cachedRepo_load_miss (h : r.redis.getAt now (key id) = none) :
    ((cachedRepo key idOf life).load now r id).1 = r := by
  simp only [cachedRepo, h]
  cases r.inMemory.getAt now (key id) <;> rfl

theorem cachedRepo_load_fill {s : S} (hmap : r.inMemory.getAt now (key id) = none)
    (hredis : r.redis.getAt now (key id) = some s) :
    ((cachedRepo key idOf life).load now r id).1 =
      { r with inMemory := r.inMemory.setFor now life (key id) s } := by
  simp only [cachedRepo, hmap, hredis]

theorem cachedRepo_load_ne (hkey : Function.Injective key) {id' : String} (h : id' ≠ id) :
    ((cachedRepo key idOf life).load now r id).1.inMemory.get (key id') =
      r.inMemory.get (key id') := by
  cases hredis : r.redis.getAt now (key id) with
  | none => rw [cachedRepo_load_miss r now id hredis]
  | some s =>
    cases hmap : r.inMemory.getAt now (key id) with
    | some s' => rw [cachedRepo_load_hit r now id hmap]
    | none =>
      rw [cachedRepo_load_fill r now id hmap hredis]
      exact KeyValue.get_set_ne _ _ (hkey.ne h)

end

/-- What is held for `id`, by the map over Redis and by Redis alone, follows its two times. -/
structure Follows (key : String → String) (life : Nat) (id : String) (cached redis : Timed S)
    (p : Nat × Option (Life S)) : Prop where
  cached_clock : cached.clock = p.1
  redis_clock : redis.clock = p.1
  inMemory : cached.repo.inMemory.get (key id) =
    p.2.bind fun l => l.cachedAt.map fun filled => (l.state, filled + life)
  behind : cached.repo.redis.get (key id) = p.2.map fun l => (l.state, l.storedAt + life)
  alone : redis.repo.redis.get (key id) = p.2.map fun l => (l.state, l.storedAt + life)
  stored_before : ∀ l ∈ p.2, l.storedAt ≤ p.1
  stored_first : ∀ l ∈ p.2, ∀ filled ∈ l.cachedAt, l.storedAt ≤ filled

section

variable {id : String} {cached redis : Timed S} {p : Nat × Option (Life S)}

/-- Only the clock and what is held under the key matter. -/
theorem Follows.congr (h : Follows key life id cached redis p) {cached' redis' : Timed S}
    {clock : Nat} (hcached : cached'.clock = clock) (hredis : redis'.clock = clock)
    (hclock : p.1 ≤ clock)
    (hmap : cached'.repo.inMemory.get (key id) = cached.repo.inMemory.get (key id))
    (hbehind : cached'.repo.redis.get (key id) = cached.repo.redis.get (key id))
    (halone : redis'.repo.redis.get (key id) = redis.repo.redis.get (key id)) :
    Follows key life id cached' redis' (clock, p.2) :=
  { cached_clock := hcached
    redis_clock := hredis
    inMemory := hmap.trans h.inMemory
    behind := hbehind.trans h.behind
    alone := halone.trans h.alone
    stored_before := fun l hl => Nat.le_trans (h.stored_before l hl) hclock
    stored_first := h.stored_first }

/-- What the map over Redis returns, in terms of the two times. -/
theorem Follows.cached_result (h : Follows key life id cached redis p) (now : Nat) :
    ((cachedRepo key idOf life).load now cached.repo id).2 = p.2.bind fun l =>
      if (∃ filled ∈ l.cachedAt, now < filled + life) ∨ now < l.storedAt + life then some l.state
      else none := by
  rw [cachedRepo_load_result, Expiring.getAt, Expiring.getAt, h.inMemory, h.behind]
  cases p.2 with
  | none => rfl
  | some l =>
    dsimp only [Option.bind_some, Option.map_some]
    rw [Expiring.seen_some]
    cases hcached : l.cachedAt with
    | none => simp
    | some filled =>
      dsimp only [Option.map_some]
      rw [Expiring.seen_some]
      by_cases hfilled : now < filled + life
      · simp [hfilled]
      · simp [hfilled]

theorem Follows.redis_result (h : Follows key life id cached redis p) (now : Nat) :
    ((redisRepo key idOf life).load now redis.repo id).2 = p.2.bind fun l =>
      if now < l.storedAt + life then some l.state else none := by
  show Expiring.seen now (redis.repo.redis.get (key id)) = _
  rw [h.alone]
  cases p.2 <;> rfl

/-- The map is as it was: it still has the state, or Redis has dropped it too. -/
theorem Follows.load_kept (h : Follows key life id cached redis p) {now : Nat}
    (hkept : ∀ l ∈ p.2, l.cachedAt = none → l.storedAt + life ≤ now) :
    ((cachedRepo key idOf life).load now cached.repo id).1 = cached.repo := by
  cases hp : p.2 with
  | none =>
    refine cachedRepo_load_miss _ _ _ ?_
    rw [Expiring.getAt, h.behind, hp]
    rfl
  | some l =>
    have hmap := h.inMemory
    have hredis := h.behind
    rw [hp] at hmap hredis
    dsimp only [Option.bind_some, Option.map_some] at hmap hredis
    by_cases hdropped : l.storedAt + life ≤ now
    · refine cachedRepo_load_miss _ _ _ ?_
      rw [Expiring.getAt, hredis]
      exact Expiring.seen_of_le l.state hdropped
    · cases hcached : l.cachedAt with
      | none => exact absurd (hkept l hp hcached) hdropped
      | some filled =>
        have hfirst := h.stored_first l hp filled hcached
        refine cachedRepo_load_hit _ _ _ (s := l.state) ?_
        rw [Expiring.getAt, hmap, hcached]
        exact Expiring.seen_of_lt l.state (by omega)

/-- A load of the same id fills the map, or finds what it holds, as `refilled` says. -/
theorem Follows.load_self (h : Follows key life id cached redis p) (delay : Nat) :
    Follows key life id
      ((cachedRepo key idOf life).timedStep cached ⟨delay, .load id⟩)
      ((redisRepo key idOf life).timedStep redis ⟨delay, .load id⟩)
      (p.1 + delay, p.2.map (Life.refilled life (p.1 + delay))) := by
  have hclock : p.1 ≤ p.1 + delay := Nat.le_add_right _ _
  by_cases hfill : ∃ l ∈ p.2, l.cachedAt = none ∧ p.1 + delay < l.storedAt + life
  · obtain ⟨l, hp, hnone, hlive⟩ := hfill
    have hmap := h.inMemory
    have hredis := h.behind
    have halone := h.alone
    rw [hp] at hmap hredis halone
    dsimp only [Option.bind_some, Option.map_some] at hmap hredis halone
    rw [hnone, Option.map_none] at hmap
    have hload : ((cachedRepo key idOf life).load (p.1 + delay) cached.repo id).1 =
        { cached.repo with
          inMemory := cached.repo.inMemory.setFor (p.1 + delay) life (key id) l.state } := by
      refine cachedRepo_load_fill _ _ _ ?_ ?_
      · rw [Expiring.getAt, hmap]
        rfl
      · rw [Expiring.getAt, hredis]
        exact Expiring.seen_of_lt l.state hlive
    have hrefilled : p.2.map (Life.refilled life (p.1 + delay)) =
        some { l with cachedAt := some (p.1 + delay) } := by
      rw [hp, Option.map_some, Life.refilled, if_pos ⟨hnone, hlive⟩]
    rw [timedStep, timedStep, callAt, callAt, h.cached_clock, h.redis_clock, hload, hrefilled]
    have hbefore : l.storedAt ≤ p.1 + delay := Nat.le_trans (h.stored_before l hp) hclock
    exact
      { cached_clock := rfl
        redis_clock := rfl
        inMemory := KeyValue.get_set_self _ _ _
        behind := hredis
        alone := halone
        stored_before := by
          rintro _ ⟨⟩
          exact hbefore
        stored_first := by
          rintro _ ⟨⟩ _ ⟨⟩
          exact hbefore }
  · have hkept : ∀ l ∈ p.2, l.cachedAt = none → l.storedAt + life ≤ p.1 + delay := by
      intro l hl hnone
      by_contra hlive
      exact hfill ⟨l, hl, hnone, Nat.not_le.mp hlive⟩
    have hsame : p.2.map (Life.refilled life (p.1 + delay)) = p.2 := by
      refine (Option.map_congr fun l hl => ?_).trans Option.map_id'
      rw [Life.refilled, if_neg fun hl' => hfill ⟨l, hl, hl'⟩]
    rw [timedStep, timedStep, callAt, callAt, h.cached_clock, h.redis_clock, h.load_kept hkept,
      hsame]
    exact h.congr rfl rfl hclock rfl rfl rfl

/-- What one call does to what is held follows what it does to the two times. -/
theorem Follows.step (hkey : Function.Injective key) (h : Follows key life id cached redis p)
    (c : TimedCall S) :
    Follows key life id ((cachedRepo key idOf life).timedStep cached c)
      ((redisRepo key idOf life).timedStep redis c)
      (p.1 + c.delay, Life.afterCall idOf life id (p.1 + c.delay) p.2 c.call) := by
  have hclock : p.1 ≤ p.1 + c.delay := Nat.le_add_right _ _
  have hcached : cached.clock + c.delay = p.1 + c.delay := congrArg (· + c.delay) h.cached_clock
  have hredis : redis.clock + c.delay = p.1 + c.delay := congrArg (· + c.delay) h.redis_clock
  obtain ⟨delay, call⟩ := c
  cases call with
  | store s =>
    rw [Life.afterCall]
    dsimp only at hcached hredis hclock ⊢
    rw [timedStep, timedStep]
    dsimp only
    rw [hcached, hredis]
    by_cases hid : id = idOf s
    · rw [if_pos hid, hid]
      exact
        { cached_clock := rfl
          redis_clock := rfl
          inMemory := KeyValue.get_set_self _ _ _
          behind := KeyValue.get_set_self _ _ _
          alone := KeyValue.get_set_self _ _ _
          stored_before := by
            rintro _ ⟨⟩
            exact Nat.le_refl _
          stored_first := by
            rintro _ ⟨⟩ _ ⟨⟩
            exact Nat.le_refl _ }
    · rw [if_neg hid]
      exact h.congr rfl rfl hclock (KeyValue.get_set_ne _ _ (hkey.ne hid))
        (KeyValue.get_set_ne _ _ (hkey.ne hid)) (KeyValue.get_set_ne _ _ (hkey.ne hid))
  | load loaded =>
    rw [Life.afterCall]
    by_cases hid : id = loaded
    · rw [if_pos hid, ← hid]
      exact h.load_self delay
    · rw [if_neg hid]
      exact h.congr hcached hredis hclock (cachedRepo_load_ne _ _ _ hkey hid)
        (congrArg (KeyValue.get · (key id)) (cachedRepo_load_redis cached.repo _ loaded)) rfl
  | remove removed =>
    rw [Life.afterCall]
    have hdel (m : Expiring String S) : (m.del (key removed)).get (key id) =
        if id = removed then none else m.get (key id) := by
      rw [KeyValue.get_del]
      exact if_congr hkey.eq_iff rfl rfl
    by_cases hid : id = removed
    · simp only [if_pos hid] at hdel ⊢
      exact
        { cached_clock := hcached
          redis_clock := hredis
          inMemory := hdel _
          behind := hdel _
          alone := hdel _
          stored_before := fun _ hl => absurd hl (Option.not_mem_none _)
          stored_first := fun _ hl => absurd hl (Option.not_mem_none _) }
    · simp only [if_neg hid] at hdel ⊢
      exact h.congr hcached hredis hclock (hdel _) (hdel _) (hdel _)
  | restart =>
    rw [Life.afterCall]
    exact
      { cached_clock := hcached
        redis_clock := hredis
        inMemory := by
          refine (KeyValue.get_empty _).trans ?_
          cases p.2 <;> rfl
        behind := h.behind.trans (by cases p.2 <;> rfl)
        alone := h.alone.trans (by cases p.2 <;> rfl)
        stored_before := by
          intro l hl
          obtain ⟨l', hl', rfl⟩ := Option.map_eq_some_iff.mp hl
          exact Nat.le_trans (h.stored_before l' hl') hclock
        stored_first := by
          intro l hl filled hfilled
          obtain ⟨l', hl', rfl⟩ := Option.map_eq_some_iff.mp hl
          cases hfilled }

end

theorem follows_after (hkey : Function.Injective key) (calls : List (TimedCall S)) (id : String) :
    Follows key life id ((cachedRepo key idOf life).after calls)
      ((redisRepo key idOf life).after calls) (Life.afterCalls idOf life id calls) := by
  induction calls using List.reverseRecOn with
  | nil =>
    exact
      { cached_clock := rfl
        redis_clock := rfl
        inMemory := KeyValue.get_empty _
        behind := KeyValue.get_empty _
        alone := KeyValue.get_empty _
        stored_before := fun _ hl => absurd hl (Option.not_mem_none _)
        stored_first := fun _ hl => absurd hl (Option.not_mem_none _) }
  | append_singleton calls c ih =>
    rw [after, after, Machine.run_append, Machine.run_append, Life.afterCalls, List.foldl_append]
    exact ih.step hkey c

/-! ## Loads with and without the map -/

section

variable (cached redis : ExpiringRepo S) (idOf : S → String) (life : Nat)

/-- A load some time after the calls returns the same with and without the map, and nothing
that was stored more than `life` before. -/
structure LoadsAlike (calls : List (TimedCall S)) (delay : Nat) (id : String) : Prop where
  same : cached.loadAfter calls delay id = redis.loadAfter calls delay id
  cached_in_time : ∀ s ∈ cached.loadAfter calls delay id,
    ∃ l ∈ (Life.afterCalls idOf life id calls).2,
      (Life.afterCalls idOf life id calls).1 + delay ≤ l.storedAt + life
  redis_in_time : ∀ s ∈ redis.loadAfter calls delay id,
    ∃ l ∈ (Life.afterCalls idOf life id calls).2,
      (Life.afterCalls idOf life id calls).1 + delay ≤ l.storedAt + life

/-- All loads among the calls. -/
def Truthful (calls : List (TimedCall S)) : Prop :=
  ∀ done delay id, done ++ [⟨delay, .load id⟩] <+: calls →
    LoadsAlike cached redis idOf life done delay id

/-- No load among the calls comes when the state is overdue. -/
def NeverOverdue (calls : List (TimedCall S)) : Prop :=
  ∀ done delay id, done ++ [⟨delay, .load id⟩] <+: calls →
    ∀ l ∈ (Life.afterCalls idOf life id done).2,
      ¬ l.Overdue life ((Life.afterCalls idOf life id done).1 + delay)

end

/-- The map is asked first; it has more than Redis only when the state is overdue. -/
theorem held_iff (l : Life S) (now : Nat) :
    ((∃ filled ∈ l.cachedAt, now < filled + life) ∨ now < l.storedAt + life) ↔
      now < l.storedAt + life ∨ l.Overdue life now := by
  constructor
  · rintro (⟨filled, hfilled, hheld⟩ | hlive)
    · by_cases hlive : now < l.storedAt + life
      · exact Or.inl hlive
      · exact Or.inr ⟨filled, hfilled, Nat.not_lt.mp hlive, hheld⟩
    · exact Or.inl hlive
  · rintro (hlive | ⟨filled, hfilled, -, hheld⟩)
    · exact Or.inr hlive
    · exact Or.inl ⟨filled, hfilled, hheld⟩

theorem loadsAlike_iff (hkey : Function.Injective key) (calls : List (TimedCall S)) (delay : Nat)
    (id : String) :
    LoadsAlike (cachedRepo key idOf life) (redisRepo key idOf life) idOf life calls delay id ↔
      ∀ l ∈ (Life.afterCalls idOf life id calls).2,
        ¬ l.Overdue life ((Life.afterCalls idOf life id calls).1 + delay) := by
  have h : Follows key life id ((cachedRepo key idOf life).after calls)
      ((redisRepo key idOf life).after calls) (Life.afterCalls idOf life id calls) :=
    follows_after hkey calls id
  have hcached : (cachedRepo key idOf life).loadAfter calls delay id = _ := h.cached_result _
  have hredis : (redisRepo key idOf life).loadAfter calls delay id = _ := h.redis_result _
  rw [h.cached_clock] at hcached
  rw [h.redis_clock] at hredis
  constructor
  · intro halike l hl hover
    have hsame := halike.same
    rw [hl] at hcached hredis
    rw [hcached, hredis, Option.bind_some, Option.bind_some,
      if_pos ((held_iff l _).mpr (Or.inr hover))] at hsame
    obtain ⟨_, _, hdropped, _⟩ := hover
    rw [if_neg (Nat.not_lt.mpr hdropped)] at hsame
    cases hsame
  · intro hnever
    have hsame : (cachedRepo key idOf life).loadAfter calls delay id =
        (redisRepo key idOf life).loadAfter calls delay id := by
      rw [hcached, hredis]
      refine Option.bind_congr fun l hl => ?_
      refine if_congr ((held_iff l _).trans ?_) rfl rfl
      exact or_iff_left (hnever l hl)
    have htime : ∀ s ∈ (redisRepo key idOf life).loadAfter calls delay id,
        ∃ l ∈ (Life.afterCalls idOf life id calls).2,
          (Life.afterCalls idOf life id calls).1 + delay ≤ l.storedAt + life := by
      intro s hs
      rw [hredis] at hs
      obtain ⟨l, hl, hstate⟩ := Option.bind_eq_some_iff.mp hs
      refine ⟨l, hl, ?_⟩
      by_contra hlate
      rw [if_neg fun hlive => hlate (Nat.le_of_lt hlive)] at hstate
      cases hstate
    exact ⟨hsame, hsame ▸ htime, htime⟩

theorem truthful_iff (hkey : Function.Injective key) (calls : List (TimedCall S)) :
    Truthful (cachedRepo key idOf life) (redisRepo key idOf life) idOf life calls ↔
      NeverOverdue idOf life calls := by
  constructor
  · intro h done delay id hload
    exact (loadsAlike_iff hkey done delay id).mp (h done delay id hload)
  · intro h done delay id hload
    exact (loadsAlike_iff hkey done delay id).mpr (h done delay id hload)

/-! ## Before anything expires -/

/-- The contents of a repository without expiry, nothing dropped. -/
structure Fresh (life : Nat) (t : ExpiringState S) (r : RepoState S) : Prop where
  inMemory : Expiring.Unexpired life t.inMemory r.inMemory
  redis : Expiring.Unexpired life t.redis r.redis

/-- Until `life` has passed since the start, `R` does what `R'` does. -/
structure Expires (life : Nat) (R : ExpiringRepo S) (R' : StateRepo S) : Prop where
  callAt : ∀ {now t r}, Fresh life t r → now < life → ∀ call,
    Fresh life (R.callAt now t call) (R'.callStep r call)
  load : ∀ {now t r}, Fresh life t r → now < life → ∀ id, (R.load now t id).2 = R'.view r id

theorem redisRepo_expires (key : String → String) (idOf : S → String) (life : Nat) :
    Expires life (redisRepo key idOf life) (StateRepo.redisRepo key idOf) where
  callAt {now t r} h hnow call := by
    cases call with
    | store s => exact ⟨h.inMemory, h.redis.setFor now _ s⟩
    | load id => exact h
    | remove id => exact ⟨h.inMemory, h.redis.del _⟩
    | restart => exact ⟨Expiring.unexpired_empty, h.redis⟩
  load h hnow id := h.redis.getAt_eq hnow _

theorem cachedRepo_expires (key : String → String) (idOf : S → String) (life : Nat) :
    Expires life (cachedRepo key idOf life)
      (StateRepo.cachedRepo key (StateRepo.storeThrough key idOf)) where
  callAt {now t r} h hnow call := by
    cases call with
    | store s => exact ⟨h.inMemory.setFor now _ s, h.redis.setFor now _ s⟩
    | load id =>
      have hmap := h.inMemory.getAt_eq hnow (key id)
      have hredis := h.redis.getAt_eq hnow (key id)
      simp only [callAt, cachedRepo, StateRepo.callStep, StateRepo.cachedRepo, hmap, hredis]
      cases r.inMemory.get (key id) with
      | some s => exact h
      | none =>
        cases r.redis.get (key id) with
        | none => exact h
        | some s => exact ⟨h.inMemory.setFor now _ s, h.redis⟩
    | remove id => exact ⟨h.inMemory.del _, h.redis.del _⟩
    | restart => exact ⟨Expiring.unexpired_empty, h.redis⟩
  load h hnow id := by
    rw [cachedRepo_load_result, StateRepo.cachedRepo_view, h.inMemory.getAt_eq hnow,
      h.redis.getAt_eq hnow]

/-- The loads of the repository without expiry. -/
theorem Expires.loadAfter_eq {R : ExpiringRepo S} {R' : StateRepo S} (h : Expires life R R')
    (calls : List (TimedCall S)) (delay : Nat) (id : String)
    (hnow : (R.after calls).clock + delay < life) :
    R.loadAfter calls delay id =
      R'.view (Machine.run R'.callStep RepoState.empty (calls.map TimedCall.call)) id := by
  have hfresh : ∀ calls : List (TimedCall S), (R.after calls).clock < life →
      Fresh life (R.after calls).repo
        (Machine.run R'.callStep RepoState.empty (calls.map TimedCall.call)) := by
    intro calls
    induction calls using List.reverseRecOn with
    | nil => exact fun _ => ⟨Expiring.unexpired_empty, Expiring.unexpired_empty⟩
    | append_singleton calls c ih =>
      rw [after, Machine.run_append, List.map_append, Machine.run_append]
      intro hlast
      have hbefore : (R.after calls).clock < life := Nat.lt_of_le_of_lt (Nat.le_add_right _ _) hlast
      exact h.callAt (ih hbefore) hlast c.call
  exact h.load (hfresh calls (Nat.lt_of_le_of_lt (Nat.le_add_right _ _) hnow)) hnow id

end ExpiringRepo

end Infrastructure
end PocArchitecture
