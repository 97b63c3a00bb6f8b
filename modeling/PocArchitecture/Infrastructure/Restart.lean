/-
Stores, loads and removals with process restarts in between.

A restart loses the in-process map and keeps Redis.  What a repository owes its caller is
the last state stored for an id; it keeps doing so over a restart exactly when the map
held nothing that Redis does not hold as well.
-/
import PocArchitecture.Lib.Machine
import PocArchitecture.Infrastructure.StateRepo
import Mathlib.Data.List.Infix

namespace PocArchitecture
namespace Infrastructure

/-- A new process: the map is empty, Redis is as it was. -/
def RepoState.restarted {S : Type} (r : RepoState S) : RepoState S := { r with inMemory := ∅ }

/-- Whatever the map holds is in Redis too. -/
def RepoState.InStep {S : Type} (r : RepoState S) : Prop :=
  ∀ key s, r.inMemory.get key = some s → r.redis.get key = some s

inductive RepoCall (S : Type) where
  | store (s : S)
  | load (id : String)
  | remove (id : String)
  | restart

namespace StateRepo

variable {S : Type}

/-- Every call succeeds. -/
def callStep (R : StateRepo S) (r : RepoState S) : RepoCall S → RepoState S
  | .store s => (R.store true r s).1
  | .load id => (R.load r id).1
  | .remove id => R.remove r id
  | .restart => r.restarted

/-- What one call makes of the state last stored for `id`. -/
def lastAfter (idOf : S → String) (id : String) (last : Option S) : RepoCall S → Option S
  | .store s => if id = idOf s then some s else last
  | .remove removed => if id = removed then none else last
  | .load _ | .restart => last

/-- The state last stored for `id` and not removed since. -/
def lastStored (idOf : S → String) (id : String) (calls : List (RepoCall S)) : Option S :=
  calls.foldl (lastAfter idOf id) none

/-- After any number of the calls, every load returns what was stored last. -/
def Survives (R : StateRepo S) (idOf : S → String) (calls : List (RepoCall S)) : Prop :=
  ∀ done, done <+: calls → ∀ id,
    R.view (Machine.run (callStep R) RepoState.empty done) id = lastStored idOf id done

/-- A restart finds the map in step with Redis. -/
def RestartInStep (r : RepoState S) : RepoCall S → Prop
  | .restart => r.InStep
  | _ => True

/-- At each restart the map is in step with Redis. -/
def RestartsInStep (R : StateRepo S) (calls : List (RepoCall S)) : Prop :=
  Machine.Along (callStep R) RestartInStep RepoState.empty calls

/-- What the theorem below needs of a repository: an invariant of its contents, under which
a restart goes unnoticed exactly when the map is in step with Redis. -/
structure Restartable (R : StateRepo S) (Owned : RepoState S → Prop) : Prop where
  empty : Owned RepoState.empty
  step : ∀ r call, Owned r → Owned (R.callStep r call)
  unnoticed : ∀ r, Owned r → ((∀ id, R.view r.restarted id = R.view r id) ↔ r.InStep)

section

variable {R : StateRepo S} {idOf : S → String} {Owned : RepoState S → Prop}

/-- Any call but a restart does to the loads what it does to the last stored states. -/
theorem view_callStep (hR : R.Lawful idOf) (r : RepoState S) {call : RepoCall S}
    (hcall : call ≠ .restart) (id : String) :
    R.view (R.callStep r call) id = lastAfter idOf id (R.view r id) call := by
  cases call with
  | store s =>
    rw [callStep, lastAfter]
    split
    · rename_i hid
      rw [hid, hR.view_store_self, Bool.true_or, if_pos rfl]
    · rename_i hid
      exact hR.view_store_ne true r s id hid
  | load id' => exact hR.view_load r id' id
  | remove id' => exact hR.view_remove r id' id
  | restart => exact absurd rfl hcall

theorem survives_from (hR : R.Lawful idOf) (hrestart : R.Restartable Owned)
    (calls : List (RepoCall S)) {r : RepoState S} (hr : Owned r) {last : String → Option S}
    (hlast : ∀ id, R.view r id = last id) :
    (∀ done, done <+: calls → ∀ id,
        R.view (Machine.run R.callStep r done) id = done.foldl (lastAfter idOf id) (last id)) ↔
      Machine.Along R.callStep RestartInStep r calls := by
  induction calls generalizing r last with
  | nil =>
    refine iff_of_true (fun done hdone id => ?_) trivial
    rw [List.prefix_nil.mp hdone]
    exact hlast id
  | cons call rest ih =>
    -- the loads agree after this one call exactly when the condition on it holds
    have hone : (∀ id, R.view (R.callStep r call) id = lastAfter idOf id (last id) call) ↔
        RestartInStep r call := by
      cases call with
      | restart =>
        refine Iff.trans ?_ (hrestart.unnoticed r hr)
        exact forall_congr' fun id => by rw [hlast id]; rfl
      | _ =>
        refine iff_of_true (fun id => ?_) trivial
        rw [← hlast id]
        exact view_callStep hR r (fun h => by cases h) id
    constructor
    · intro h
      have hnow := h [call] (List.prefix_cons_iff.mpr (Or.inr ⟨[], rfl, List.nil_prefix⟩))
      refine ⟨hone.mp hnow, (ih (hrestart.step r call hr) hnow).mp fun done hdone id => ?_⟩
      exact h (call :: done) (List.prefix_cons_iff.mpr (Or.inr ⟨done, rfl, hdone⟩)) id
    · rintro ⟨hnow, hrest⟩ done hdone id
      rcases List.prefix_cons_iff.mp hdone with rfl | ⟨tail, rfl, htail⟩
      · exact hlast id
      · exact (ih (hrestart.step r call hr) (hone.mpr hnow)).mpr hrest tail htail id

/-- Every load returns what was stored last exactly when each restart finds the map in step
with Redis. -/
theorem survives_iff (hR : R.Lawful idOf) (hrestart : R.Restartable Owned)
    (calls : List (RepoCall S)) : R.Survives idOf calls ↔ R.RestartsInStep calls :=
  survives_from hR hrestart calls hrestart.empty hR.view_empty

/-- A repository whose calls keep the map in step with Redis survives every restart. -/
theorem survives_of_inStep (hR : R.Lawful idOf) (hrestart : R.Restartable Owned)
    {Kept : RepoState S → Prop} (hempty : Kept RepoState.empty)
    (hstep : ∀ r call, Kept r → Kept (R.callStep r call)) (hkept : ∀ r, Kept r → r.InStep)
    (calls : List (RepoCall S)) : R.Survives idOf calls := by
  refine (survives_iff hR hrestart calls).mpr ?_
  refine Machine.along_of_invariant (P := fun _ _ => True) (fun r call hr _ => hstep r call hr)
    (fun r call hr _ => ?_) hempty (Machine.along_of_forall (fun _ _ _ => trivial) _ fun _ _ => trivial)
  cases call with
  | restart => exact hkept r hr
  | _ => trivial

end

theorem inStep_of_inMemory_empty {r : RepoState S} (h : r.inMemory = ∅) : r.InStep := by
  intro key s hs
  rw [h, KeyValue.get_empty] at hs
  cases hs

/-! ## The three shapes -/

/-- A repository without Redis: only an empty map survives. -/
theorem mapRepo_restartable (idOf : S → String) :
    (mapRepo idOf).Restartable fun r => r.redis = ∅ where
  empty := rfl
  step r call h := by cases call <;> exact h
  unnoticed r h := by
    constructor
    · intro hview key s hs
      have hlost : (mapRepo idOf).view r.restarted key = none := KeyValue.get_empty key
      rw [hview key] at hlost
      exact absurd (hs.symm.trans hlost) (by simp)
    · intro hin id
      show (∅ : KeyValue String S).get id = r.inMemory.get id
      rw [KeyValue.get_empty]
      cases hs : r.inMemory.get id with
      | none => rfl
      | some s =>
        have hredis := hin id s hs
        rw [h, KeyValue.get_empty] at hredis
        cases hredis

/-- A repository without a map has nothing to lose. -/
theorem redisRepo_restartable (key : String → String) (idOf : S → String) :
    (redisRepo key idOf).Restartable fun r => r.inMemory = ∅ where
  empty := rfl
  step r call h := by
    cases call with
    | restart => rfl
    | _ => exact h
  unnoticed r h := iff_of_true (fun _ => rfl) (inStep_of_inMemory_empty h)

theorem redisRepo_survives {key : String → String} (hkey : Function.Injective key)
    (idOf : S → String) (calls : List (RepoCall S)) : (redisRepo key idOf).Survives idOf calls := by
  have hrestart := redisRepo_restartable key idOf
  exact survives_of_inStep (redisRepo_lawful hkey idOf) hrestart hrestart.empty hrestart.step
    (fun _ h => inStep_of_inMemory_empty h) calls

section Cached

variable {key : String → String} {idOf : S → String}
  {store : Bool → RepoState S → S → RepoState S × Bool}

/-- The map of a cached repository has entries under keys of ids only. -/
def Keyed (key : String → String) (r : RepoState S) : Prop :=
  ∀ k, (r.inMemory.get k).isSome = true → ∃ id, k = key id

theorem Keyed.set {r : RepoState S} (h : Keyed key r) (id : String) (s : S) :
    Keyed key { r with inMemory := r.inMemory.set (key id) s } := by
  intro k hk
  by_cases hid : k = key id
  · exact ⟨id, hid⟩
  · rw [KeyValue.get_set_ne _ _ hid] at hk
    exact h k hk

theorem cachedRepo_restartable (hstore : CachedStore key idOf store) :
    (cachedRepo key store).Restartable (Keyed key) where
  empty k hk := by
    rw [RepoState.empty, KeyValue.get_empty] at hk
    cases hk
  step r call h := by
    cases call with
    | store s =>
      intro k hk
      change ((store true r s).1.inMemory.get k).isSome = true at hk
      rw [hstore.inMemory] at hk
      exact h.set (idOf s) s k hk
    | load id =>
      rcases cachedRepo_load store r id with hl | ⟨s, -, -, hl⟩
      · rw [callStep, hl]
        exact h
      · rw [callStep, hl]
        exact h.set id s
    | remove id =>
      intro k hk
      change ((r.inMemory.del (key id)).get k).isSome = true at hk
      rw [KeyValue.get_del] at hk
      split at hk
      · cases hk
      · exact h k hk
    | restart =>
      intro k hk
      rw [callStep, RepoState.restarted, KeyValue.get_empty] at hk
      cases hk
  unnoticed r h := by
    have hview : ∀ id, (cachedRepo key store).view r.restarted id = r.redis.get (key id) := by
      intro id
      rw [cachedRepo_view, RepoState.restarted, KeyValue.get_empty, Option.none_or]
    constructor
    · intro heq k s hs
      obtain ⟨id, rfl⟩ := h k (by rw [hs]; rfl)
      rw [← hview, heq id, cachedRepo_view, hs, Option.some_or]
    · intro hin id
      rw [hview, cachedRepo_view]
      cases hs : r.inMemory.get (key id) with
      | none => rfl
      | some s => rw [hin _ s hs, Option.some_or]

theorem storeThrough_survives (hkey : Function.Injective key) (calls : List (RepoCall S)) :
    (cachedRepo key (storeThrough key idOf)).Survives idOf calls := by
  have hstore := storeThrough_cachedStore key idOf
  refine survives_of_inStep (cachedRepo_lawful hkey hstore) (cachedRepo_restartable hstore)
    (inStep_of_inMemory_empty rfl) (fun r call h => ?_) (fun _ h => h) calls
  cases call with
  | store s =>
    intro k s' hs
    change (r.inMemory.set (key (idOf s)) s).get k = some s' at hs
    show (r.redis.set (key (idOf s)) s).get k = some s'
    by_cases hk : k = key (idOf s)
    · subst hk
      rw [KeyValue.get_set_self] at hs ⊢
      exact hs
    · rw [KeyValue.get_set_ne _ _ hk] at hs ⊢
      exact h k s' hs
  | load id =>
    rcases cachedRepo_load (storeThrough key idOf) r id with hl | ⟨s, -, hredis, hl⟩
    · rw [callStep, hl]
      exact h
    · rw [callStep, hl]
      intro k s' hs
      by_cases hk : k = key id
      · subst hk
        rw [KeyValue.get_set_self] at hs
        rw [← hs]
        exact hredis
      · rw [KeyValue.get_set_ne _ _ hk] at hs
        exact h k s' hs
  | remove id =>
    intro k s' hs
    change (r.inMemory.del (key id)).get k = some s' at hs
    show (r.redis.del (key id)).get k = some s'
    rw [KeyValue.get_del] at hs ⊢
    split at hs
    · cases hs
    · rename_i hk
      rw [if_neg hk]
      exact h k s' hs
  | restart => exact inStep_of_inMemory_empty rfl

end Cached

end StateRepo

end Infrastructure
end PocArchitecture
