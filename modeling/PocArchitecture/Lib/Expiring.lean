/-
Key-value stores whose entries expire.

Every entry carries the time at which it is dropped; a reader at that time or later does
not see it.  `setFor` is the set with a time to live of Redis and of in-process caches.
The times are those of one clock, in any unit.
-/
import PocArchitecture.Lib.KeyValue

namespace PocArchitecture

/-- The values, each with the time at which it is dropped. -/
abbrev Expiring (K V : Type) := KeyValue K (V × Nat)

namespace Expiring

variable {K V : Type} [DecidableEq K]

/-- What is left of an entry at a time. -/
def seen (now : Nat) (entry : Option (V × Nat)) : Option V :=
  entry.bind fun e => if now < e.2 then some e.1 else none

def getAt (m : Expiring K V) (now : Nat) (k : K) : Option V := seen now (m.get k)

def setFor (m : Expiring K V) (now life : Nat) (k : K) (v : V) : Expiring K V :=
  m.set k (v, now + life)

@[simp] theorem seen_none (now : Nat) : seen now (none : Option (V × Nat)) = none := rfl

theorem seen_some (now : Nat) (v : V) (drop : Nat) :
    seen now (some (v, drop)) = if now < drop then some v else none := rfl

theorem seen_of_lt {now drop : Nat} (v : V) (h : now < drop) : seen now (some (v, drop)) = some v :=
  if_pos h

theorem seen_of_le {now drop : Nat} (v : V) (h : drop ≤ now) : seen now (some (v, drop)) = none :=
  if_neg (Nat.not_lt.mpr h)

/-! ## Before any entry is dropped -/

/-- The store without its times; nothing is dropped before `start`. -/
def Unexpired (start : Nat) (m : Expiring K V) (m' : KeyValue K V) : Prop :=
  ∀ k, m'.get k = (m.get k).map (·.1) ∧ ∀ e ∈ m.get k, start ≤ e.2

section

variable {start : Nat} {m : Expiring K V} {m' : KeyValue K V}

theorem unexpired_empty : Unexpired start (∅ : Expiring K V) ∅ := by
  intro k
  rw [KeyValue.get_empty, KeyValue.get_empty]
  exact ⟨rfl, fun _ he => absurd he (Option.not_mem_none _)⟩

theorem Unexpired.setFor (h : Unexpired start m m') (now : Nat) (k : K) (v : V) :
    Unexpired start (m.setFor now start k v) (m'.set k v) := by
  intro k'
  rw [Expiring.setFor]
  by_cases hk : k' = k
  · rw [hk, KeyValue.get_set_self, KeyValue.get_set_self]
    refine ⟨rfl, ?_⟩
    rintro _ ⟨⟩
    exact Nat.le_add_left start now
  · rw [KeyValue.get_set_ne _ _ hk, KeyValue.get_set_ne _ _ hk]
    exact h k'

theorem Unexpired.del (h : Unexpired start m m') (k : K) :
    Unexpired start (m.del k) (m'.del k) := by
  intro k'
  rw [KeyValue.get_del, KeyValue.get_del]
  by_cases hk : k' = k
  · rw [if_pos hk, if_pos hk]
    exact ⟨rfl, fun _ he => absurd he (Option.not_mem_none _)⟩
  · rw [if_neg hk, if_neg hk]
    exact h k'

/-- All entries are seen. -/
theorem Unexpired.getAt_eq (h : Unexpired start m m') {now : Nat} (hnow : now < start) (k : K) :
    m.getAt now k = m'.get k := by
  obtain ⟨hsame, hlate⟩ := h k
  rw [hsame, getAt]
  cases hentry : m.get k with
  | none => rfl
  | some e => exact seen_of_lt e.1 (Nat.lt_of_lt_of_le hnow (hlate e hentry))

end

end Expiring
end PocArchitecture
