/-
Finite key-value stores.

A store is a finite map with the extensional equality of `Finmap`.  `get`, `set` and
`del` are the operations of a key-value service and of a map object alike.
-/
import Mathlib.Data.Finmap
import Mathlib.Data.List.Induction

namespace PocArchitecture

/-- A finite map from keys to values. -/
abbrev KeyValue (K V : Type) := Finmap (fun _ : K => V)

namespace KeyValue

variable {K V : Type} [DecidableEq K]

def get (m : KeyValue K V) (k : K) : Option V := Finmap.lookup k m

def set (m : KeyValue K V) (k : K) (v : V) : KeyValue K V := Finmap.insert k v m

def del (m : KeyValue K V) (k : K) : KeyValue K V := Finmap.erase k m

@[simp] theorem get_empty (k : K) : get (∅ : KeyValue K V) k = none := Finmap.lookup_empty k

@[simp] theorem get_set_self (m : KeyValue K V) (k : K) (v : V) : (m.set k v).get k = some v :=
  Finmap.lookup_insert m

@[simp] theorem get_set_ne (m : KeyValue K V) {k k' : K} (v : V) (h : k' ≠ k) :
    (m.set k v).get k' = m.get k' := Finmap.lookup_insert_of_ne m h

theorem get_del (m : KeyValue K V) (k k' : K) :
    (m.del k).get k' = if k' = k then none else m.get k' := by
  by_cases h : k' = k
  · rw [if_pos h, h]
    exact Finmap.lookup_erase k m
  · rw [if_neg h]
    exact Finmap.lookup_erase_ne h

/-- The left store counts where both have the key. -/
theorem get_union (m m' : KeyValue K V) (k : K) : (m ∪ m').get k = (m.get k).or (m'.get k) := by
  cases h : m.get k with
  | none => exact Finmap.lookup_union_right (Finmap.lookup_eq_none.mp h)
  | some v => exact (Finmap.lookup_union_left (Finmap.mem_of_lookup_eq_some h)).trans h

/-- One assignment after the other. -/
def setAll (m : KeyValue K V) (entries : List (K × V)) : KeyValue K V :=
  entries.foldl (fun m p => m.set p.1 p.2) m

/-- The last assignment to a key counts. -/
theorem get_setAll (m : KeyValue K V) (entries : List (K × V)) (k : K) :
    (m.setAll entries).get k =
      ((entries.reverse.find? (·.1 = k)).map (·.2)).or (m.get k) := by
  induction entries using List.reverseRecOn with
  | nil => rfl
  | append_singleton entries p ih =>
    have hlast : m.setAll (entries ++ [p]) = (m.setAll entries).set p.1 p.2 := by
      rw [setAll, List.foldl_append]
      rfl
    rw [hlast, List.reverse_append, List.reverse_singleton, List.singleton_append]
    by_cases hk : p.1 = k
    · rw [List.find?_cons_of_pos (by simpa using hk), ← hk, get_set_self]
      rfl
    · rw [List.find?_cons_of_neg (by simpa using hk), get_set_ne _ _ (Ne.symm hk), ih]

end KeyValue
end PocArchitecture
