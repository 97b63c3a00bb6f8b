/-
Grouping a list by a key.

`groupBy` goes through the list once and adds each value to the group of its key, which it
opens at the end if there is none.  There is one group for each key, and it holds the values
of the key in the order of the list.
-/
import Mathlib.Data.List.Induction
import Mathlib.Data.List.Nodup

namespace PocArchitecture
namespace Grouping

variable {A K V : Type} [DecidableEq K]

/-- The groups with one more value. -/
def addTo (k : K) (v : V) : List (K × List V) → List (K × List V)
  | [] => [(k, [v])]
  | g :: groups => if g.1 = k then (k, g.2 ++ [v]) :: groups else g :: addTo k v groups

def groupBy (key : A → K) (value : A → V) (l : List A) : List (K × List V) :=
  l.foldl (fun groups a => addTo (key a) (value a) groups) []

/-- What the groups hold for a key. -/
def valuesOf (k : K) (groups : List (K × List V)) : List V :=
  (groups.filter (·.1 = k)).flatMap (·.2)

theorem valuesOf_cons (k : K) (g : K × List V) (groups : List (K × List V)) :
    valuesOf k (g :: groups) = if g.1 = k then g.2 ++ valuesOf k groups else valuesOf k groups := by
  by_cases h : g.1 = k <;> simp [valuesOf, h]

theorem mem_keys_addTo {k k' : K} {v : V} {groups : List (K × List V)} :
    k' ∈ (addTo k v groups).map (·.1) ↔ k' = k ∨ k' ∈ groups.map (·.1) := by
  induction groups with
  | nil => simp [addTo]
  | cons g groups ih =>
    rw [addTo]
    split
    · rename_i h
      simp [h]
    · rw [List.map_cons, List.mem_cons, ih, List.map_cons, List.mem_cons]
      exact or_left_comm

theorem nodup_addTo {k : K} {v : V} {groups : List (K × List V)} (h : (groups.map (·.1)).Nodup) :
    ((addTo k v groups).map (·.1)).Nodup := by
  induction groups with
  | nil => exact List.nodup_singleton k
  | cons g groups ih =>
    rw [List.map_cons, List.nodup_cons] at h
    rw [addTo]
    split
    · rename_i hk
      rw [List.map_cons, List.nodup_cons, ← hk]
      exact h
    · rename_i hk
      rw [List.map_cons, List.nodup_cons, mem_keys_addTo]
      exact ⟨fun hg => hg.elim hk h.1, ih h.2⟩

/-- With one group for each key, a value goes to the end of what there is for its key. -/
theorem valuesOf_addTo {k k' : K} {v : V} {groups : List (K × List V)}
    (h : (groups.map (·.1)).Nodup) :
    valuesOf k' (addTo k v groups) = valuesOf k' groups ++ if k = k' then [v] else [] := by
  induction groups with
  | nil =>
    rw [addTo, valuesOf_cons]
    split <;> rfl
  | cons g groups ih =>
    rw [List.map_cons, List.nodup_cons] at h
    rw [addTo]
    by_cases hg : g.1 = k
    · rw [if_pos hg, valuesOf_cons, valuesOf_cons, hg]
      by_cases hk : k = k'
      · have hnone : valuesOf k' groups = [] := by
          rw [valuesOf, List.filter_eq_nil_iff.mpr fun p hp hpk => ?_, List.flatMap_nil]
          exact h.1 (List.mem_map.mpr ⟨p, hp, by simpa [hg, hk] using hpk⟩)
        rw [if_pos hk, if_pos hk, if_pos hk, hnone, List.append_nil, List.append_nil]
      · rw [if_neg hk, if_neg hk, if_neg hk, List.append_nil]
    · rw [if_neg hg, valuesOf_cons, valuesOf_cons, ih h.2]
      by_cases hk : g.1 = k'
      · rw [if_pos hk, if_pos hk, List.append_assoc]
      · rw [if_neg hk, if_neg hk]

variable (key : A → K) (value : A → V)

theorem nodup_groupBy (l : List A) : ((groupBy key value l).map (·.1)).Nodup := by
  induction l using List.reverseRecOn with
  | nil => exact List.nodup_nil
  | append_singleton l a ih =>
    rw [groupBy, List.foldl_append]
    exact nodup_addTo ih

/-- Nothing is lost, and the order is kept. -/
theorem valuesOf_groupBy (k : K) (l : List A) :
    valuesOf k (groupBy key value l) = (l.filter (key · = k)).map value := by
  induction l using List.reverseRecOn with
  | nil => rfl
  | append_singleton l a ih =>
    rw [groupBy, List.foldl_append]
    change valuesOf k (addTo (key a) (value a) (groupBy key value l)) = _
    rw [valuesOf_addTo (nodup_groupBy key value l), ih, List.filter_append, List.map_append]
    by_cases h : key a = k <;> simp [h]

/-- The order of the groups does not matter to what they hold for a key. -/
theorem valuesOf_perm {k : K} {groups groups' : List (K × List V)} (hperm : groups.Perm groups')
    (hnodup : (groups.map (·.1)).Nodup) : valuesOf k groups = valuesOf k groups' := by
  have hfilter : (groups.filter (·.1 = k)).Perm (groups'.filter (·.1 = k)) := hperm.filter _
  have hshort : (groups.filter (·.1 = k)).length ≤ 1 := by
    have hcount := List.nodup_iff_count_le_one.mp hnodup k
    rw [List.count, List.countP_map, List.countP_eq_length_filter] at hcount
    have hsame : groups.filter (·.1 = k) = groups.filter ((· == k) ∘ (·.1)) :=
      List.filter_congr fun p _ => (beq_eq_decide p.1 k).symm
    rw [hsame]
    exact hcount
  have hsame : groups.filter (·.1 = k) = groups'.filter (·.1 = k) := by
    generalize groups.filter (·.1 = k) = l at hfilter hshort ⊢
    match l, hshort with
    | [], _ => exact hfilter.nil_eq
    | [g], _ => exact (List.singleton_perm.mp hfilter)
  rw [valuesOf, hsame, valuesOf]

end Grouping
end PocArchitecture
