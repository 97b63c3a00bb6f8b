/-
Sums over lists whose entries have distinct keys.

What an accounting invariant needs of such a sum: how it moves when the quantity of one
entry changes, what is left of it when the entries of a second list are taken away, and that
it is at most the sum over a list that has them all.
-/
import Mathlib.Algebra.BigOperators.Group.List.Basic
import Mathlib.Algebra.Order.BigOperators.Group.List
import Mathlib.Data.List.Nodup
import Mathlib.Data.List.Perm.Subperm
import Mathlib.Tactic.Abel

namespace PocArchitecture
namespace KeyedSum

variable {α K : Type} {key : α → K} {l m : List α}

section Group

variable {G : Type} [AddCommGroup G]

/-- One entry changes by `δ`, and the sum with it. -/
theorem sum_map_update (hnodup : (l.map key).Nodup) {a : α} (ha : a ∈ l) {f g : α → G} {δ : G}
    (hself : g a = f a + δ) (hother : ∀ b ∈ l, key b ≠ key a → g b = f b) :
    (l.map g).sum = (l.map f).sum + δ := by
  induction l with
  | nil => exact absurd ha List.not_mem_nil
  | cons x l ih =>
    rw [List.map_cons, List.nodup_cons] at hnodup
    simp only [List.map_cons, List.sum_cons]
    rcases List.mem_cons.mp ha with rfl | ha
    · -- the changed entry comes first, and no other has its key
      have hrest : l.map g = l.map f := List.map_congr_left fun b hb =>
        hother b (List.mem_cons_of_mem a hb) fun hk => hnodup.1 (hk ▸ List.mem_map_of_mem hb)
      rw [hrest, hself]
      abel
    · have hx : g x = f x :=
        hother x List.mem_cons_self fun hk => hnodup.1 (hk ▸ List.mem_map_of_mem ha)
      rw [hx, ih hnodup.2 ha fun b hb => hother b (List.mem_cons_of_mem x hb)]
      abel

theorem sum_map_filter (p : α → Bool) (l : List α) (f : α → G) :
    ((l.filter p).map f).sum = (l.map fun a => if p a then f a else 0).sum := by
  induction l with
  | nil => rfl
  | cons x l ih => cases hp : p x <;> simp [hp, ih]

theorem sum_map_filter_add (p : α → Bool) (l : List α) (f : α → G) :
    (l.map f).sum = ((l.filter p).map f).sum + ((l.filter fun a => !p a).map f).sum := by
  have hperm := (List.filter_append_perm p l).map f
  rw [List.map_append] at hperm
  rw [← hperm.sum_eq, List.sum_append]

/-- What is left of a sum when the entries of `m`, all of them in `l`, are taken away. -/
theorem sum_absent [DecidableEq K] (hl : (l.map key).Nodup) (hm : (m.map key).Nodup)
    (hsub : ∀ a ∈ m, a ∈ l) (f : α → G) :
    ((l.filter fun a => !decide (key a ∈ m.map key)).map f).sum =
      (l.map f).sum - (m.map f).sum := by
  have hperm : (l.filter fun a => decide (key a ∈ m.map key)).Perm m := by
    refine (List.perm_ext_iff_of_nodup (hl.of_map.filter _) hm.of_map).mpr fun a => ?_
    rw [List.mem_filter, decide_eq_true_eq]
    constructor
    · rintro ⟨ha, hkey⟩
      obtain ⟨b, hb, hba⟩ := List.mem_map.mp hkey
      rwa [← List.inj_on_of_nodup_map hl (hsub b hb) ha hba]
    · exact fun ha => ⟨hsub a ha, List.mem_map_of_mem ha⟩
  rw [sum_map_filter_add (fun a => decide (key a ∈ m.map key)) l f, (hperm.map f).sum_eq]
  abel

end Group

section Monoid

variable {N : Type} [AddCommMonoid N]

/-- Lists with the same distinct entries have the same sum. -/
theorem sum_map_eq (hl : l.Nodup) (hm : m.Nodup) (hmem : ∀ a, a ∈ l ↔ a ∈ m) (f : α → N) :
    (l.map f).sum = (m.map f).sum :=
  (((List.perm_ext_iff_of_nodup hl hm).mpr hmem).map f).sum_eq

variable [PartialOrder N] [IsOrderedAddMonoid N]

/-- Distinct entries of `m` come to no more than all of `m`, where nothing is negative. -/
theorem sum_map_le (hl : l.Nodup) (hsub : ∀ a ∈ l, a ∈ m) {f : α → N}
    (hf : ∀ a ∈ m, 0 ≤ f a) : (l.map f).sum ≤ (m.map f).sum := by
  obtain ⟨l', hperm, hsublist⟩ := hl.subperm hsub
  rw [← (hperm.map f).sum_eq]
  refine (hsublist.map f).sum_le_sum fun x hx => ?_
  obtain ⟨a, ha, rfl⟩ := List.mem_map.mp hx
  exact hf a ha

end Monoid

end KeyedSum
end PocArchitecture
