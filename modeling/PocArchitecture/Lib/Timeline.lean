/-
Timelines: what a program did, in order.

`Each Q t` says that every action of `t` was right when it was taken, given the actions
before it.  Orderings such as "nothing is acknowledged before it is handled" are of this
form.  A program that adds actions at the end of its timeline keeps `Each` when each new
action is right, which is `each_append_one`.  What a program has done of one kind is a
selection of its timeline, and a new action adds to it or not.
-/
import Mathlib.Data.List.Induction

namespace PocArchitecture
namespace Timeline

variable {A : Type}

/-- `Q` holds of each action and what was done before it. -/
def Each (Q : List A → A → Prop) (t : List A) : Prop :=
  ∀ past a later, t = past ++ a :: later → Q past a

theorem each_nil (Q : List A → A → Prop) : Each Q [] := by
  intro past a later h
  simp at h

theorem each_append_one {Q : List A → A → Prop} {t : List A} {a : A} :
    Each Q (t ++ [a]) ↔ Each Q t ∧ Q t a := by
  constructor
  · intro h
    refine ⟨fun past b later hb => h past b (later ++ [a]) ?_, h t a [] rfl⟩
    rw [hb, List.append_assoc, List.cons_append]
  · intro h past b later hb
    induction later using List.reverseRecOn with
    | nil =>
      obtain ⟨rfl, hab⟩ := List.append_inj' hb rfl
      rw [List.singleton_inj.mp hab] at h
      exact h.2
    | append_singleton later c =>
      rw [← List.cons_append, ← List.append_assoc] at hb
      exact h.1 past b later (List.append_inj' hb rfl).1

theorem Each.left {Q : List A → A → Prop} {t u : List A} (h : Each Q (t ++ u)) : Each Q t := by
  intro past a later ht
  refine h past a (later ++ u) ?_
  rw [ht, List.append_assoc, List.cons_append]

/-- What held of the actions taken so far, with a weaker demand. -/
theorem Each.mono {Q Q' : List A → A → Prop} {t : List A} (h : Each Q t)
    (hQ : ∀ past a, Q past a → Q' past a) : Each Q' t :=
  fun past a later ht => hQ past a (h past a later ht)

/-! ## One more action in a selection -/

variable {B : Type} {t : List A} {a : A}

theorem filterMap_concat (f : A → Option B) (t : List A) (a : A) :
    (t ++ [a]).filterMap f = t.filterMap f ++ (f a).toList := by
  rw [List.filterMap_append, List.filterMap_cons, List.filterMap_nil]
  cases f a <;> rfl

theorem filterMap_concat_none {f : A → Option B} (h : f a = none) :
    (t ++ [a]).filterMap f = t.filterMap f := by
  rw [filterMap_concat, h, Option.toList_none, List.append_nil]

theorem filterMap_concat_some {f : A → Option B} {b : B} (h : f a = some b) :
    (t ++ [a]).filterMap f = t.filterMap f ++ [b] := by
  rw [filterMap_concat, h, Option.toList_some]

theorem mem_filterMap_concat {f : A → Option B} {b : B} :
    b ∈ (t ++ [a]).filterMap f ↔ b ∈ t.filterMap f ∨ f a = some b := by
  rw [filterMap_concat, List.mem_append, Option.mem_toList]

end Timeline
end PocArchitecture
