/-
Updating the first match of a list, and updating every match.

`updateFirst` is what a program does that finds an element and assigns to it;
`updateEvery` is what a program does that scans the whole list.  The two agree when at
most one element matches, and `find?` sees the same thing through either.
-/
import Mathlib.Data.List.Count

namespace PocArchitecture
namespace FirstMatch

variable {α β : Type}

/-- Rewrite the first element that satisfies `p`. -/
def updateFirst (p : α → Bool) (f : α → α) : List α → List α
  | [] => []
  | a :: l => if p a then f a :: l else a :: updateFirst p f l

/-- Rewrite every element that satisfies `p`. -/
def updateEvery (p : α → Bool) (f : α → α) (l : List α) : List α :=
  l.map fun a => if p a then f a else a

/-- A predicate the rewriting keeps finds the rewritten first match. -/
theorem find?_updateFirst {p : α → Bool} {f : α → α} (hf : ∀ a, p a = true → p (f a) = true)
    (l : List α) : (updateFirst p f l).find? p = (l.find? p).map f := by
  induction l with
  | nil => rfl
  | cons a l ih =>
    by_cases ha : p a = true
    · rw [updateFirst, if_pos ha, List.find?_cons_of_pos (hf a ha), List.find?_cons_of_pos ha]
      rfl
    · rw [updateFirst, if_neg ha, List.find?_cons_of_neg ha, List.find?_cons_of_neg ha, ih]

/-- A predicate that no rewritten element satisfies, before or after, is not disturbed. -/
theorem find?_updateFirst_of_disjoint {p q : α → Bool} {f : α → α}
    (hq : ∀ a, p a = true → q a = false) (hqf : ∀ a, p a = true → q (f a) = false)
    (l : List α) : (updateFirst p f l).find? q = l.find? q := by
  induction l with
  | nil => rfl
  | cons a l ih =>
    by_cases ha : p a = true
    · rw [updateFirst, if_pos ha, List.find?_cons_of_neg (by simp [hqf a ha]),
        List.find?_cons_of_neg (by simp [hq a ha])]
    · rw [updateFirst, if_neg ha, List.find?_cons, List.find?_cons, ih]

theorem find?_updateEvery {p : α → Bool} {f : α → α} (hf : ∀ a, p a = true → p (f a) = true)
    (l : List α) : (updateEvery p f l).find? p = (l.find? p).map f := by
  induction l with
  | nil => rfl
  | cons a l ih =>
    rw [updateEvery, List.map_cons]
    by_cases ha : p a = true
    · rw [if_pos ha, List.find?_cons_of_pos (hf a ha), List.find?_cons_of_pos ha]
      rfl
    · rw [if_neg ha, List.find?_cons_of_neg ha, List.find?_cons_of_neg ha]
      exact ih

theorem find?_updateEvery_of_disjoint {p q : α → Bool} {f : α → α}
    (hq : ∀ a, p a = true → q a = false) (hqf : ∀ a, p a = true → q (f a) = false)
    (l : List α) : (updateEvery p f l).find? q = l.find? q := by
  induction l with
  | nil => rfl
  | cons a l ih =>
    rw [updateEvery, List.map_cons]
    by_cases ha : p a = true
    · rw [if_pos ha, List.find?_cons_of_neg (by simp [hqf a ha]),
        List.find?_cons_of_neg (by simp [hq a ha])]
      exact ih
    · rw [if_neg ha, List.find?_cons, List.find?_cons]
      exact congrArg (fun r => match q a with | true => some a | false => r) ih

/-- Data the rewriting keeps is kept along the list. -/
theorem map_updateFirst {p : α → Bool} {f : α → α} {g : α → β}
    (hg : ∀ a, p a = true → g (f a) = g a) (l : List α) :
    (updateFirst p f l).map g = l.map g := by
  induction l with
  | nil => rfl
  | cons a l ih =>
    by_cases ha : p a = true
    · rw [updateFirst, if_pos ha, List.map_cons, List.map_cons, hg a ha]
    · rw [updateFirst, if_neg ha, List.map_cons, List.map_cons, ih]

/-- Rewriting the first match to itself changes nothing. -/
theorem updateFirst_eq_self {p : α → Bool} {f : α → α} {l : List α} {a : α}
    (ha : l.find? p = some a) (hf : f a = a) : updateFirst p f l = l := by
  induction l with
  | nil => rfl
  | cons b l ih =>
    by_cases hb : p b = true
    · rw [List.find?_cons_of_pos hb] at ha
      rw [updateFirst, if_pos hb, Option.some.inj ha, hf]
    · rw [List.find?_cons_of_neg hb] at ha
      rw [updateFirst, if_neg hb, ih ha]

theorem updateFirst_eq_self_iff {p : α → Bool} {f : α → α} {l : List α} {a : α}
    (ha : l.find? p = some a) : updateFirst p f l = l ↔ f a = a := by
  refine ⟨fun h => ?_, updateFirst_eq_self ha⟩
  induction l with
  | nil => cases ha
  | cons b l ih =>
    by_cases hb : p b = true
    · rw [List.find?_cons_of_pos hb] at ha
      obtain rfl := Option.some.inj ha
      rw [updateFirst, if_pos hb, List.cons.injEq] at h
      exact h.1
    · rw [List.find?_cons_of_neg hb] at ha
      rw [updateFirst, if_neg hb, List.cons.injEq] at h
      exact ih ha h.2

/-- A narrower update does the same when the first match of the wider one is its own. -/
theorem updateFirst_of_narrower {p q : α → Bool} (f : α → α) (hpq : ∀ a, p a = true → q a = true)
    {l : List α} {a : α} (hl : l.find? q = some a) (ha : p a = true) :
    updateFirst q f l = updateFirst p f l := by
  induction l with
  | nil => rfl
  | cons b l ih =>
    by_cases hb : q b = true
    · rw [List.find?_cons_of_pos hb] at hl
      obtain rfl := Option.some.inj hl
      rw [updateFirst, updateFirst, if_pos hb, if_pos ha]
    · rw [List.find?_cons_of_neg hb] at hl
      have hb' : ¬ p b = true := fun h => hb (hpq b h)
      rw [updateFirst, updateFirst, if_neg hb, if_neg hb', ih hl]

/-- When it is not, the narrower update leaves that first match alone. -/
theorem find?_updateFirst_of_narrower {p q : α → Bool} (f : α → α)
    (hpq : ∀ a, p a = true → q a = true) {l : List α} {a : α} (hl : l.find? q = some a)
    (ha : p a = false) : (updateFirst p f l).find? q = some a := by
  induction l with
  | nil => cases hl
  | cons b l ih =>
    by_cases hb : q b = true
    · rw [List.find?_cons_of_pos hb] at hl
      obtain rfl := Option.some.inj hl
      rw [updateFirst, if_neg (by simp [ha]), List.find?_cons_of_pos hb]
    · have hb' : ¬ p b = true := fun h => hb (hpq b h)
      rw [List.find?_cons_of_neg hb] at hl
      rw [updateFirst, if_neg hb', List.find?_cons_of_neg hb, ih hl]

/-- Only the element the search stops at is rewritten. -/
theorem getElem?_updateFirst (p : α → Bool) (f : α → α) (l : List α) (i : Nat) :
    (updateFirst p f l)[i]? = if l.findIdx? p = some i then l[i]?.map f else l[i]? := by
  induction l generalizing i with
  | nil => simp [updateFirst]
  | cons a l ih =>
    rw [List.findIdx?_cons]
    by_cases ha : p a = true
    · rw [updateFirst, if_pos ha, if_pos ha]
      cases i with
      | zero => simp
      | succ i => simp
    · rw [updateFirst, if_neg ha, if_neg ha]
      cases i with
      | zero => simp
      | succ i =>
        rw [List.getElem?_cons_succ, List.getElem?_cons_succ, ih]
        simp

theorem updateFirst_of_any_false {p : α → Bool} {f : α → α} {l : List α} (h : l.any p = false) :
    updateFirst p f l = l := by
  induction l with
  | nil => rfl
  | cons a l ih =>
    rw [List.any_cons, Bool.or_eq_false_iff] at h
    rw [updateFirst, if_neg (by simp [h.1]), ih h.2]

/-- With no match nothing is rewritten. -/
theorem updateEvery_eq_self {p : α → Bool} {f : α → α} {l : List α} (h : l.countP p = 0) :
    updateEvery p f l = l := by
  rw [List.countP_eq_zero] at h
  conv_rhs => rw [← List.map_id l]
  refine List.map_congr_left fun a ha => ?_
  rw [if_neg (h a ha)]
  rfl

/-- With at most one match the two updates agree. -/
theorem updateEvery_eq_updateFirst {p : α → Bool} {f : α → α} {l : List α}
    (h : l.countP p ≤ 1) : updateEvery p f l = updateFirst p f l := by
  induction l with
  | nil => rfl
  | cons a l ih =>
    by_cases ha : p a = true
    · rw [List.countP_cons_of_pos ha] at h
      rw [updateFirst, if_pos ha, updateEvery, List.map_cons, if_pos ha]
      exact congrArg _ (updateEvery_eq_self (by omega))
    · rw [List.countP_cons_of_neg ha] at h
      rw [updateFirst, if_neg ha, updateEvery, List.map_cons, if_neg ha]
      exact congrArg _ (ih h)

/-- The number of matches is kept when a match stays one. -/
theorem countP_updateFirst {p q : α → Bool} {f : α → α}
    (hq : ∀ a, p a = true → q (f a) = q a) (l : List α) :
    (updateFirst p f l).countP q = l.countP q := by
  induction l with
  | nil => rfl
  | cons a l ih =>
    by_cases ha : p a = true
    · rw [updateFirst, if_pos ha, List.countP_cons, List.countP_cons, hq a ha]
    · rw [updateFirst, if_neg ha, List.countP_cons, List.countP_cons, ih]

end FirstMatch
end PocArchitecture
