/-
Rational numbers with two infinities and a not-a-number.

The values of an arbitrary-precision decimal type, as such types document them: finite
values are exact, the infinities absorb them, opposite infinities cancel to
not-a-number, and every comparison with not-a-number is false.
-/
import Mathlib.Data.Rat.Defs
import Mathlib.Algebra.Order.Ring.Rat
import Mathlib.Tactic.Linarith

namespace PocArchitecture

inductive ExtendedRat where
  | nan
  | negInf
  | fin (q : ℚ)
  | posInf
  deriving DecidableEq

namespace ExtendedRat

def isNaN : ExtendedRat → Bool
  | nan => true
  | _ => false

def neg : ExtendedRat → ExtendedRat
  | nan => nan
  | negInf => posInf
  | fin q => fin (-q)
  | posInf => negInf

def add : ExtendedRat → ExtendedRat → ExtendedRat
  | nan, _ | _, nan => nan
  | negInf, posInf | posInf, negInf => nan
  | negInf, _ | _, negInf => negInf
  | posInf, _ | _, posInf => posInf
  | fin p, fin q => fin (p + q)

def sub (a b : ExtendedRat) : ExtendedRat := add a (neg b)

def lt : ExtendedRat → ExtendedRat → Bool
  | nan, _ | _, nan => false
  | fin p, fin q => decide (p < q)
  | negInf, negInf | posInf, _ => false
  | negInf, _ | _, posInf => true
  | fin _, negInf => false

def le (a b : ExtendedRat) : Bool := !a.isNaN && !b.isNaN && !lt b a

@[simp] theorem add_fin (p q : ℚ) : add (fin p) (fin q) = fin (p + q) := rfl

@[simp] theorem sub_fin (p q : ℚ) : sub (fin p) (fin q) = fin (p - q) := by
  rw [sub, neg, add_fin, sub_eq_add_neg]

@[simp] theorem lt_fin (p q : ℚ) : lt (fin p) (fin q) = decide (p < q) := rfl

theorem not_posInf_lt (a : ExtendedRat) : lt posInf a = false := by cases a <;> rfl

theorem not_nan_lt (a : ExtendedRat) : lt nan a = false := by cases a <;> rfl

@[simp] theorem le_fin (p q : ℚ) : le (fin p) (fin q) = decide (p ≤ q) := by
  by_cases h : p ≤ q
  · simp [le, isNaN, h, not_lt.mpr h]
  · simp [le, isNaN, h, not_le.mp h]

theorem not_lt_nan (a : ExtendedRat) : lt a nan = false := by cases a <;> rfl

theorem nan_add (a : ExtendedRat) : add nan a = nan := by cases a <;> rfl

/-- Above a number is to be a number and not at most that number. -/
theorem lt_iff_not_le {a b : ExtendedRat} (ha : a.isNaN = false) :
    lt a b = true ↔ b.isNaN = false ∧ le b a = false := by
  cases hb : b.isNaN with
  | true =>
    cases b with
    | nan => simp [not_lt_nan]
    | _ => cases hb
  | false => simp [le, ha, hb]

/-- A sum with a finite left operand that stays below something has a finite positive
right operand, provided that operand is above zero. -/
theorem fin_of_add_lt {p : ℚ} {a l : ExtendedRat} (hpos : le a (fin 0) = false)
    (hnan : a.isNaN = false) (h : lt (add (fin p) a) l = true) :
    ∃ q, a = fin q ∧ 0 < q := by
  cases a with
  | nan => simp [isNaN] at hnan
  | negInf => simp [le, isNaN, lt] at hpos
  | fin q => exact ⟨q, rfl, by simpa using hpos⟩
  | posInf => simp [add, not_posInf_lt] at h

/-- Going down from below a bound stays below it. -/
theorem lt_of_lt_of_le {p q : ℚ} {l : ExtendedRat} (h : lt (fin p) l = true) (hq : q ≤ p) :
    lt (fin q) l = true := by
  cases l with
  | nan => simp [lt] at h
  | negInf => simp [lt] at h
  | fin r =>
    rw [lt_fin, decide_eq_true_eq] at h ⊢
    exact hq.trans_lt h
  | posInf => rfl

end ExtendedRat
end PocArchitecture
