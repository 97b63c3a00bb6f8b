/-
`bignumber.js` as the participants module uses it.

The package is not part of the repository, so its operations are the fields of a
structure, with the behaviour its documentation promises as the laws: every number has
a value, addition and subtraction are exact on values, comparisons compare values and
are false on not-a-number, and a number survives being printed and parsed again.
-/
import PocArchitecture.Lib.ExtendedRat
import Mathlib.Data.Rat.Cast.Order

namespace PocArchitecture
namespace Participants

structure BigNumber where
  Num : Type
  /-- `new BigNumber(text)` -/
  ofString : String → Num
  toString : Num → String
  plus : Num → Num → Num
  minus : Num → Num → Num
  isNaN : Num → Bool
  isLessThan : Num → Num → Bool
  isLessThanOrEqualTo : Num → Num → Bool
  zero : Num
  value : Num → ExtendedRat
  value_zero : value zero = .fin 0
  value_plus : ∀ x y, value (plus x y) = (value x).add (value y)
  value_minus : ∀ x y, value (minus x y) = (value x).sub (value y)
  isNaN_eq : ∀ x, isNaN x = (value x).isNaN
  isLessThan_eq : ∀ x y, isLessThan x y = (value x).lt (value y)
  isLessThanOrEqualTo_eq : ∀ x y, isLessThanOrEqualTo x y = (value x).le (value y)
  value_ofString_toString : ∀ x, value (ofString (toString x)) = value x

namespace BigNumber

variable (B : BigNumber)

/-- The value a decimal string parses to. -/
def valueOf (text : String) : ExtendedRat := B.value (B.ofString text)

@[simp] theorem valueOf_toString (x : B.Num) : B.valueOf (B.toString x) = B.value x :=
  B.value_ofString_toString x

theorem value_plus_ofString (x y : String) :
    B.value (B.plus (B.ofString x) (B.ofString y)) = (B.valueOf x).add (B.valueOf y) :=
  B.value_plus _ _

theorem value_minus_ofString (x y : String) :
    B.value (B.minus (B.ofString x) (B.ofString y)) = (B.valueOf x).sub (B.valueOf y) :=
  B.value_minus _ _

/-- The string is a finite decimal. -/
def Finite (text : String) : Prop := ∃ q, B.valueOf text = .fin q

/-- The rational a finite decimal stands for, zero for any other string. -/
def rat (text : String) : ℚ :=
  match B.valueOf text with
  | .fin q => q
  | _ => 0

theorem valueOf_eq_rat {B : BigNumber} {text : String} (h : B.Finite text) :
    B.valueOf text = .fin (B.rat text) := by
  obtain ⟨q, hq⟩ := h
  rw [rat, hq]

theorem rat_of_valueOf {B : BigNumber} {text : String} {q : ℚ} (h : B.valueOf text = .fin q) :
    B.rat text = q := by
  rw [rat, h]

/-- The string is a finite decimal above zero. -/
def Positive (text : String) : Prop := ∃ q, B.valueOf text = .fin q ∧ 0 < q

theorem Positive.finite {B : BigNumber} {text : String} (h : B.Positive text) : B.Finite text :=
  let ⟨q, hq, _⟩ := h
  ⟨q, hq⟩

end BigNumber

/-! ## An instance on whole numbers

Whole numbers and not-a-number, written in decimal.  It is there for the examples, on the
short decimals they use; beyond its precision and exponent limits `bignumber.js` prints
another text, and it reads texts that this one does not. -/

namespace Whole

/-- The number the digits write, nothing when a character is not a digit. -/
def parseNat (cs : List Char) : Option Nat :=
  if !cs.isEmpty && cs.all Char.isDigit then some (Nat.ofDigitChars 10 cs 0) else none

def parse (text : String) : Option Int :=
  match text.toList with
  | '-' :: cs => (parseNat cs).map fun n : Nat => -(n : Int)
  | cs => (parseNat cs).map fun n : Nat => (n : Int)

def print : Option Int → String
  | none => "NaN"
  | some (.ofNat n) => n.repr
  | some (.negSucc n) => "-" ++ (n + 1).repr

theorem parseNat_repr (n : Nat) : parseNat n.repr.toList = some n := by
  rw [Nat.toList_repr, parseNat, if_pos, Nat.ofDigitChars_ten_toDigits]
  rw [Bool.and_eq_true, Bool.not_eq_true', List.isEmpty_eq_false_iff, List.all_eq_true]
  exact ⟨Nat.toDigits_ne_nil, fun c hc => Nat.isDigit_of_mem_toDigits (by decide) (by decide) hc⟩

theorem parse_repr (n : Nat) : parse n.repr = some (n : Int) := by
  have hn : parseNat n.repr.toList = some n := parseNat_repr n
  rw [parse]
  split
  · rename_i cs hcs
    -- a digit string does not begin with a minus sign
    have hd : '-' ∈ Nat.toDigits 10 n := by
      rw [← Nat.toList_repr, hcs]
      exact List.mem_cons_self
    exact absurd (Nat.isDigit_of_mem_toDigits (by decide) (by decide) hd) (by decide)
  · rw [hn]
    rfl

theorem parse_print (x : Option Int) : parse (print x) = x := by
  match x with
  | none => rfl
  | some (.ofNat n) => exact parse_repr n
  | some (.negSucc n) =>
    rw [print, parse, String.toList_append]
    exact congrArg (Option.map fun m : Nat => -(m : Int)) (parseNat_repr (n + 1))

def value : Option Int → ExtendedRat
  | none => .nan
  | some z => .fin z

def lift₂ {α : Type} (absent : α) (f : Int → Int → α) : Option Int → Option Int → α
  | some x, some y => f x y
  | _, _ => absent

end Whole

open Whole in
def wholeNumbers : BigNumber where
  Num := Option Int
  ofString := parse
  toString := print
  plus := lift₂ none fun x y => some (x + y)
  minus := lift₂ none fun x y => some (x - y)
  isNaN x := x.isNone
  isLessThan := lift₂ false fun x y => decide (x < y)
  isLessThanOrEqualTo := lift₂ false fun x y => decide (x ≤ y)
  zero := some 0
  value := value
  value_zero := rfl
  value_plus x y := by
    cases x with
    | none => rfl
    | some x =>
      cases y with
      | none => rfl
      | some y => exact congrArg ExtendedRat.fin (Int.cast_add x y)
  value_minus x y := by
    cases x with
    | none => rfl
    | some x =>
      cases y with
      | none => rfl
      | some y =>
        show ExtendedRat.fin ((x - y : Int) : ℚ) = ExtendedRat.sub (.fin x) (.fin y)
        rw [ExtendedRat.sub_fin, Int.cast_sub]
  isNaN_eq x := by cases x <;> rfl
  isLessThan_eq x y := by
    cases x with
    | none => rfl
    | some x =>
      cases y with
      | none => rfl
      | some y =>
        show decide (x < y) = decide ((x : ℚ) < (y : ℚ))
        rw [decide_eq_decide, Int.cast_lt]
  isLessThanOrEqualTo_eq x y := by
    cases x with
    | none => rfl
    | some x =>
      cases y with
      | none => rfl
      | some y =>
        show decide (x ≤ y) = ExtendedRat.le (.fin x) (.fin y)
        rw [ExtendedRat.le_fin, decide_eq_decide, Int.cast_le]
  value_ofString_toString x := congrArg value (parse_print x)

example : wholeNumbers.toString (wholeNumbers.plus (wholeNumbers.ofString "70")
    (wholeNumbers.ofString "-12")) = "58" := by decide

end Participants
end PocArchitecture
