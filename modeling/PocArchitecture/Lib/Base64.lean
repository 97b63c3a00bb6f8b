/-
Base64 with its two alphabets.

Three bytes are written as four digits of six bits; what is left at the end is written
with fewer digits.  The standard text pads the last group with `=`; the URL text has
two other characters for the last two digits and no padding.  The decoder reads either
alphabet up to the first `=`, and skips every other character.
-/
import Mathlib.Data.List.TakeWhile
import Mathlib.Data.Fintype.Basic

namespace PocArchitecture
namespace Base64

def digit (n : Nat) : Fin 64 := Fin.ofNat 64 n

def toDigits : List UInt8 → List (Fin 64)
  | a :: b :: c :: rest =>
    digit (a.toNat / 4) :: digit (a.toNat % 4 * 16 + b.toNat / 16) ::
      digit (b.toNat % 16 * 4 + c.toNat / 64) :: digit c.toNat :: toDigits rest
  | [a, b] =>
    [digit (a.toNat / 4), digit (a.toNat % 4 * 16 + b.toNat / 16), digit (b.toNat % 16 * 4)]
  | [a] => [digit (a.toNat / 4), digit (a.toNat % 4 * 16)]
  | [] => []

def firstByte (p q : Fin 64) : UInt8 := UInt8.ofNat (p.val * 4 + q.val / 16)

def secondByte (q r : Fin 64) : UInt8 := UInt8.ofNat (q.val % 16 * 16 + r.val / 4)

def thirdByte (r s : Fin 64) : UInt8 := UInt8.ofNat (r.val % 4 * 64 + s.val)

/-- A single digit at the end is too little for a byte. -/
def ofDigits : List (Fin 64) → List UInt8
  | p :: q :: r :: s :: rest => firstByte p q :: secondByte q r :: thirdByte r s :: ofDigits rest
  | [p, q, r] => [firstByte p q, secondByte q r]
  | [p, q] => [firstByte p q]
  | [_] | [] => []

@[simp] theorem digit_val (n : Nat) : (digit n).val = n % 64 := rfl

theorem byte_of_toNat {n : Nat} {b : UInt8} (h : n % 256 = b.toNat) : UInt8.ofNat n = b :=
  UInt8.toNat_inj.mp (by rw [UInt8.toNat_ofNat']; exact h)

/-- The first byte of a group, whatever fills the second digit up. -/
theorem firstByte_digit (a : UInt8) {n : Nat} (hn : n < 16) :
    firstByte (digit (a.toNat / 4)) (digit (a.toNat % 4 * 16 + n)) = a := by
  refine byte_of_toNat ?_
  have ha := a.toNat_lt
  simp only [digit_val]
  omega

theorem secondByte_digit (a : Nat) (b : UInt8) {n : Nat} (hn : n < 4) :
    secondByte (digit (a % 4 * 16 + b.toNat / 16)) (digit (b.toNat % 16 * 4 + n)) = b := by
  refine byte_of_toNat ?_
  have hb := b.toNat_lt
  simp only [digit_val]
  omega

theorem thirdByte_digit (b : Nat) (c : UInt8) :
    thirdByte (digit (b % 16 * 4 + c.toNat / 64)) (digit c.toNat) = c := by
  refine byte_of_toNat ?_
  have hc := c.toNat_lt
  simp only [digit_val]
  omega

theorem ofDigits_toDigits (bytes : List UInt8) : ofDigits (toDigits bytes) = bytes := by
  induction bytes using toDigits.induct with
  | case1 a b c rest ih =>
    have hb : b.toNat / 16 < 16 := by have := b.toNat_lt; omega
    have hc : c.toNat / 64 < 4 := by have := c.toNat_lt; omega
    rw [toDigits, ofDigits, ih, firstByte_digit a hb, secondByte_digit _ b hc, thirdByte_digit]
  | case2 a b =>
    have hb : b.toNat / 16 < 16 := by have := b.toNat_lt; omega
    rw [toDigits, ofDigits, firstByte_digit a hb]
    exact congrArg (fun c => [a, c]) (secondByte_digit _ b (n := 0) (by omega))
  | case3 a =>
    rw [toDigits, ofDigits]
    exact congrArg (fun c => [c]) (firstByte_digit a (n := 0) (by omega))
  | case4 => rfl

/-! ## Texts -/

def alphabet : List Char :=
  "ABCDEFGHIJKLMNOPQRSTUVWXYZabcdefghijklmnopqrstuvwxyz0123456789+/".toList

/-- The character the URL alphabet has for one of the standard alphabet. -/
def urlChar (c : Char) : Char := if c = '+' then '-' else if c = '/' then '_' else c

def standardChar (c : Char) : Char := if c = '-' then '+' else if c = '_' then '/' else c

def charOf (d : Fin 64) : Char := alphabet.getD d.val '='

def digitOf (c : Char) : Option (Fin 64) :=
  let n := alphabet.idxOf (standardChar c)
  if h : n < 64 then some ⟨n, h⟩ else none

theorem digitOf_urlChar_charOf : ∀ d : Fin 64, digitOf (urlChar (charOf d)) = some d := by
  decide +kernel

theorem charOf_ne_pad : ∀ d : Fin 64, charOf d ≠ '=' := by decide +kernel

theorem urlChar_charOf_ne_pad : ∀ d : Fin 64, urlChar (charOf d) ≠ '=' := by decide +kernel

def padding (bytes : List UInt8) : List Char := List.replicate ((3 - bytes.length % 3) % 3) '='

def encode (bytes : List UInt8) : String :=
  String.ofList ((toDigits bytes).map charOf ++ padding bytes)

def encodeUrl (bytes : List UInt8) : String :=
  String.ofList ((toDigits bytes).map fun d => urlChar (charOf d))

/-- The URL text of a standard text. -/
def toUrl (text : String) : String :=
  String.ofList ((text.toList.filter fun c => decide (c ≠ '=')).map urlChar)

def decode (text : String) : List UInt8 :=
  ofDigits ((text.toList.takeWhile (· ≠ '=')).filterMap digitOf)

theorem toUrl_encode (bytes : List UInt8) : toUrl (encode bytes) = encodeUrl bytes := by
  have hdigits : ((toDigits bytes).map charOf).filter (fun c => decide (c ≠ '=')) =
      (toDigits bytes).map charOf := by
    refine List.filter_eq_self.mpr fun c hc => ?_
    obtain ⟨d, -, rfl⟩ := List.mem_map.mp hc
    exact decide_eq_true (charOf_ne_pad d)
  have hpad : (padding bytes).filter (fun c => decide (c ≠ '=')) = [] := by
    refine List.filter_eq_nil_iff.mpr fun c hc => ?_
    rw [List.eq_of_mem_replicate hc]
    decide
  rw [toUrl, encode, String.toList_ofList, List.filter_append, hdigits, hpad, List.append_nil,
    List.map_map]
  rfl

theorem decode_encodeUrl (bytes : List UInt8) : decode (encodeUrl bytes) = bytes := by
  have hdigits : ∀ ds : List (Fin 64),
      (ds.map fun d => urlChar (charOf d)).filterMap digitOf = ds := by
    intro ds
    induction ds with
    | nil => rfl
    | cons d ds ih => rw [List.map_cons, List.filterMap_cons, digitOf_urlChar_charOf, ih]
  -- without padding the decoder reads the text to its end
  have hall : ((toDigits bytes).map fun d => urlChar (charOf d)).takeWhile (· ≠ '=') =
      (toDigits bytes).map fun d => urlChar (charOf d) := by
    refine List.takeWhile_eq_self_iff.mpr fun c hc => ?_
    obtain ⟨d, -, rfl⟩ := List.mem_map.mp hc
    exact decide_eq_true (urlChar_charOf_ne_pad d)
  rw [decode, encodeUrl, String.toList_ofList, hall, hdigits, ofDigits_toDigits]

example : encode [77, 97] = "TWE=" ∧ toUrl "TWE=" = "TWE" ∧ decode "TWE" = [77, 97] ∧
    decode "TWE=TWE" = [77, 97] := by decide

end Base64
end PocArchitecture
