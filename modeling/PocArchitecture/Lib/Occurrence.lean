/-
The first occurrence of a text in another.

`splitFirst` is what is before and after it.  Looking for a substring and taking what comes
after it are read off this split, as the string functions of a language do them.
-/
import Mathlib.Data.List.Infix

namespace PocArchitecture
namespace Occurrence

/-- What is before and after the first occurrence. -/
def splitFirst {A : Type} [DecidableEq A] (needle : List A) : List A → Option (List A × List A)
  | [] => if needle = [] then some ([], []) else none
  | a :: rest =>
    if needle.isPrefixOf (a :: rest) then some ([], (a :: rest).drop needle.length)
    else (splitFirst needle rest).map fun p => (a :: p.1, p.2)

/-- What comes after the first occurrence. -/
def after (needle text : String) : Option String :=
  (splitFirst needle.toList text.toList).map fun p => String.ofList p.2

theorem splitFirst_append {A : Type} [DecidableEq A] (needle rest : List A) :
    splitFirst needle (needle ++ rest) = some ([], rest) := by
  have hprefix : needle.isPrefixOf (needle ++ rest) = true :=
    List.isPrefixOf_iff_prefix.mpr (List.prefix_append needle rest)
  cases htext : needle ++ rest with
  | nil =>
    obtain ⟨rfl, rfl⟩ := List.append_eq_nil_iff.mp htext
    rfl
  | cons a tail =>
    rw [htext] at hprefix
    rw [splitFirst, if_pos hprefix, ← htext, List.drop_left]

theorem after_append (needle rest : String) : after needle (needle ++ rest) = some rest := by
  rw [after, String.toList_append, splitFirst_append, Option.map_some, String.ofList_toList]

theorem after_empty {needle : String} (h : needle ≠ "") : after needle "" = none := by
  have hneedle : needle.toList ≠ [] := fun hnil => h (String.toList_eq_nil_iff.mp hnil)
  rw [after, String.toList_empty, splitFirst, if_neg hneedle, Option.map_none]

end Occurrence
end PocArchitecture
