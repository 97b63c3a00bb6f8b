/-
Machines that wear themselves out.

Work is paid for in advance: a label brings `grant` in, what is left over is the
`potential` of a state, and each step that works takes one off.  Then no run works more
often than its labels have paid for, whatever the order of its steps.  And where a state
that is not idle always has a step left that takes something off, every state can be run
idle.
-/
import PocArchitecture.Lib.Machine
import Mathlib.Algebra.BigOperators.Group.List.Basic
import Mathlib.Algebra.Ring.Nat

namespace PocArchitecture
namespace Machine

variable {S L : Type}

/-- The number of steps of a run that work. -/
def worked (step : S → L → S) (works : S → L → Bool) : S → List L → Nat
  | _, [] => 0
  | s, l :: ls => (if works s l then 1 else 0) + worked step works (step s l) ls

/-- What was done and what is left is paid for. -/
theorem worked_add_potential_le {step : S → L → S} {works : S → L → Bool} {P : S → L → Prop}
    {I : S → Prop} {potential : S → Nat} {grant : L → Nat}
    (hkeep : ∀ s l, I s → P s l → I (step s l))
    (hpay : ∀ s l, I s → P s l →
      (if works s l then 1 else 0) + potential (step s l) ≤ potential s + grant l)
    {s : S} (hs : I s) {ls : List L} (h : Along step P s ls) :
    worked step works s ls + potential (run step s ls) ≤ potential s + (ls.map grant).sum := by
  induction ls generalizing s with
  | nil =>
    show 0 + potential s ≤ potential s + 0
    omega
  | cons l ls ih =>
    have hl := hpay s l hs h.1
    have hrest := ih (hkeep s l hs h.1) h.2
    show (if works s l then 1 else 0) + worked step works (step s l) ls +
      potential (run step (step s l) ls) ≤ _
    rw [List.map_cons, List.sum_cons]
    omega

theorem worked_le {step : S → L → S} {works : S → L → Bool} {P : S → L → Prop} {I : S → Prop}
    {potential : S → Nat} {grant : L → Nat} (hkeep : ∀ s l, I s → P s l → I (step s l))
    (hpay : ∀ s l, I s → P s l →
      (if works s l then 1 else 0) + potential (step s l) ≤ potential s + grant l)
    {s : S} (hs : I s) {ls : List L} (h : Along step P s ls) :
    worked step works s ls ≤ potential s + (ls.map grant).sum :=
  Nat.le_trans (Nat.le_add_right _ _) (worked_add_potential_le hkeep hpay hs h)

/-- As long as there is a step that takes something off the potential, the machine can be run
until it is idle. -/
theorem exists_idle {step : S → L → S} {I Idle : S → Prop} {P : L → Prop} {potential : S → Nat}
    (h : ∀ s, I s → ¬ Idle s → ∃ l, P l ∧ I (step s l) ∧ potential (step s l) < potential s)
    {s : S} (hs : I s) : ∃ ls, (∀ l ∈ ls, P l) ∧ Idle (run step s ls) := by
  induction hn : potential s using Nat.strongRecOn generalizing s with
  | _ n ih =>
    by_cases hidle : Idle s
    · exact ⟨[], fun l hl => absurd hl List.not_mem_nil, hidle⟩
    · obtain ⟨l, hl, hkeep, hless⟩ := h s hs hidle
      obtain ⟨ls, hls, hend⟩ := ih (potential (step s l)) (hn ▸ hless) hkeep rfl
      exact ⟨l :: ls, List.forall_mem_cons.mpr ⟨hl, hls⟩, hend⟩

/-! ## Weights in a bag -/

variable {M : Type} [DecidableEq M]

theorem sum_erase (weight : M → Nat) {m : M} {msgs : List M} (h : m ∈ msgs) :
    weight m + ((msgs.erase m).map weight).sum = (msgs.map weight).sum := by
  have hperm := ((List.perm_cons_erase h).map weight).sum_eq
  rw [List.map_cons, List.sum_cons] at hperm
  exact hperm.symm

end Machine
end PocArchitecture
