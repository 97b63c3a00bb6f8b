/-
Labelled machines and their runs.

A machine is a step function on states.  Nondeterminism sits in the labels: which
message is delivered, which call fails, which process acts.  `run` folds the step
function over a list of labels, so a property of every run is a property of every
list.  `Along` says that a condition on the state and the label holds at each step
of a run, which is the shape of a hypothesis about an environment.
-/
import Mathlib.Logic.Basic

namespace PocArchitecture
namespace Machine

variable {S T L M : Type}

/-- The state a run ends in. -/
def run (step : S → L → S) (s : S) (ls : List L) : S := ls.foldl step s

theorem run_append (step : S → L → S) (s : S) (ls ms : List L) :
    run step s (ls ++ ms) = run step (run step s ls) ms :=
  List.foldl_append

/-- `P` holds of the state and the label at every step of the run. -/
def Along (step : S → L → S) (P : S → L → Prop) : S → List L → Prop
  | _, [] => True
  | s, l :: ls => P s l ∧ Along step P (step s l) ls

instance decidableAlong (step : S → L → S) (P : S → L → Prop) [∀ s l, Decidable (P s l)] :
    ∀ (s : S) (ls : List L), Decidable (Along step P s ls)
  | _, [] => isTrue trivial
  | s, l :: ls =>
    have := decidableAlong step P (step s l) ls
    inferInstanceAs (Decidable (P s l ∧ Along step P (step s l) ls))

theorem along_append_one {step : S → L → S} {P : S → L → Prop} {s : S} {ls : List L} {l : L} :
    Along step P s (ls ++ [l]) ↔ Along step P s ls ∧ P (run step s ls) l := by
  induction ls generalizing s with
  | nil => exact ⟨fun h => ⟨trivial, h.1⟩, fun h => ⟨h.2, trivial⟩⟩
  | cons m ls ih =>
    rw [List.cons_append, Along, ih, Along, and_assoc]
    rfl

theorem along_of_forall {step : S → L → S} {P : S → L → Prop} {Q : L → Prop}
    (h : ∀ s l, Q l → P s l) : ∀ (s : S) {ls : List L}, (∀ l ∈ ls, Q l) →
      Along step P s ls
  | _, [], _ => trivial
  | s, l :: _, hls =>
    ⟨h s l (hls l List.mem_cons_self),
      along_of_forall h (step s l) fun m hm => hls m (List.mem_cons_of_mem l hm)⟩

/-- What holds at the start and is kept by each step that meets the condition holds
at the end of every run whose steps all meet it. -/
theorem run_invariant {step : S → L → S} {P : S → L → Prop} {I : S → Prop}
    (hstep : ∀ s l, I s → P s l → I (step s l)) {s : S} (hs : I s) {ls : List L}
    (h : Along step P s ls) : I (run step s ls) := by
  induction ls generalizing s with
  | nil => exact hs
  | cons l ls ih => exact ih (hstep s l hs h.1) h.2

/-- What the invariant and the condition give at a step holds along the run. -/
theorem along_of_invariant {step : S → L → S} {P Q : S → L → Prop} {I : S → Prop}
    (hstep : ∀ s l, I s → P s l → I (step s l)) (hQ : ∀ s l, I s → P s l → Q s l) {s : S}
    (hs : I s) {ls : List L} (h : Along step P s ls) : Along step Q s ls := by
  induction ls generalizing s with
  | nil => trivial
  | cons l ls ih => exact ⟨hQ s l hs h.1, ih (hstep s l hs h.1) h.2⟩

/-- The unconditional case of `run_invariant`. -/
theorem run_always {step : S → L → S} {I : S → Prop}
    (hstep : ∀ s l, I s → I (step s l)) {s : S} (hs : I s) (ls : List L) :
    I (run step s ls) :=
  run_invariant (P := fun _ _ => True) (fun s l h _ => hstep s l h) hs
    (along_of_forall (Q := fun _ => True) (fun _ _ _ => trivial) s fun _ _ => trivial)

/-- A property that each step keeps exactly when it meets the condition is kept by a whole run
exactly when all its steps do. -/
theorem run_iff_along {step : S → L → S} {P : S → L → Prop} {I Q : S → Prop}
    (hI : ∀ s l, I s → I (step s l)) (hQ : ∀ s l, I s → (Q (step s l) ↔ Q s ∧ P s l)) {s : S}
    (hs : I s) (ls : List L) : Q (run step s ls) ↔ Q s ∧ Along step P s ls := by
  induction ls generalizing s with
  | nil => exact (and_iff_left trivial).symm
  | cons l ls ih =>
    show Q (run step (step s l) ls) ↔ _
    rw [ih (hI s l hs), hQ s l hs, Along, and_assoc]

variable {O : Type}

/-- What a machine that answers every label answers along a run. -/
def outputs (step : S → L → S × O) : S → List L → List O
  | _, [] => []
  | s, l :: ls => (step s l).2 :: outputs step (step s l).1 ls

/-- Two answering machines that stay related answer alike exactly where each single answer
is alike. -/
theorem outputs_eq_iff {step : S → L → S × O} {step' : T → L → T × O} {R : S → T → Prop}
    {P : T → L → Prop} (hstep : ∀ s t l, R s t → R (step s l).1 (step' t l).1)
    (hout : ∀ s t l, R s t → ((step s l).2 = (step' t l).2 ↔ P t l)) {s : S} {t : T}
    (hst : R s t) (ls : List L) :
    outputs step s ls = outputs step' t ls ↔ Along (fun t l => (step' t l).1) P t ls := by
  induction ls generalizing s t with
  | nil => exact iff_of_true rfl trivial
  | cons l ls ih =>
    rw [outputs, outputs, List.cons.injEq, hout s t l hst, ih (hstep s t l hst), Along]

/-- Two answering machines that stay related and always answer alike. -/
theorem outputs_eq {step : S → L → S × O} {step' : T → L → T × O} {R : S → T → Prop}
    (hstep : ∀ s t l, R s t → R (step s l).1 (step' t l).1 ∧ (step s l).2 = (step' t l).2)
    {s : S} {t : T} (hst : R s t) (ls : List L) : outputs step s ls = outputs step' t ls := by
  induction ls generalizing s t with
  | nil => rfl
  | cons l ls ih =>
    obtain ⟨hnext, hsame⟩ := hstep s t l hst
    rw [outputs, outputs, hsame, ih hnext]

/-- Two machines that read the same labels and stay related. -/
theorem run_lockstep {step : S → L → S} {step' : T → L → T} {P : S → L → Prop}
    {R : S → T → Prop}
    (hstep : ∀ s t l, R s t → P s l → R (step s l) (step' t l))
    {s : S} {t : T} (hst : R s t) {ls : List L} (h : Along step P s ls) :
    R (run step s ls) (run step' t ls) := by
  induction ls generalizing s t with
  | nil => exact hst
  | cons l ls ih => exact ih (hstep s t l hst h.1) h.2

variable {N : Type}

/-- Each step of a machine is a run of another one, seen through `abs`; then so is each run. -/
theorem exists_run_of_step {step : S → L → S} {step' : T → N → T} {abs : S → T}
    {P : L → Prop} {Q : N → Prop}
    (hstep : ∀ s l, P l → ∃ ns, (∀ n ∈ ns, Q n) ∧ abs (step s l) = run step' (abs s) ns)
    (s : S) {ls : List L} (h : ∀ l ∈ ls, P l) :
    ∃ ns, (∀ n ∈ ns, Q n) ∧ abs (run step s ls) = run step' (abs s) ns := by
  induction ls generalizing s with
  | nil => exact ⟨[], fun n hn => absurd hn List.not_mem_nil, rfl⟩
  | cons l ls ih =>
    obtain ⟨ns, hns, hone⟩ := hstep s l (h l List.mem_cons_self)
    obtain ⟨more, hmore, hrest⟩ := ih (step s l) fun m hm => h m (List.mem_cons_of_mem l hm)
    refine ⟨ns ++ more, fun n hn => ?_, ?_⟩
    · rcases List.mem_append.mp hn with hn | hn
      · exact hns n hn
      · exact hmore n hn
    · show abs (run step (step s l) ls) = _
      rw [hrest, hone, run_append]

end Machine
end PocArchitecture
