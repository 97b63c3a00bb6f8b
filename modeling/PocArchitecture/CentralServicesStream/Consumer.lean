/-
`Consumer` of `central-services-stream` in sync recursive mode.

`_consumeRecursive` asks for a batch and puts it on a queue with one worker.  The worker
gives the batch to the callback of the application and waits for its promise; then, resolved
or rejected, it asks for the next batch.  An error or an empty batch is asked again after a
timeout.  What the application does with a batch is a list of actions here, taken one by
one, and the results of the `consume` calls are a sequence.
-/
import PocArchitecture.Lib.Machine
import PocArchitecture.Lib.Timeline
import Mathlib.Data.List.Basic

namespace PocArchitecture
namespace CentralServicesStream

/-- The arguments of the callback of `consume(batchSize, ..)`. -/
inductive Result (M : Type) where
  | error
  | messages (messages : List M)

/-- A message without a value cannot be parsed.  `work` is what `workDoneCb` does with a
batch until its promise settles. -/
structure Setup (M A : Type) where
  hasValue : M → Bool
  work : List M → List A

inductive Entry (M A : Type) where
  | given (messages : List M)
  | did (action : A)

/-- `worker` is what is left to do of the batch it has. -/
structure Consumer (M A : Type) where
  running : Bool
  consuming : Nat
  timers : Nat
  answered : Nat
  syncQueue : List (List M)
  worker : Option (List A)
  timeline : List (Entry M A)

inductive Event where
  | consumed
  | timeout
  | process
  | turn
  | disconnect

variable {M A : Type}

namespace Result

def batch : Result M → List M
  | error => []
  | messages msgs => msgs

end Result

namespace Consumer

/-- After `consume(workDoneCb)`. -/
def start : Consumer M A :=
  { running := true, consuming := 1, timers := 0, answered := 0, syncQueue := [], worker := none
    timeline := [] }

section

variable (S : Setup M A) (results : Nat → Result M)

def process (s : Consumer M A) : Consumer M A :=
  match s.worker, s.syncQueue with
  | none, msgs :: waiting => { s with worker := some (S.work msgs), syncQueue := waiting }
  | _, _ => s

/-- The callback of `consume`, with the next result. -/
def onConsumed (s : Consumer M A) : Consumer M A :=
  match (results s.answered).batch with
  | [] =>
    { s with answered := s.answered + 1, timers := s.timers + if s.running then 1 else 0 }
  | msg :: msgs =>
    if (msg :: msgs).all S.hasValue then
      { s with
        answered := s.answered + 1
        syncQueue := s.syncQueue ++ [msg :: msgs]
        timeline := s.timeline ++ [.given (msg :: msgs)] }
    -- nobody catches what is thrown in the callback
    else s

def step (s : Consumer M A) : Event → Consumer M A
  | .consumed =>
    if 0 < s.consuming then onConsumed S results { s with consuming := s.consuming - 1 } else s
  | .timeout =>
    if 0 < s.timers then { s with timers := s.timers - 1, consuming := s.consuming + 1 } else s
  | .process => process S s
  | .turn =>
    match s.worker with
    | none => s
    | some (a :: actions) =>
      { s with worker := some actions, timeline := s.timeline ++ [.did a] }
    -- the promise has settled: `callbackDone`, and then the event 'recursive'
    | some [] =>
      process S { s with worker := none, consuming := s.consuming + if s.running then 1 else 0 }
  | .disconnect => { s with running := false }

/-! ## Batch after batch -/

/-- All that happens to one result. -/
def handled (result : Result M) : List (Entry M A) :=
  match result.batch with
  | [] => []
  | msg :: msgs => .given (msg :: msgs) :: (S.work (msg :: msgs)).map .did

/-- All that happens to the first `k` results. -/
def whole : Nat → List (Entry M A)
  | 0 => []
  | k + 1 => whole k ++ handled S (results k)

/-- The callback of `consume` gets through the batch. -/
def Readable (result : Result M) : Prop := result.batch.all S.hasValue = true

/-- What is left to do of the batches given. -/
def todo (s : Consumer M A) : List (Entry M A) :=
  (s.worker.getD []).map .did ++ s.syncQueue.flatMap fun msgs => (S.work msgs).map .did

/-- One thing at a time is under way, and it belongs to the last result. -/
structure Inv (s : Consumer M A) : Prop where
  one : s.consuming + s.timers + s.syncQueue.length + s.worker.toList.length ≤ 1
  readable : ∀ i < s.answered, Readable S (results i)
  todo_eq : s.timeline ++ todo S s = whole S results s.answered

end

variable {S : Setup M A} {results : Nat → Result M} {s : Consumer M A}

theorem inv_start : Inv S results start where
  one := Nat.le_refl 1
  readable i hi := absurd hi (Nat.not_lt_zero i)
  todo_eq := rfl

theorem Inv.process (h : Inv S results s) : Inv S results (process S s) := by
  rw [Consumer.process]
  split
  · rename_i msgs waiting hworker hqueue
    have hone := h.one
    have htodo := h.todo_eq
    rw [hworker, hqueue] at hone
    rw [todo, hworker, hqueue] at htodo
    refine ⟨?_, h.readable, by simpa [todo] using htodo⟩
    simp only [Option.toList_none, Option.toList_some, List.length_nil, List.length_cons] at hone ⊢
    omega
  · exact h

theorem Inv.onConsumed (h : Inv S results s) (hpos : 0 < s.consuming) :
    Inv S results (onConsumed S results { s with consuming := s.consuming - 1 }) := by
  have hone := h.one
  have hqueue : s.syncQueue = [] := List.eq_nil_of_length_eq_zero (by omega)
  have hworker : s.worker = none := Option.toList_eq_nil_iff.mp
    (List.eq_nil_of_length_eq_zero (by omega))
  have htodo := h.todo_eq
  rw [todo, hqueue, hworker] at htodo
  simp at htodo
  rw [Consumer.onConsumed]
  cases hbatch : (results s.answered).batch with
  | nil =>
    refine ⟨?_, ?_, ?_⟩
    · dsimp only
      split <;> omega
    · intro i hi
      rcases Nat.lt_succ_iff_lt_or_eq.mp hi with hi | rfl
      · exact h.readable i hi
      · rw [Readable, hbatch]
        rfl
    · simp [todo, hqueue, hworker, whole, handled, hbatch, htodo]
  | cons msg msgs =>
    dsimp only
    split
    · rename_i hall
      refine ⟨?_, ?_, ?_⟩
      · simp [hqueue, hworker]
        omega
      · intro i hi
        rcases Nat.lt_succ_iff_lt_or_eq.mp hi with hi | rfl
        · exact h.readable i hi
        · rw [Readable, hbatch]
          exact hall
      · simp [todo, hqueue, hworker, whole, handled, hbatch, htodo]
    · refine ⟨?_, h.readable, ?_⟩
      · dsimp only
        omega
      · simp [todo, hqueue, hworker, htodo]

theorem Inv.step (h : Inv S results s) (e : Event) : Inv S results (step S results s e) := by
  cases e with
  | consumed =>
    rw [Consumer.step]
    split
    · rename_i hpos
      exact h.onConsumed hpos
    · exact h
  | timeout =>
    rw [Consumer.step]
    split
    · refine ⟨?_, h.readable, h.todo_eq⟩
      have hone := h.one
      dsimp only
      omega
    · exact h
  | process => exact h.process
  | turn =>
    have hone := h.one
    have htodo := h.todo_eq
    rw [Consumer.step]
    split
    · exact h
    · rename_i a actions hworker
      rw [hworker] at hone
      rw [todo, hworker] at htodo
      exact ⟨hone, h.readable, by simpa [todo] using htodo⟩
    · rename_i hworker
      rw [hworker] at hone
      rw [todo, hworker] at htodo
      refine Inv.process ⟨?_, h.readable, by simpa [todo] using htodo⟩
      simp only [Option.toList_none, Option.toList_some, List.length_nil, List.length_cons]
        at hone ⊢
      split <;> omega
  | disconnect => exact ⟨h.one, h.readable, h.todo_eq⟩

theorem given_mem_handled {result : Result M} {msgs : List M} (h : .given msgs ∈ handled S result) :
    result.batch = msgs := by
  rw [handled] at h
  cases hbatch : result.batch with
  | nil => simp [hbatch] at h
  | cons msg rest =>
    simp [hbatch] at h
    exact h.symm

theorem did_mem_handled {result : Result M} {a : A} (h : .did a ∈ handled S result) :
    a ∈ S.work result.batch := by
  rw [handled] at h
  cases hbatch : result.batch with
  | nil => simp [hbatch] at h
  | cons msg rest => simpa [hbatch] using h

/-- A batch with a message in it is given and worked on. -/
theorem handled_eq {result : Result M} {msg : M} (h : msg ∈ result.batch) :
    handled S result = .given result.batch :: (S.work result.batch).map .did := by
  rw [handled]
  cases hbatch : result.batch with
  | nil =>
    rw [hbatch] at h
    exact absurd h List.not_mem_nil
  | cons msg rest => rfl

theorem mem_whole {k : Nat} {x : Entry M A} :
    x ∈ whole S results k ↔ ∃ i < k, x ∈ handled S (results i) := by
  induction k with
  | zero => simp [whole]
  | succ k ih =>
    rw [whole, List.mem_append, ih]
    constructor
    · rintro (⟨i, hi, hx⟩ | hx)
      · exact ⟨i, Nat.lt_succ_of_lt hi, hx⟩
      · exact ⟨k, Nat.lt_succ_self k, hx⟩
    · rintro ⟨i, hi, hx⟩
      rcases Nat.lt_succ_iff_lt_or_eq.mp hi with hi | rfl
      · exact Or.inl ⟨i, hi, hx⟩
      · exact Or.inr hx

/-! ## Every batch is got through -/

/-- Between two batches. -/
def ready (S : Setup M A) (results : Nat → Result M) (k : Nat) : Consumer M A :=
  { running := true, consuming := 1, timers := 0, answered := k, syncQueue := [], worker := none
    timeline := whole S results k }

theorem run_turns (results : Nat → Result M) (s : Consumer M A) (actions : List A) :
    Machine.run (step S results) { s with worker := some actions }
        (List.replicate actions.length .turn) =
      { s with worker := some [], timeline := s.timeline ++ actions.map .did } := by
  induction actions generalizing s with
  | nil => simp [Machine.run]
  | cons a actions ih =>
    have h := ih { s with timeline := s.timeline ++ [.did a] }
    simp only [List.append_assoc] at h
    exact h

/-- The next batch, with as many turns as it takes. -/
theorem ready_succ (k : Nat) (hread : Readable S (results k)) :
    ∃ es, Machine.run (step S results) (ready S results k) es = ready S results (k + 1) := by
  cases hbatch : (results k).batch with
  | nil =>
    refine ⟨[.consumed, .timeout], ?_⟩
    show step S results (step S results (ready S results k) .consumed) .timeout = _
    simp [ready, step, onConsumed, whole, handled, hbatch]
  | cons msg msgs =>
    rw [Readable, hbatch] at hread
    have hgiven : step S results (step S results (ready S results k) .consumed) .process =
        { running := true, consuming := 0, timers := 0, answered := k + 1, syncQueue := []
          worker := some (S.work (msg :: msgs))
          timeline := whole S results k ++ [.given (msg :: msgs)] } := by
      simp only [ready, step, onConsumed, hbatch, process]
      simp [hread]
    refine ⟨.consumed :: .process ::
      (List.replicate (S.work (msg :: msgs)).length .turn ++ [.turn]), ?_⟩
    show Machine.run (step S results)
      (step S results (step S results (ready S results k) .consumed) .process) _ = _
    rw [hgiven, Machine.run_append]
    have hturns := run_turns (S := S) results
      { running := true, consuming := 0, timers := 0, answered := k + 1, syncQueue := []
        worker := none, timeline := whole S results k ++ [.given (msg :: msgs)] }
      (S.work (msg :: msgs))
    dsimp only at hturns
    rw [hturns, Machine.run, List.foldl_cons, List.foldl_nil]
    simp [step, process, ready, whole, handled, hbatch]

theorem exists_run_ready (k : Nat) (hread : ∀ i < k, Readable S (results i)) :
    ∃ es, Machine.run (step S results) start es = ready S results k := by
  induction k with
  | zero => exact ⟨[], rfl⟩
  | succ k ih =>
    obtain ⟨es, hes⟩ := ih fun i hi => hread i (Nat.lt_succ_of_lt hi)
    obtain ⟨es', hes'⟩ := ready_succ k (hread k (Nat.lt_succ_self k))
    exact ⟨es ++ es', by rw [Machine.run_append, hes, hes']⟩

/-- What is asked of every action is right in all runs exactly if it is right batch after
batch, as far as the batches can be read. -/
theorem each_iff {Q : List (Entry M A) → Entry M A → Prop} :
    (∀ es, Timeline.Each Q (Machine.run (step S results) start es).timeline) ↔
      ∀ k, (∀ i < k, Readable S (results i)) → Timeline.Each Q (whole S results k) := by
  constructor
  · intro h k hread
    obtain ⟨es, hes⟩ := exists_run_ready k hread
    have heach := h es
    rw [hes] at heach
    exact heach
  · intro h es
    have hinv : Inv S results (Machine.run (step S results) start es) :=
      Machine.run_always (fun _ e hs => hs.step e) inv_start es
    have heach := h _ hinv.readable
    rw [← hinv.todo_eq] at heach
    exact heach.left

end Consumer

end CentralServicesStream
end PocArchitecture
