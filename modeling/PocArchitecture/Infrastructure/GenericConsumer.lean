/-
`KafkaGenericConsumer`: messages wait in a queue, and a commit names none of them.

The group emits messages at its own pace.  A queue with one worker gives them to the
handler one by one, and after each of them the worker calls `commit` of the group, which
covers what the group has emitted and not what the worker has got to.  Messages are
numbered in the order in which they are emitted.
-/
import PocArchitecture.Lib.Json
import PocArchitecture.Lib.Machine
import PocArchitecture.Lib.Timeline
import Mathlib.Data.List.Range

namespace PocArchitecture
namespace Infrastructure

namespace KafkaGenericConsumer

/-- A message as the group emits it. -/
structure Message where
  topic : String
  partition : Nat
  offset : Nat
  value : Option String

/-- The option the worker reads, and `JSON.parse` of a text, which throws where it is
`none`. -/
structure Setup where
  autoCommit : Option Bool
  parse : String → Option Json

/-- What waits in the queue. -/
structure Task where
  number : Nat
  message : Message

inductive Action where
  | message (message : Message)
  | handle (number : Nat) (domainMessage : Json)
  | settled (number : Nat) (resolves : Bool)
  | unread (number : Nat)
  | commit (number : Nat)
  | committed (number : Nat)

namespace Action

@[simp] def emits : Action → Option Message
  | message m => some m
  | _ => none

/-- The `try` block of a message is over: its handler has settled, or its value is no JSON
text and there is nothing to hand over. -/
@[simp] def ends : Action → Option Nat
  | settled n _ => some n
  | unread n => some n
  | _ => none

end Action

/-- What the worker waits for: a task, the handler, the commit, or the queue to take its
end into account. -/
inductive Worker where
  | idle
  | handling (number : Nat)
  | committing (number : Nat)
  | done

/-- The message whose handler is running. -/
@[simp] def Worker.current : Worker → List Nat
  | handling n => [n]
  | _ => []

inductive Event where
  | message (message : Message)
  | process
  | settled (resolves : Bool)
  | committed (err : Bool)
  | callback

end KafkaGenericConsumer

structure KafkaGenericConsumer where
  emitted : List KafkaGenericConsumer.Message
  syncQueue : List KafkaGenericConsumer.Task
  worker : KafkaGenericConsumer.Worker
  timeline : List KafkaGenericConsumer.Action

namespace KafkaGenericConsumer

variable (S : Setup)

def start : KafkaGenericConsumer :=
  { emitted := [], syncQueue := [], worker := .idle, timeline := [] }

/-- `JSON.parse(message.message.value)`, which reads null as the text `null`. -/
def domainMessage (message : Message) : Option Json :=
  match message.value with
  | none => some .null
  | some text => S.parse text

/-- The `finally` of message `n`. -/
def afterTry (s : KafkaGenericConsumer) (n : Nat) : KafkaGenericConsumer :=
  if S.autoCommit = some false then
    { s with worker := .committing n, timeline := s.timeline ++ [.commit n] }
  else { s with worker := .done }

/-- The queue gives its next task to an idle worker. -/
def process (s : KafkaGenericConsumer) : KafkaGenericConsumer :=
  match s.worker, s.syncQueue with
  | .idle, task :: tasks =>
    match domainMessage S task.message with
    | some j =>
      { s with
        syncQueue := tasks, worker := .handling task.number
        timeline := s.timeline ++ [.handle task.number j] }
    | none =>
      afterTry S { s with syncQueue := tasks, timeline := s.timeline ++ [.unread task.number] }
        task.number
  | _, _ => s

/-- What settles without being waited for changes nothing. -/
def step (s : KafkaGenericConsumer) : Event → KafkaGenericConsumer
  | .message message =>
    { s with
      emitted := s.emitted ++ [message]
      syncQueue := s.syncQueue ++ [⟨s.emitted.length, message⟩]
      timeline := s.timeline ++ [.message message] }
  | .process => process S s
  | .settled resolves =>
    match s.worker with
    | .handling n => afterTry S { s with timeline := s.timeline ++ [.settled n resolves] } n
    | _ => s
  | .committed err =>
    match s.worker with
    -- `resolve` after `reject` is too late
    | .committing n =>
      { s with worker := .done, timeline := s.timeline ++ if err then [] else [.committed n] }
    | _ => s
  | .callback =>
    match s.worker with
    | .done => process S { s with worker := .idle }
    | _ => s

/-! ## What a commit covers -/

/-- The offset that `commit()` gives to a partition: the one after the last message emitted
of it. -/
def commitOffset (emitted : List Message) (topic : String) (partition : Nat) : Option Nat :=
  (emitted.reverse.find? fun m => m.topic = topic ∧ m.partition = partition).map (·.offset + 1)

def Covers (emitted : List Message) (message : Message) : Prop :=
  ∃ offset, commitOffset emitted message.topic message.partition = some offset ∧
    message.offset < offset

/-- When `commit` is called, all it covers has been dealt with. -/
def OnlyHandled (past : List Action) : Action → Prop
  | .commit _ =>
    ∀ n message, (past.filterMap Action.emits)[n]? = some message →
      Covers (past.filterMap Action.emits) message → n ∈ past.filterMap Action.ends
  | _ => True

/-- A task that is no JSON text is committed at once, and others wait behind it. -/
def UnreadAhead (tasks : List Task) : Prop :=
  ∃ task rest, tasks = task :: rest ∧ domainMessage S task.message = none ∧ rest ≠ []

/-- This event makes the worker call `commit` while a message waits. -/
def CommitsAhead (s : KafkaGenericConsumer) (e : Event) : Prop :=
  S.autoCommit = some false ∧
    match e with
    | .settled _ => (∃ n, s.worker = .handling n) ∧ s.syncQueue ≠ []
    | .process => s.worker = .idle ∧ UnreadAhead S s.syncQueue
    | .callback => s.worker = .done ∧ UnreadAhead S s.syncQueue
    | _ => False

/-- The last message is covered whatever the order of the offsets. -/
theorem covers_last (emitted : List Message) (message : Message) :
    Covers (emitted ++ [message]) message := by
  refine ⟨message.offset + 1, ?_, Nat.lt_succ_self _⟩
  rw [commitOffset, List.reverse_append, List.reverse_singleton, List.singleton_append,
    List.find?_cons_of_pos (by simp)]
  rfl

/-- Where the numbers of the messages are: dealt with, at the handler, in the queue. -/
structure Inv (s : KafkaGenericConsumer) : Prop where
  emitted_eq : s.timeline.filterMap Action.emits = s.emitted
  numbers : s.timeline.filterMap Action.ends ++ (s.worker.current ++ s.syncQueue.map Task.number) =
    List.range s.emitted.length

theorem inv_start : Inv start := ⟨rfl, rfl⟩

section

variable {S} {s : KafkaGenericConsumer}

/-- With no handler running, a commit covers the messages dealt with when no other waits,
and the last of those that wait otherwise. -/
theorem onlyHandled_commit (h : Inv s) (hcurrent : s.worker.current = []) (n : Nat) :
    OnlyHandled s.timeline (.commit n) ↔ s.syncQueue = [] := by
  have hnumbers := h.numbers
  rw [hcurrent, List.nil_append] at hnumbers
  rw [OnlyHandled, h.emitted_eq]
  constructor
  · intro hall
    rcases List.eq_nil_or_concat' s.syncQueue with hnil | ⟨tasks, last, hlast⟩
    · exact hnil
    · exfalso
      rcases List.eq_nil_or_concat' s.emitted with hemitted | ⟨msgs, msg, hmsgs⟩
      · rw [hemitted, hlast] at hnumbers
        simp at hnumbers
      · rw [hlast, hmsgs, List.length_append, List.length_singleton, List.range_succ,
          List.map_append, ← List.append_assoc] at hnumbers
        obtain ⟨hrest, -⟩ := List.append_inj' hnumbers rfl
        have hmem := hall msgs.length msg (by rw [hmsgs, List.getElem?_concat_length])
          (by rw [hmsgs]; exact covers_last msgs msg)
        have hrange : msgs.length ∈ List.range msgs.length := by
          rw [← hrest]
          exact List.mem_append_left _ hmem
        exact Nat.lt_irrefl _ (List.mem_range.mp hrange)
  · intro hnil k message hk _
    rw [hnil, List.map_nil, List.append_nil] at hnumbers
    rw [hnumbers, List.mem_range]
    exact (List.getElem?_eq_some_iff.mp hk).1

/-- An action that is no commit, and is not the first to tell of a message, changes no
judgement. -/
theorem each_append_other {t : List Action} {a : Action} (ha : ∀ past, OnlyHandled past a) :
    Timeline.Each OnlyHandled (t ++ [a]) ↔ Timeline.Each OnlyHandled t := by
  rw [Timeline.each_append_one]
  exact and_iff_left (ha t)

theorem Inv.afterTry (h : Inv s) (hcurrent : s.worker.current = []) (n : Nat) :
    Inv (afterTry S s n) ∧
      (Timeline.Each OnlyHandled (afterTry S s n).timeline ↔
        Timeline.Each OnlyHandled s.timeline ∧
          ¬ (S.autoCommit = some false ∧ s.syncQueue ≠ [])) := by
  have hnumbers := h.numbers
  rw [hcurrent] at hnumbers
  rw [KafkaGenericConsumer.afterTry]
  by_cases hauto : S.autoCommit = some false
  · rw [if_pos hauto]
    refine ⟨⟨?_, ?_⟩, ?_⟩
    · simp [h.emitted_eq, List.filterMap_cons]
    · simpa [List.filterMap_cons] using hnumbers
    · show Timeline.Each OnlyHandled (s.timeline ++ [.commit n]) ↔ _
      rw [Timeline.each_append_one, onlyHandled_commit h hcurrent n]
      simp [hauto]
  · rw [if_neg hauto]
    exact ⟨⟨h.emitted_eq, hnumbers⟩, by simp [hauto]⟩

/-- What the queue does with an idle worker. -/
theorem Inv.process (h : Inv s) :
    Inv (process S s) ∧
      (Timeline.Each OnlyHandled (process S s).timeline ↔
        Timeline.Each OnlyHandled s.timeline ∧
          ¬ (S.autoCommit = some false ∧ s.worker = .idle ∧ UnreadAhead S s.syncQueue)) := by
  have hnumbers := h.numbers
  rw [KafkaGenericConsumer.process]
  split
  · rename_i task tasks hworker hqueue
    rw [hworker, hqueue] at hnumbers
    cases hmessage : domainMessage S task.message with
    | some j =>
      refine ⟨⟨?_, ?_⟩, ?_⟩
      · simp [h.emitted_eq, List.filterMap_cons]
      · simpa [List.filterMap_cons] using hnumbers
      · rw [each_append_other (a := .handle task.number j) fun _ => trivial]
        refine (and_iff_left ?_).symm
        rintro ⟨-, -, first, rest, hfirst, hnone, -⟩
        rw [hqueue] at hfirst
        rw [← (List.cons.inj hfirst).1, hmessage] at hnone
        cases hnone
    | none =>
      have hinv : Inv { s with
          syncQueue := tasks, timeline := s.timeline ++ [.unread task.number] } :=
        ⟨by simp [h.emitted_eq], by simpa [hworker] using hnumbers⟩
      obtain ⟨hkeep, heach⟩ := Inv.afterTry (S := S) hinv (by rw [hworker]; rfl) task.number
      refine ⟨hkeep, heach.trans ?_⟩
      rw [each_append_other (a := .unread task.number) fun _ => trivial, hworker, hqueue,
        UnreadAhead]
      simp [hmessage]
  · rename_i hnone
    refine ⟨h, (and_iff_left ?_).symm⟩
    rintro ⟨-, hworker, task, tasks, hqueue, -⟩
    exact hnone task tasks hworker hqueue

/-- After the event it is known where the messages are, and the commits are good if they were
and this event does not commit ahead. -/
def GoodStep (S : Setup) (s : KafkaGenericConsumer) (e : Event) : Prop :=
  Inv (step S s e) ∧
    (Timeline.Each OnlyHandled (step S s e).timeline ↔
      Timeline.Each OnlyHandled s.timeline ∧ ¬ CommitsAhead S s e)

/-- A step that changes nothing. -/
theorem Inv.still (h : Inv s) {e : Event} (hstep : step S s e = s) (hnot : ¬ CommitsAhead S s e) :
    GoodStep S s e := by
  rw [GoodStep, hstep]
  exact ⟨h, (and_iff_left hnot).symm⟩

/-- The new message has the last number and waits behind all others. -/
theorem Inv.message (h : Inv s) (message : Message) : GoodStep S s (.message message) := by
  refine ⟨⟨?_, ?_⟩, ?_⟩
  · simp [step, h.emitted_eq]
  · have hnumbers := h.numbers
    simp only [step, List.filterMap_append, List.map_append, List.length_append,
      List.length_singleton, List.range_succ, ← hnumbers]
    simp
  · show Timeline.Each OnlyHandled (s.timeline ++ [.message message]) ↔ _
    rw [each_append_other (a := .message message) fun _ => trivial]
    exact (and_iff_left fun hahead => hahead.2).symm

/-- The handler settles, and the worker goes on to its `finally`. -/
theorem Inv.settled (h : Inv s) {n : Nat} (hworker : s.worker = .handling n) (resolves : Bool) :
    GoodStep S s (.settled resolves) := by
  have hnumbers := h.numbers
  rw [hworker] at hnumbers
  have hinv : Inv { s with worker := .done, timeline := s.timeline ++ [.settled n resolves] } :=
    ⟨by simp [h.emitted_eq], by simpa using hnumbers⟩
  obtain ⟨hkeep, heach⟩ := Inv.afterTry (S := S) hinv rfl n
  have hstep : step S s (.settled resolves) =
      KafkaGenericConsumer.afterTry S
        { s with worker := .done, timeline := s.timeline ++ [.settled n resolves] } n := by
    rw [step, hworker]
    simp only [KafkaGenericConsumer.afterTry]
  rw [GoodStep, hstep]
  refine ⟨hkeep, heach.trans ?_⟩
  rw [each_append_other (a := .settled n resolves) fun _ => trivial, CommitsAhead]
  simp [hworker]

/-- The callback of `commit`. -/
theorem Inv.committed (h : Inv s) {n : Nat} (hworker : s.worker = .committing n) (err : Bool) :
    GoodStep S s (.committed err) := by
  have hnot : ¬ CommitsAhead S s (.committed err) := fun hahead => hahead.2
  have hnumbers := h.numbers
  rw [hworker] at hnumbers
  rw [GoodStep, step, hworker]
  cases err with
  | true =>
    refine ⟨⟨?_, ?_⟩, ?_⟩
    · simp [h.emitted_eq]
    · simpa using hnumbers
    · simp [hnot]
  | false =>
    refine ⟨⟨?_, ?_⟩, ?_⟩
    · simp [h.emitted_eq, List.filterMap_cons]
    · simpa [List.filterMap_cons] using hnumbers
    · show Timeline.Each OnlyHandled (s.timeline ++ [.committed n]) ↔ _
      rw [each_append_other (a := .committed n) fun _ => trivial]
      exact (and_iff_left hnot).symm

theorem Inv.step (h : Inv s) (e : Event) : GoodStep S s e := by
  cases e with
  | message message => exact h.message message
  | process => exact h.process
  | settled resolves =>
    cases hworker : s.worker with
    | handling n => exact h.settled hworker resolves
    | idle | committing n | done =>
      refine h.still (by rw [KafkaGenericConsumer.step, hworker]) ?_
      rintro ⟨-, ⟨n, hn⟩, -⟩
      rw [hworker] at hn
      cases hn
  | committed err =>
    cases hworker : s.worker with
    | committing n => exact h.committed hworker err
    | idle | handling n | done =>
      exact h.still (by rw [KafkaGenericConsumer.step, hworker]) fun hahead => hahead.2
  | callback =>
    cases hworker : s.worker with
    | done =>
      have hnumbers := h.numbers
      rw [hworker] at hnumbers
      have hinv : Inv { s with worker := .idle } := ⟨h.emitted_eq, hnumbers⟩
      obtain ⟨hkeep, heach⟩ := hinv.process (S := S)
      rw [GoodStep, KafkaGenericConsumer.step, hworker]
      refine ⟨hkeep, heach.trans ?_⟩
      rw [CommitsAhead]
      simp [hworker]
    | idle | handling n | committing n =>
      refine h.still (by rw [KafkaGenericConsumer.step, hworker]) ?_
      rintro ⟨-, hdone, -⟩
      rw [hworker] at hdone
      cases hdone

end

/-- In every run, whatever the pace of the messages, the handlers and the commits: a commit
covers nothing but what has been dealt with exactly if it is never called while a message
waits in the queue. -/
theorem commits_only_handled_iff (S : Setup) (es : List Event) :
    Timeline.Each OnlyHandled (Machine.run (step S) start es).timeline ↔
      Machine.Along (step S) (fun s e => ¬ CommitsAhead S s e) start es := by
  have hrun := Machine.run_iff_along (I := Inv)
    (Q := fun s => Timeline.Each OnlyHandled s.timeline) (fun s e h => (h.step (S := S) e).1)
    (fun s e h => (h.step e).2) inv_start es
  exact hrun.trans (and_iff_right (Timeline.each_nil OnlyHandled))

/-! ## Two messages at once -/

def sampleSetup : Setup := { autoCommit := some false, parse := fun _ => some (.object []) }

def sampleMessage (offset : Nat) : Message :=
  { topic := "TransfersCommands", partition := 0, offset := offset, value := some "\x7b\x7d" }

/-- Two messages arrive together; the commit after the first covers both. -/
theorem waiting_message_committed :
    ¬ Timeline.Each OnlyHandled (Machine.run (step sampleSetup) start
      [.message (sampleMessage 0), .message (sampleMessage 1), .process,
        .settled true]).timeline := by
  intro h
  have hcommit := h [.message (sampleMessage 0), .message (sampleMessage 1),
    .handle 0 (.object []), .settled 0 true] (.commit 0) [] rfl
  have hsecond : 1 ∈ [0] := hcommit 1 (sampleMessage 1) rfl (covers_last [sampleMessage 0] _)
  simp at hsecond

end KafkaGenericConsumer

end Infrastructure
end PocArchitecture
