/-
`Consumer.consume` of `central-services-stream` in sync recursive mode, path by path.

The loop is armed at the start and armed again from three places: a timer after an error or
an empty list, and the event 'recursive' after a callback has resolved or rejected.  Between
two of these a batch goes through a queue with one worker.  The last section relates the
loop to `Consumer`, where the work on a batch is a list of actions and the two ways a
promise settles are one.
-/
import PocArchitecture.CentralServicesStream.Consumer
import PocArchitecture.Lib.Json

namespace PocArchitecture
namespace CentralServicesStream

/-- A message, with the fields that are handed through in `rest`. -/
structure Message (M V : Type) where
  rest : M
  value : V

/-- What `parseValue` returns. -/
inductive ParsedValue where
  | text (s : String)
  | json (j : Json)

/-- The options, `value.toString(messageCharset)`, and `JSON.parse` of a text, which throws
where it is `none`. -/
structure Options (B : Type) where
  messageAsJSON : Option Bool
  toText : B → String
  parse : String → Option Json

namespace Protocol

variable {B : Type} (O : Options B)

/-- A text that is no JSON is left as it is. -/
def parseValue (value : B) : ParsedValue :=
  let parsedValue := O.toText value
  if O.messageAsJSON.getD true then
    match O.parse parsedValue with
    | some j => .json j
    | none => .text parsedValue
  else .text parsedValue

end Protocol

namespace ConsumeRecursive

variable {M B : Type}

abbrev RawMessage (M B : Type) := Message M (Option B)

abbrev ParsedMessage (M : Type) := Message M ParsedValue

/-- The messages in the desired format.  A value that is null throws. -/
def parseMessages (O : Options B) : List (RawMessage M B) → Option (List (ParsedMessage M))
  | [] => some []
  | msg :: msgs =>
    match msg.value with
    | none => none
    | some value =>
      (parseMessages O msgs).map (⟨msg.rest, Protocol.parseValue O value⟩ :: ·)

inductive Action (M B : Type) where
  | consume
  | consumed (result : Result (RawMessage M B))
  | retry
  | work (messages : List (ParsedMessage M))
  | settled (resolves : Bool)
  | error
  | resume

inductive Event (M B : Type) where
  | consumed (result : Result (RawMessage M B))
  | timeout
  | process
  | settled (resolves : Bool)
  | disconnect

/-- The messages of the result have values. -/
def HasValues (result : Result (RawMessage M B)) : Prop :=
  ∀ msg ∈ result.batch, msg.value.isSome = true

end ConsumeRecursive

/-- The loop: the `consume` calls and timers under way, the batches in the queue, and the one
the worker has given to the callback. -/
structure ConsumeRecursive (M B : Type) where
  running : Bool
  consuming : Nat
  timers : Nat
  syncQueue : List (List (ConsumeRecursive.ParsedMessage M))
  worker : Option (List (ConsumeRecursive.ParsedMessage M))
  timeline : List (ConsumeRecursive.Action M B)

namespace ConsumeRecursive

variable {M B : Type} (O : Options B)

/-- Do this. -/
def act (s : ConsumeRecursive M B) (a : Action M B) : ConsumeRecursive M B :=
  { s with timeline := s.timeline ++ [a] }

/-- `_consumeRecursive`: ask for a batch. -/
def consumeRecursive (s : ConsumeRecursive M B) : ConsumeRecursive M B :=
  act { s with consuming := s.consuming + 1 } .consume

/-- The listener of 'recursive'. -/
def onRecursive (s : ConsumeRecursive M B) : ConsumeRecursive M B :=
  if s.running then consumeRecursive s else s

/-- The queue gives its next batch to an idle worker. -/
def process (s : ConsumeRecursive M B) : ConsumeRecursive M B :=
  match s.worker, s.syncQueue with
  | none, messages :: waiting =>
    act { s with worker := some messages, syncQueue := waiting } (.work messages)
  | _, _ => s

theorem process_of_syncQueue_nil {s : ConsumeRecursive M B} (h : s.syncQueue = []) :
    process s = s := by
  rw [process, h]
  cases s.worker <;> rfl

/-- The worker is done; the queue drains or goes on. -/
def callbackDone (s : ConsumeRecursive M B) : ConsumeRecursive M B :=
  let s := { s with worker := none }
  process (if s.syncQueue.isEmpty then act s .resume else s)

def setRetry (s : ConsumeRecursive M B) : ConsumeRecursive M B :=
  if s.running then act { s with timers := s.timers + 1 } .retry else s

/-- The callback of `consume`. -/
def onConsumed (s : ConsumeRecursive M B) (result : Result (RawMessage M B)) :
    ConsumeRecursive M B :=
  match result with
  | .error => setRetry (act s .error)
  | .messages [] => setRetry s
  | .messages (msg :: msgs) =>
    match parseMessages O (msg :: msgs) with
    | some messages => { s with syncQueue := s.syncQueue ++ [messages] }
    -- nobody catches what is thrown here
    | none => s

/-- What was not waited for changes nothing. -/
def step (s : ConsumeRecursive M B) : Event M B → ConsumeRecursive M B
  | .consumed result =>
    if 0 < s.consuming then
      onConsumed O (act { s with consuming := s.consuming - 1 } (.consumed result)) result
    else s
  | .timeout =>
    if 0 < s.timers then consumeRecursive { s with timers := s.timers - 1 } else s
  | .process => process s
  | .settled resolves =>
    match s.worker with
    | none => s
    | some _ =>
      let s := act s (.settled resolves)
      if resolves then onRecursive (callbackDone s)
      else onRecursive (callbackDone (act s .error))
  | .disconnect => { s with running := false }

/-- After `consume(workDoneCb)`. -/
def start : ConsumeRecursive M B :=
  consumeRecursive
    { running := true, consuming := 0, timers := 0, syncQueue := [], worker := none
      timeline := [] }

/-! ## Batch after batch -/

namespace Action

@[simp] def works : Action M B → Option (List (ParsedMessage M))
  | work messages => some messages
  | _ => none

@[simp] def settles : Action M B → Option Bool
  | settled resolves => some resolves
  | _ => none

/-- The result that an action has taken. -/
@[simp] def result : Action M B → Option (Result (RawMessage M B))
  | consumed result => some result
  | _ => none

/-- The messages of a result that is a batch. -/
@[simp] def batch (O : Options B) : Action M B → Option (List (ParsedMessage M))
  | consumed (.messages (msg :: msgs)) => parseMessages O (msg :: msgs)
  | _ => none

@[simp] def asks : Action M B → Bool
  | consume => true
  | _ => false

@[simp] def retries : Action M B → Bool
  | retry => true
  | _ => false

end Action

/-- The one thing that is under way: a call, a timer, or a batch, in the queue or at the callback. -/
inductive Phase where
  | asking
  | retrying
  | queued
  | working
  | stopped
  deriving DecidableEq

/-- What happens around a loop that is as it should be: the results that answer one of its calls,
the timers that go off, and how the callback settles. -/
structure Outside (M B : Type) where
  connected : Bool
  phase : Phase
  answered : List (Result (RawMessage M B))
  rung : Nat
  settled : List Bool

namespace Outside

def start : Outside M B :=
  { connected := true, phase := .asking, answered := [], rung := 0, settled := [] }

/-- An error or an empty list is followed by a timer, a batch by the callback, and both by the
next call, until `disconnect`. -/
def next (o : Outside M B) : Event M B → Outside M B
  | .consumed result =>
    if o.phase = .asking then
      { o with
        answered := o.answered ++ [result]
        phase := if result.batch.isEmpty then if o.connected then .retrying else .stopped
          else .queued }
    else o
  | .timeout =>
    if o.phase = .retrying then { o with phase := .asking, rung := o.rung + 1 } else o
  | .process => if o.phase = .queued then { o with phase := .working } else o
  | .settled resolves =>
    if o.phase = .working then
      { o with
        phase := if o.connected then .asking else .stopped
        settled := o.settled ++ [resolves] }
    else o
  | .disconnect => { o with connected := false }

/-- The batches that were consumed, in the desired format. -/
def batches (O : Options B) (o : Outside M B) : List (List (ParsedMessage M)) :=
  o.answered.filterMap fun result => Action.batch O (.consumed result)

end Outside

/-- What happened in these events. -/
def outside (es : List (Event M B)) : Outside M B := Machine.run Outside.next Outside.start es

/-- A batch is asked for when all before it were given to the callback, and the callback has
settled for each of them. -/
def InTurn (past : List (Action M B)) : Action M B → Prop
  | .consume =>
    past.filterMap Action.works = past.filterMap (Action.batch O) ∧
      (past.filterMap Action.settles).length = (past.filterMap Action.works).length
  | _ => True

/-- What is under way: calls, timers, and batches in the queue or at the callback. -/
def underway (s : ConsumeRecursive M B) : Nat :=
  s.consuming + s.timers + (s.syncQueue.length + s.worker.toList.length)

/-- Where the batches are: given to the callback in order, or in the queue. -/
structure Books (s : ConsumeRecursive M B) : Prop where
  order : s.timeline.filterMap Action.works ++ s.syncQueue = s.timeline.filterMap (Action.batch O)
  settles_eq : (s.timeline.filterMap Action.settles).length + s.worker.toList.length =
    (s.timeline.filterMap Action.works).length
  each : Timeline.Each (InTurn O) s.timeline

structure Inv (s : ConsumeRecursive M B) : Prop where
  books : Books O s
  one : underway s ≤ 1

section

variable {O} {s : ConsumeRecursive M B} {a : Action M B}

/-- An action that moves no batch. -/
theorem Books.act (h : Books O s) (hworks : a.works = none) (hsettles : a.settles = none)
    (hbatch : a.batch O = none) (hturn : InTurn O s.timeline a) : Books O (act s a) where
  order := by
    rw [ConsumeRecursive.act, Timeline.filterMap_concat_none hworks,
      Timeline.filterMap_concat_none hbatch]
    exact h.order
  settles_eq := by
    rw [ConsumeRecursive.act, Timeline.filterMap_concat_none hworks,
      Timeline.filterMap_concat_none hsettles]
    exact h.settles_eq
  each := Timeline.each_append_one.mpr ⟨h.each, hturn⟩

/-- With nothing in the queue and nothing at the callback, another batch may be asked for. -/
theorem Books.consumeRecursive (h : Books O s) (hqueue : s.syncQueue = [])
    (hworker : s.worker = none) : Books O (consumeRecursive s) := by
  have horder := h.order
  have hsettles := h.settles_eq
  rw [hqueue, List.append_nil] at horder
  rw [hworker, Option.toList_none, List.length_nil, Nat.add_zero] at hsettles
  have hnext : Books O { s with consuming := s.consuming + 1 } := ⟨h.order, h.settles_eq, h.each⟩
  exact hnext.act rfl rfl rfl ⟨horder, hsettles⟩

theorem Books.onRecursive (h : Books O s) (hqueue : s.syncQueue = []) (hworker : s.worker = none) :
    Books O (onRecursive s) := by
  rw [ConsumeRecursive.onRecursive]
  split
  · exact h.consumeRecursive hqueue hworker
  · exact h

theorem Books.setRetry (h : Books O s) : Books O (setRetry s) := by
  rw [ConsumeRecursive.setRetry]
  split
  · have hnext : Books O { s with timers := s.timers + 1 } := ⟨h.order, h.settles_eq, h.each⟩
    exact hnext.act rfl rfl rfl trivial
  · exact h

theorem Books.process (h : Books O s) : Books O (process s) := by
  rw [ConsumeRecursive.process]
  split
  · rename_i messages waiting hworker hqueue
    have horder := h.order
    have hsettles := h.settles_eq
    rw [hqueue] at horder
    rw [hworker, Option.toList_none, List.length_nil] at hsettles
    refine ⟨?_, ?_, Timeline.each_append_one.mpr ⟨h.each, trivial⟩⟩
    · simp only [ConsumeRecursive.act, Timeline.filterMap_concat, Action.works, Action.batch,
        Option.toList_some, Option.toList_none, List.append_assoc, List.singleton_append,
        List.append_nil]
      exact horder
    · simp only [ConsumeRecursive.act, Timeline.filterMap_concat, Action.works, Action.settles,
        Option.toList_some, Option.toList_none, List.append_nil, List.length_append,
        List.length_singleton]
      omega
  · exact h

/-- The callback has settled for the batch it was given. -/
theorem Books.settled (h : Books O s) {messages : List (ParsedMessage M)}
    (hworker : s.worker = some messages) (resolves : Bool) :
    Books O (ConsumeRecursive.act { s with worker := none } (.settled resolves)) where
  order := by
    simp only [ConsumeRecursive.act, Timeline.filterMap_concat, Action.works, Action.batch,
      Option.toList_none, List.append_nil]
    exact h.order
  settles_eq := by
    have hsettles := h.settles_eq
    rw [hworker, Option.toList_some, List.length_singleton] at hsettles
    simp only [ConsumeRecursive.act, Timeline.filterMap_concat, Action.works, Action.settles,
      Option.toList_some, Option.toList_none, List.append_nil, List.length_append,
      List.length_singleton, List.length_nil]
    exact hsettles
  each := Timeline.each_append_one.mpr ⟨h.each, trivial⟩

/-- A batch that has been consumed goes to the end of the queue. -/
theorem Books.push (h : Books O s) {result : Result (RawMessage M B)}
    {messages : List (ParsedMessage M)}
    (hbatch : (Action.consumed result).batch O = some messages) :
    Books O { ConsumeRecursive.act s (.consumed result) with
      syncQueue := s.syncQueue ++ [messages] } where
  order := by
    simp only [ConsumeRecursive.act, Timeline.filterMap_concat, Action.works, hbatch,
      Option.toList_some, Option.toList_none, List.append_nil]
    rw [← h.order, List.append_assoc]
  settles_eq := by
    simp only [ConsumeRecursive.act, Timeline.filterMap_concat, Action.works, Action.settles,
      Option.toList_none, List.append_nil]
    exact h.settles_eq
  each := Timeline.each_append_one.mpr ⟨h.each, trivial⟩

theorem parseMessages_eq_some : ∀ {msgs : List (RawMessage M B)},
    (∀ msg ∈ msgs, msg.value.isSome = true) → ∃ messages, parseMessages O msgs = some messages
  | [], _ => ⟨[], rfl⟩
  | msg :: msgs, h => by
    obtain ⟨value, hvalue⟩ := Option.isSome_iff_exists.mp (h msg List.mem_cons_self)
    obtain ⟨messages, hmessages⟩ :=
      parseMessages_eq_some fun m hm => h m (List.mem_cons_of_mem msg hm)
    rw [parseMessages, hvalue]
    dsimp only
    rw [hmessages]
    exact ⟨_, rfl⟩

theorem underway_eq_zero (h : underway s = 0) :
    s.consuming = 0 ∧ s.timers = 0 ∧ s.syncQueue = [] ∧ s.worker = none := by
  rw [underway] at h
  refine ⟨by omega, by omega, List.eq_nil_of_length_eq_zero (by omega), ?_⟩
  exact Option.toList_eq_nil_iff.mp (List.eq_nil_of_length_eq_zero (by omega))

/-- With nothing under way the loop is armed once, or has been disconnected. -/
theorem inv_consumeRecursive (hbooks : Books O s) (hnone : underway s = 0) :
    Inv O (consumeRecursive s) := by
  obtain ⟨hconsuming, htimers, hqueue, hworker⟩ := underway_eq_zero hnone
  have hone : underway (consumeRecursive s) = 1 := by
    simp [underway, consumeRecursive, act, hconsuming, htimers, hqueue, hworker]
  exact ⟨hbooks.consumeRecursive hqueue hworker, Nat.le_of_eq hone⟩

theorem inv_onRecursive (hbooks : Books O s) (hnone : underway s = 0) : Inv O (onRecursive s) := by
  rw [onRecursive]
  split
  · exact inv_consumeRecursive hbooks hnone
  · exact ⟨hbooks, Nat.le_of_eq hnone |>.trans (Nat.zero_le 1)⟩

theorem inv_setRetry (hbooks : Books O s) (hnone : underway s = 0) : Inv O (setRetry s) := by
  have hnext := hbooks.setRetry
  rw [setRetry] at hnext ⊢
  split
  · rename_i hrunning
    rw [if_pos hrunning] at hnext
    have hone : underway (act { s with timers := s.timers + 1 } .retry) = 1 := by
      rw [underway] at hnone ⊢
      show s.consuming + (s.timers + 1) + (s.syncQueue.length + s.worker.toList.length) = 1
      omega
    exact ⟨hnext, Nat.le_of_eq hone⟩
  · exact ⟨hbooks, Nat.le_of_eq hnone |>.trans (Nat.zero_le 1)⟩

theorem Inv.consumed (h : Inv O s) (hpos : 0 < s.consuming) {result : Result (RawMessage M B)}
    (hvalues : HasValues result) :
    Inv O (onConsumed O (act { s with consuming := s.consuming - 1 } (.consumed result))
      result) := by
  have hone := h.one
  have hnone : underway { s with consuming := s.consuming - 1 } = 0 := by
    rw [underway] at hone ⊢
    dsimp only
    omega
  have hbooks : Books O { s with consuming := s.consuming - 1 } :=
    ⟨h.books.order, h.books.settles_eq, h.books.each⟩
  cases result with
  | error =>
    exact inv_setRetry ((hbooks.act (a := .consumed .error) rfl rfl rfl trivial).act
      (a := .error) rfl rfl rfl trivial) hnone
  | messages msgs =>
    cases msgs with
    | nil =>
      exact inv_setRetry (hbooks.act (a := .consumed (.messages [])) rfl rfl rfl trivial) hnone
    | cons msg msgs =>
      obtain ⟨messages, hmessages⟩ := parseMessages_eq_some (O := O) hvalues
      change parseMessages O (msg :: msgs) = some messages at hmessages
      have hbatch : (Action.consumed (.messages (msg :: msgs))).batch O = some messages := hmessages
      have hpush := hbooks.push hbatch
      have hunder : underway { act { s with consuming := s.consuming - 1 }
          (.consumed (.messages (msg :: msgs))) with
          syncQueue := s.syncQueue ++ [messages] } = 1 := by
        rw [underway] at hnone ⊢
        show s.consuming - 1 + s.timers +
          ((s.syncQueue ++ [messages]).length + s.worker.toList.length) = 1
        rw [List.length_append, List.length_singleton]
        dsimp only at hnone
        omega
      rw [onConsumed, hmessages]
      exact ⟨hpush, Nat.le_of_eq hunder⟩

theorem Inv.process (h : Inv O s) : Inv O (process s) := by
  have hsame : underway (ConsumeRecursive.process s) = underway s := by
    rw [ConsumeRecursive.process]
    split
    · rename_i messages waiting hworker hqueue
      simp only [underway, act, hworker, hqueue, Option.toList_none, Option.toList_some,
        List.length_nil, List.length_cons]
    · rfl
  exact ⟨h.books.process, by rw [hsame]; exact h.one⟩

theorem callbackDone_of_syncQueue_nil (h : s.syncQueue = []) :
    callbackDone s = act { s with worker := none } .resume := by
  rw [callbackDone]
  dsimp only
  rw [if_pos (List.isEmpty_iff.mpr h)]
  exact process_of_syncQueue_nil h

/-- The last batch is done: the queue drains, and the loop is armed again. -/
theorem inv_callbackDone (hbooks : Books O { s with worker := none })
    (hnone : underway { s with worker := none } = 0) : Inv O (onRecursive (callbackDone s)) := by
  obtain ⟨-, -, hqueue, -⟩ := underway_eq_zero hnone
  rw [callbackDone_of_syncQueue_nil (show s.syncQueue = [] from hqueue)]
  exact inv_onRecursive (hbooks.act (a := .resume) rfl rfl rfl trivial) hnone

theorem Inv.settled (h : Inv O s) {messages : List (ParsedMessage M)}
    (hworker : s.worker = some messages) (resolves : Bool) :
    Inv O (step O s (.settled resolves)) := by
  have hone := h.one
  have hnone : underway { s with worker := none } = 0 := by
    rw [underway, hworker, Option.toList_some, List.length_singleton] at hone
    rw [underway]
    dsimp only
    rw [Option.toList_none, List.length_nil]
    omega
  have hbooks := h.books.settled hworker resolves
  rw [step, hworker]
  dsimp only
  split
  · exact inv_callbackDone (s := act s (.settled resolves)) hbooks hnone
  · exact inv_callbackDone (s := act (act s (.settled resolves)) .error)
      (hbooks.act (a := .error) rfl rfl rfl trivial) hnone

/-- The event brings messages with values, if any. -/
def Event.HasValues : Event M B → Prop
  | .consumed result => ConsumeRecursive.HasValues result
  | _ => True

theorem Inv.step (h : Inv O s) (e : Event M B) (hvalues : e.HasValues) : Inv O (step O s e) := by
  cases e with
  | consumed result =>
    rw [ConsumeRecursive.step]
    split
    · rename_i hpos
      exact h.consumed hpos hvalues
    · exact h
  | timeout =>
    rw [ConsumeRecursive.step]
    split
    · rename_i hpos
      have hone := h.one
      refine inv_consumeRecursive (s := { s with timers := s.timers - 1 })
        ⟨h.books.order, h.books.settles_eq, h.books.each⟩ ?_
      rw [underway] at hone ⊢
      dsimp only
      omega
    · exact h
  | process => exact h.process
  | settled resolves =>
    cases hworker : s.worker with
    | none =>
      rw [ConsumeRecursive.step, hworker]
      exact h
    | some messages => exact h.settled hworker resolves
  | disconnect =>
    exact ⟨⟨h.books.order, h.books.settles_eq, h.books.each⟩, h.one⟩

theorem inv_start : Inv O (start : ConsumeRecursive M B) :=
  inv_consumeRecursive ⟨rfl, rfl, Timeline.each_nil _⟩ rfl

end

/-! ### The loop and what happens around it -/

/-- The loop knows what happened, and exactly what the phase says is under way. -/
structure Agrees (s : ConsumeRecursive M B) (o : Outside M B) : Prop where
  running_eq : s.running = o.connected
  consuming_eq : s.consuming = if o.phase = .asking then 1 else 0
  timers_eq : s.timers = if o.phase = .retrying then 1 else 0
  queue_eq : s.syncQueue.length = if o.phase = .queued then 1 else 0
  worker_eq : s.worker.toList.length = if o.phase = .working then 1 else 0
  results_eq : s.timeline.filterMap Action.result = o.answered
  settled_eq : s.timeline.filterMap Action.settles = o.settled
  asked : s.timeline.countP Action.asks = o.answered.length + s.consuming
  retried : s.timeline.countP Action.retries = o.rung + s.timers

section

variable {O} {s : ConsumeRecursive M B} {o : Outside M B}

/-- What is under way in a phase. -/
theorem Agrees.counts (h : Agrees s o) {phase : Phase} (hphase : o.phase = phase) :
    s.consuming = (if phase = .asking then 1 else 0) ∧
      s.timers = (if phase = .retrying then 1 else 0) ∧
      s.syncQueue.length = (if phase = .queued then 1 else 0) ∧
      s.worker.toList.length = if phase = .working then 1 else 0 := by
  rw [← hphase]
  exact ⟨h.consuming_eq, h.timers_eq, h.queue_eq, h.worker_eq⟩

/-- Outside of a phase nothing of its kind is under way. -/
theorem Agrees.idle (h : Agrees s o) :
    (o.phase ≠ .queued → s.syncQueue = []) ∧ (o.phase ≠ .working → s.worker = none) := by
  refine ⟨fun hphase => ?_, fun hphase => ?_⟩
  · exact List.eq_nil_of_length_eq_zero (by rw [h.queue_eq, if_neg hphase])
  · refine Option.toList_eq_nil_iff.mp (List.eq_nil_of_length_eq_zero ?_)
    rw [h.worker_eq, if_neg hphase]

theorem results_act (s : ConsumeRecursive M B) (a : Action M B) :
    (act s a).timeline.filterMap Action.result =
      s.timeline.filterMap Action.result ++ a.result.toList := Timeline.filterMap_concat ..

theorem settles_act (s : ConsumeRecursive M B) (a : Action M B) :
    (act s a).timeline.filterMap Action.settles =
      s.timeline.filterMap Action.settles ++ a.settles.toList := Timeline.filterMap_concat ..

theorem countP_act (p : Action M B → Bool) (s : ConsumeRecursive M B) (a : Action M B) :
    (act s a).timeline.countP p = s.timeline.countP p + if p a = true then 1 else 0 := by
  rw [ConsumeRecursive.act, List.countP_append, List.countP_singleton]

/-- An action that is none of those that are counted. -/
theorem Agrees.act (h : Agrees s o) {a : Action M B} (hresult : a.result = none)
    (hsettles : a.settles = none) (hasks : a.asks = false) (hretries : a.retries = false) :
    Agrees (act s a) o :=
  { h with
    results_eq := by rw [results_act, hresult, Option.toList_none, List.append_nil, h.results_eq]
    settled_eq := by rw [settles_act, hsettles, Option.toList_none, List.append_nil, h.settled_eq]
    asked := by rw [countP_act, hasks]; exact h.asked
    retried := by rw [countP_act, hretries]; exact h.retried }

/-- One more call, where nothing is under way. -/
theorem Agrees.consumeRecursive (h : Agrees s o) (hphase : o.phase = .stopped) :
    Agrees (consumeRecursive s) { o with phase := .asking } := by
  obtain ⟨hconsuming, htimers, hqueue, hworker⟩ := h.counts hphase
  refine ⟨h.running_eq, congrArg (· + 1) hconsuming, htimers, hqueue, hworker, ?_, ?_, ?_, ?_⟩
  · rw [ConsumeRecursive.consumeRecursive, results_act]
    simpa using h.results_eq
  · rw [ConsumeRecursive.consumeRecursive, settles_act]
    simpa using h.settled_eq
  · rw [ConsumeRecursive.consumeRecursive, countP_act]
    show s.timeline.countP Action.asks + 1 = o.answered.length + (s.consuming + 1)
    have hasked := h.asked
    omega
  · rw [ConsumeRecursive.consumeRecursive, countP_act]
    exact h.retried

/-- The next call, if the loop is to go on. -/
theorem Agrees.onRecursive (h : Agrees s o) (hphase : o.phase = .stopped) :
    Agrees (onRecursive s) { o with phase := if o.connected then .asking else .stopped } := by
  rw [ConsumeRecursive.onRecursive, h.running_eq]
  split
  · exact h.consumeRecursive hphase
  · rw [← hphase]
    exact h

/-- An error or an empty list: another call after a while, or none after `disconnect`. -/
theorem Agrees.setRetry (h : Agrees s o) (hphase : o.phase = .stopped) :
    Agrees (setRetry s) { o with phase := if o.connected then .retrying else .stopped } := by
  rw [ConsumeRecursive.setRetry, h.running_eq]
  split
  · rename_i hconnected
    obtain ⟨hconsuming, htimers, hqueue, hworker⟩ := h.counts hphase
    refine ⟨rfl, hconsuming, congrArg (· + 1) htimers, hqueue, hworker, ?_, ?_, ?_, ?_⟩
    · rw [results_act]
      simpa using h.results_eq
    · rw [settles_act]
      simpa using h.settled_eq
    · rw [countP_act]
      exact h.asked
    · rw [countP_act]
      show s.timeline.countP Action.retries + 1 = o.rung + (s.timers + 1)
      have hretried := h.retried
      omega
  · rw [← hphase]
    exact h

/-- A call is answered; what comes of it is still to be seen. -/
theorem Agrees.consumed (h : Agrees s o) (hphase : o.phase = .asking)
    (result : Result (RawMessage M B)) :
    Agrees (ConsumeRecursive.act { s with consuming := s.consuming - 1 } (.consumed result))
      { o with answered := o.answered ++ [result], phase := .stopped } := by
  obtain ⟨hconsuming, htimers, hqueue, hworker⟩ := h.counts hphase
  refine ⟨h.running_eq, congrArg (· - 1) hconsuming, htimers, hqueue, hworker, ?_, ?_, ?_, ?_⟩
  · rw [results_act]
    exact congrArg (· ++ [result]) h.results_eq
  · rw [settles_act]
    simpa using h.settled_eq
  · rw [countP_act]
    show s.timeline.countP Action.asks = (o.answered ++ [result]).length + (s.consuming - 1)
    have hasked := h.asked
    rw [if_pos rfl] at hconsuming
    rw [List.length_append, List.length_singleton]
    omega
  · rw [countP_act]
    exact h.retried

theorem Agrees.step_consumed (h : Agrees s o) {result : Result (RawMessage M B)}
    (hvalues : HasValues result) :
    Agrees (step O s (.consumed result)) (o.next (.consumed result)) := by
  have hconsuming := h.consuming_eq
  rw [ConsumeRecursive.step, Outside.next]
  by_cases hphase : o.phase = .asking
  · rw [if_pos hphase] at hconsuming ⊢
    rw [if_pos (by omega)]
    have htaken := h.consumed hphase result
    cases result with
    | error => exact (htaken.act (a := .error) rfl rfl rfl rfl).setRetry rfl
    | messages msgs =>
      cases msgs with
      | nil => exact htaken.setRetry rfl
      | cons msg msgs =>
        obtain ⟨messages, hmessages⟩ := parseMessages_eq_some (O := O) hvalues
        change parseMessages O (msg :: msgs) = some messages at hmessages
        have hqueue : s.syncQueue = [] := h.idle.1 (by rw [hphase]; exact Phase.noConfusion)
        rw [onConsumed, hmessages]
        exact
          { htaken with
            queue_eq := congrArg (fun waiting => (waiting ++ [messages]).length) hqueue }
  · rw [if_neg hphase] at hconsuming ⊢
    rw [if_neg (by omega)]
    exact h

theorem Agrees.step_process (h : Agrees s o) : Agrees (process s) (o.next .process) := by
  rw [Outside.next]
  by_cases hphase : o.phase = .queued
  · obtain ⟨hconsuming, htimers, hqueue, -⟩ := h.counts hphase
    obtain ⟨messages, hmessages⟩ := List.length_eq_one_iff.mp hqueue
    have hworker : s.worker = none := h.idle.2 (by rw [hphase]; exact Phase.noConfusion)
    rw [if_pos hphase, process, hworker, hmessages]
    exact
      { h.act (a := .work messages) rfl rfl rfl rfl with
        consuming_eq := hconsuming
        timers_eq := htimers
        queue_eq := rfl
        worker_eq := rfl }
  · rw [if_neg hphase, process_of_syncQueue_nil (h.idle.1 hphase)]
    exact h

theorem Agrees.step_settled (h : Agrees s o) (resolves : Bool) :
    Agrees (step O s (.settled resolves)) (o.next (.settled resolves)) := by
  rw [ConsumeRecursive.step, Outside.next]
  by_cases hphase : o.phase = .working
  · obtain ⟨hconsuming, htimers, hempty, hworker⟩ := h.counts hphase
    have hqueue : s.syncQueue = [] := List.eq_nil_of_length_eq_zero hempty
    obtain ⟨messages, hmessages⟩ : ∃ messages, s.worker = some messages := by
      cases hw : s.worker with
      | none => rw [hw] at hworker; cases hworker
      | some messages => exact ⟨messages, rfl⟩
    have hdone : Agrees
        { ConsumeRecursive.act s (.settled resolves) with worker := none }
        { o with settled := o.settled ++ [resolves], phase := .stopped } :=
      { running_eq := h.running_eq
        consuming_eq := hconsuming
        timers_eq := htimers
        queue_eq := hempty
        worker_eq := rfl
        results_eq := (Timeline.filterMap_concat_none rfl).trans h.results_eq
        settled_eq :=
          (settles_act s (.settled resolves)).trans (congrArg (· ++ [resolves]) h.settled_eq)
        asked := (countP_act _ s (.settled resolves)).trans h.asked
        retried := (countP_act _ s (.settled resolves)).trans h.retried }
    rw [if_pos hphase, hmessages]
    dsimp only
    split
    · rw [callbackDone_of_syncQueue_nil (s := ConsumeRecursive.act s _) hqueue]
      exact (hdone.act (a := .resume) rfl rfl rfl rfl).onRecursive rfl
    · have herror := hdone.act (a := .error) rfl rfl rfl rfl
      rw [callbackDone_of_syncQueue_nil
        (s := ConsumeRecursive.act (ConsumeRecursive.act s _) .error) hqueue]
      exact (herror.act (a := .resume) rfl rfl rfl rfl).onRecursive rfl
  · rw [if_neg hphase, h.idle.2 hphase]
    exact h

theorem Agrees.step_timeout (h : Agrees s o) : Agrees (step O s .timeout) (o.next .timeout) := by
  have htimers := h.timers_eq
  rw [ConsumeRecursive.step, Outside.next]
  by_cases hphase : o.phase = .retrying
  · rw [if_pos hphase] at htimers ⊢
    rw [if_pos (by omega)]
    obtain ⟨hconsuming, -, hqueue, hworker⟩ := h.counts hphase
    have hretried := h.retried
    have hrung : Agrees { s with timers := s.timers - 1 }
        { o with phase := .stopped, rung := o.rung + 1 } := by
      refine ⟨h.running_eq, hconsuming, ?_, hqueue, hworker, h.results_eq, h.settled_eq, h.asked, ?_⟩
      · simp [htimers]
      · dsimp only
        omega
    exact hrung.consumeRecursive rfl
  · rw [if_neg hphase] at htimers ⊢
    rw [if_neg (by omega)]
    exact h

theorem Agrees.step (h : Agrees s o) (e : Event M B) (hvalues : e.HasValues) :
    Agrees (step O s e) (o.next e) := by
  cases e with
  | consumed result => exact h.step_consumed hvalues
  | timeout => exact h.step_timeout
  | process => exact h.step_process
  | settled resolves => exact h.step_settled resolves
  | disconnect => exact { h with running_eq := rfl }

end

/-- An error, a batch that is rejected, an empty list, and a batch that is resolved. -/
def sampleEvents : List (Event Nat String) :=
  [.consumed .error, .timeout, .consumed (.messages [⟨0, some "7"⟩, ⟨1, some "seven"⟩]),
    .process, .settled false, .consumed (.messages []), .timeout,
    .consumed (.messages [⟨2, some "8"⟩]), .process, .settled true]

def answered (s : ConsumeRecursive M B) : Nat := (s.timeline.filterMap Action.result).length

variable {A : Type}

/-- The work is no action but the settling itself. -/
def setup : Setup (RawMessage M B) A :=
  { hasValue := fun msg => msg.value.isSome, work := fun _ => [] }

def Event.coarse : Event M B → CentralServicesStream.Event
  | consumed _ => .consumed
  | timeout => .timeout
  | process => .process
  | settled _ => .turn
  | disconnect => .disconnect

/-- The same loop, seen with and without its paths. -/
structure Alike (s : ConsumeRecursive M B) (c : Consumer (RawMessage M B) A) : Prop where
  running_eq : s.running = c.running
  consuming_eq : s.consuming = c.consuming
  timers_eq : s.timers = c.timers
  answered_eq : answered s = c.answered
  queue_eq : c.syncQueue.map (parseMessages O) = s.syncQueue.map some
  worker_eq : c.worker = s.worker.map fun _ => []

section

variable {O} {s : ConsumeRecursive M B} {c : Consumer (RawMessage M B) A}

theorem answered_act {a : Action M B} (h : a.result = none) : answered (act s a) = answered s :=
  congrArg List.length (Timeline.filterMap_concat_none h)

theorem answered_consumed (result : Result (RawMessage M B)) :
    answered (act s (.consumed result)) = answered s + 1 := by
  have hone : (s.timeline ++ [Action.consumed result]).filterMap Action.result =
      s.timeline.filterMap Action.result ++ [result] := Timeline.filterMap_concat_some rfl
  exact (congrArg List.length hone).trans List.length_append

/-- An action that is no result. -/
theorem Alike.act (h : Alike O s c) {a : Action M B} (ha : a.result = none) :
    Alike O (act s a) c :=
  { h with answered_eq := (answered_act ha).trans h.answered_eq }

theorem Alike.process (h : Alike O s c) : Alike O (process s) (Consumer.process setup c) := by
  have hworker := h.worker_eq
  have hqueue := h.queue_eq
  rw [ConsumeRecursive.process]
  split
  · rename_i messages waiting hidle hwaiting
    rw [hidle, Option.map_none] at hworker
    rw [hwaiting, List.map_cons] at hqueue
    obtain ⟨msgs, rest, hmsgs, hfirst, hrest⟩ := List.map_eq_cons_iff.mp hqueue
    rw [Consumer.process, hworker, hmsgs]
    exact { h with
      answered_eq := (answered_act (a := Action.work messages) rfl).trans h.answered_eq
      queue_eq := hrest
      worker_eq := rfl }
  · rename_i hbusy
    have hsame : Consumer.process setup c = c := by
      rw [Consumer.process]
      split
      · rename_i msgs waiting hidle hwaiting
        rw [hidle] at hworker
        rw [hwaiting, List.map_cons] at hqueue
        obtain ⟨messages, rest, hmessages, -, -⟩ := List.map_eq_cons_iff.mp hqueue.symm
        exact absurd hmessages (hbusy _ _ (Option.map_eq_none_iff.mp hworker.symm))
      · rfl
    rw [hsame]
    exact h

theorem Alike.consumeRecursive (h : Alike O s c) :
    Alike O (consumeRecursive s) { c with consuming := c.consuming + 1 } :=
  { h with
    consuming_eq := congrArg (· + 1) h.consuming_eq
    answered_eq := (answered_act (a := Action.consume) rfl).trans h.answered_eq }

theorem Alike.onRecursive (h : Alike O s c) :
    Alike O (onRecursive s)
      { c with consuming := c.consuming + if c.running then 1 else 0 } := by
  rw [ConsumeRecursive.onRecursive, h.running_eq]
  split
  · exact h.consumeRecursive
  · exact h

theorem Alike.setRetry (h : Alike O s c) :
    Alike O (setRetry s) { c with timers := c.timers + if c.running then 1 else 0 } := by
  rw [ConsumeRecursive.setRetry, h.running_eq]
  split
  · exact { h with
      running_eq := rfl
      timers_eq := congrArg (· + 1) h.timers_eq
      answered_eq := (answered_act (a := Action.retry) rfl).trans h.answered_eq }
  · exact h

/-- A result that is the next one of the coarse loop, too. -/
theorem Alike.consumed (h : Alike O s c) {results : Nat → Result (RawMessage M B)}
    {result : Result (RawMessage M B)} (hvalues : HasValues result)
    (hnext : results (answered s) = result) :
    Alike O (onConsumed O (ConsumeRecursive.act { s with consuming := s.consuming - 1 }
        (.consumed result)) result)
      (Consumer.onConsumed setup results { c with consuming := c.consuming - 1 }) := by
  have hactive : Alike O { s with consuming := s.consuming - 1 }
      { c with consuming := c.consuming - 1 } :=
    { h with consuming_eq := congrArg (· - 1) h.consuming_eq }
  have hcounted : Alike O (ConsumeRecursive.act { s with consuming := s.consuming - 1 }
      (.consumed result)) { c with consuming := c.consuming - 1, answered := c.answered + 1 } :=
    { hactive with
      answered_eq := (answered_consumed result).trans (congrArg (· + 1) h.answered_eq) }
  rw [h.answered_eq] at hnext
  rw [Consumer.onConsumed]
  dsimp only
  rw [hnext]
  cases result with
  | error => exact (hcounted.act (a := .error) rfl).setRetry
  | messages msgs =>
    cases msgs with
    | nil => exact hcounted.setRetry
    | cons msg msgs =>
      obtain ⟨messages, hmessages⟩ := parseMessages_eq_some (O := O) hvalues
      change parseMessages O (msg :: msgs) = some messages at hmessages
      have hall : (msg :: msgs).all (setup (M := M) (B := B) (A := A)).hasValue = true :=
        List.all_eq_true.mpr hvalues
      rw [onConsumed, hmessages]
      dsimp only [Result.batch]
      rw [if_pos hall]
      exact { hcounted with
        queue_eq := by
          rw [List.map_append, List.map_append, hcounted.queue_eq, List.map_singleton, hmessages]
          rfl }

/-- Whether the loop asks again before or after the queue goes on makes no difference. -/
theorem process_asking (c : Consumer (RawMessage M B) A) :
    Consumer.process setup { c with consuming := c.consuming + if c.running then 1 else 0 } =
      { Consumer.process setup c with
        consuming := (Consumer.process setup c).consuming +
          if (Consumer.process setup c).running then 1 else 0 } := by
  obtain ⟨_, _, _, _, syncQueue, worker, _⟩ := c
  cases worker with
  | some actions => rfl
  | none => cases syncQueue <;> rfl

theorem Alike.callbackDone (h : Alike O s c) :
    Alike O (ConsumeRecursive.onRecursive (ConsumeRecursive.callbackDone s))
      (Consumer.process setup
        { c with worker := none, consuming := c.consuming + if c.running then 1 else 0 }) := by
  have hidle : Alike O { s with worker := none } { c with worker := none } :=
    { h with worker_eq := rfl }
  have hdone : Alike O (ConsumeRecursive.callbackDone s)
      (Consumer.process setup { c with worker := none }) := by
    rw [ConsumeRecursive.callbackDone]
    dsimp only
    split
    · exact (hidle.act (a := .resume) rfl).process
    · exact hidle.process
  have hagain := hdone.onRecursive
  rw [← process_asking] at hagain
  exact hagain

/-- The event brings the next of the results, if it brings one. -/
def Event.Next (results : Nat → Result (RawMessage M B)) (s : ConsumeRecursive M B) :
    Event M B → Prop
  | .consumed result => results (answered s) = result
  | _ => True

theorem Alike.step (h : Alike O s c) {results : Nat → Result (RawMessage M B)} {e : Event M B}
    (hvalues : e.HasValues) (hnext : e.Next results s) :
    Alike O (step O s e) (Consumer.step setup results c e.coarse) := by
  cases e with
  | consumed result =>
    rw [ConsumeRecursive.step, Event.coarse, Consumer.step]
    by_cases hpos : 0 < s.consuming
    · rw [if_pos hpos, if_pos (h.consuming_eq ▸ hpos)]
      exact h.consumed hvalues hnext
    · rw [if_neg hpos, if_neg (h.consuming_eq ▸ hpos)]
      exact h
  | timeout =>
    rw [ConsumeRecursive.step, Event.coarse, Consumer.step]
    by_cases hpos : 0 < s.timers
    · rw [if_pos hpos, if_pos (h.timers_eq ▸ hpos)]
      have hrung : Alike O { s with timers := s.timers - 1 } { c with timers := c.timers - 1 } :=
        { h with timers_eq := congrArg (· - 1) h.timers_eq }
      exact hrung.consumeRecursive
    · rw [if_neg hpos, if_neg (h.timers_eq ▸ hpos)]
      exact h
  | process => exact h.process
  | settled resolves =>
    rw [ConsumeRecursive.step, Event.coarse, Consumer.step, h.worker_eq]
    cases s.worker with
    | none => exact h
    | some messages =>
      have hsettled := h.act (a := .settled resolves) rfl
      dsimp only [Option.map_some]
      split
      · exact hsettled.callbackDone
      · exact (hsettled.act (a := .error) rfl).callbackDone
  | disconnect => exact { h with running_eq := rfl }

theorem alike_start : Alike O start (Consumer.start : Consumer (RawMessage M B) A) :=
  ⟨rfl, rfl, rfl, rfl, rfl, rfl⟩

/-- The loop with its paths is the loop of `Consumer`, for the results it takes. -/
theorem alike_run (results : Nat → Result (RawMessage M B)) {es : List (Event M B)}
    (hnext : Machine.Along (ConsumeRecursive.step O)
      (fun s e => e.HasValues ∧ e.Next results s) start es) :
    Alike O (Machine.run (ConsumeRecursive.step O) start es)
      (Machine.run (Consumer.step (setup (A := A)) results) Consumer.start
        (es.map Event.coarse)) := by
  have hmap : Machine.run (Consumer.step (setup (A := A)) results) Consumer.start
      (es.map Event.coarse) =
      Machine.run (fun c e => Consumer.step setup results c (Event.coarse e)) Consumer.start es :=
    List.foldl_map
  rw [hmap]
  exact Machine.run_lockstep (fun _ _ _ h he => h.step he.1 he.2) alike_start hnext

end

end ConsumeRecursive

end CentralServicesStream
end PocArchitecture
