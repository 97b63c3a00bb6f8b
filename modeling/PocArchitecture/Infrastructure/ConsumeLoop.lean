/-
`RDKafkaConsumer`: the loop around `consume`.

`consumeRecursiveWrapper` asks the client for one message and asks again at the end of
each callback.  A callback that hands its message to the handler is suspended until the
handler's promise settles, and only then commits and asks again.  A rejected promise
ends the callback on the spot.  `step` takes the two things that can happen from outside,
a `consume` call that is answered and a handler that settles, and the loop records what
it does in a timeline.
-/
import PocArchitecture.Infrastructure.Consumer
import PocArchitecture.Lib.Json
import PocArchitecture.Lib.KeyValue
import PocArchitecture.Lib.Machine
import PocArchitecture.Lib.Timeline

namespace PocArchitecture
namespace Infrastructure

/-- A header object: its properties and their values as text. -/
abbrev MessageHeader := List (String × String)

namespace RDKafka

structure Message where
  headers : Option (List MessageHeader)
  value : Option String
  partition : Nat
  offset : Nat

end RDKafka

/-- The arguments of the callback of `consume(1, ..)`. -/
inductive ConsumeResult where
  | error
  | messages (messages : List RDKafka.Message)

/-- The options the loop reads, and `JSON.parse`, which throws where it is `none`. -/
structure ConsumerSetup where
  msgNames : List String
  autoCommitEnabled : Bool
  commitWaitMode : Option RdKafkaCommitMode
  parse : String → Option Json

inductive ConsumerAction where
  | consume
  | handle (callback : Nat) (message : Json)
  | resolved (callback : Nat)
  | rejected (callback : Nat)
  | commit (callback : Nat) (mode : RdKafkaCommitMode)

namespace ConsumerAction

@[simp] def isConsume : ConsumerAction → Bool
  | consume => true
  | _ => false

@[simp] def handles : ConsumerAction → Option Nat
  | handle n _ => some n
  | _ => none

@[simp] def resolves : ConsumerAction → Option Nat
  | resolved n => some n
  | _ => none

@[simp] def commits : ConsumerAction → Option Nat
  | commit n _ => some n
  | _ => none

end ConsumerAction

/-- A consumer: the `consume` calls still to be answered, the results of those that were,
the callbacks that wait for the handler, and what has been done.  Callbacks are numbered
in the order in which they run. -/
structure ConsumerLoop where
  outstanding : Nat
  results : List ConsumeResult
  suspended : List Nat
  timeline : List ConsumerAction

inductive ConsumerEvent where
  | consumed (result : ConsumeResult)
  | settled (callback : Nat) (resolves : Bool)

namespace RDKafka.Message

/-- `headersObj`: a later header replaces an earlier one of its name. -/
def headersObj (msg : RDKafka.Message) : KeyValue String String :=
  (msg.headers.getD []).foldl KeyValue.setAll ∅

/-- The message names something nobody subscribed to. -/
def isFiltered (msgNames : List String) (msg : RDKafka.Message) : Bool :=
  0 < msgNames.length && 0 < (msg.headers.getD []).length &&
    match msg.headersObj.get "msgName" with
    | none => false
    | some name => !msgNames.contains name

/-- `msgAsDomainMessage` after the `try`.  An assignment that throws leaves the variable
with what was parsed. -/
def domainMessage (parse : String → Option Json) (msg : RDKafka.Message) (msgAsString : String) :
    Option Json :=
  match parse msgAsString with
  | none => none
  | some j =>
    match j.assign "msgPartition" (.number msg.partition) with
    | none => some j
    | some j' => some ((j'.assign "msgOffset" (.number msg.offset)).getD j')

end RDKafka.Message

namespace ConsumerLoop

variable (S : ConsumerSetup)

/-- When the client is ready. -/
def start : ConsumerLoop :=
  { outstanding := 1, results := [], suspended := [], timeline := [.consume] }

/-- The commit after the handler. -/
def commitActions (n : Nat) : List ConsumerAction :=
  if S.autoCommitEnabled ≠ true then
    match S.commitWaitMode with
    | some .noWait => [.commit n .noWait]
    | some .commitMsgSync => [.commit n .commitMsgSync]
    | none => []
  else []

/-- What callback `n` does until it ends or waits for the handler. -/
def onConsumed (n : Nat) : ConsumeResult → List ConsumerAction
  | .error => [.consume]
  | .messages [] => [.consume]
  | .messages (msg :: _) =>
    match msg.value with
    | none => [.consume]
    | some msgValue =>
      if msg.isFiltered S.msgNames then
        (if S.autoCommitEnabled ≠ true then [.commit n .noWait] else []) ++ [.consume]
      else
        match msg.domainMessage S.parse msgValue with
        | some j => if j.isNull then commitActions S n ++ [.consume] else [.handle n j]
        | none => commitActions S n ++ [.consume]

/-- Do these things. -/
def perform (s : ConsumerLoop) (actions : List ConsumerAction) : ConsumerLoop :=
  { s with
    outstanding := s.outstanding + (actions.filter ConsumerAction.isConsume).length
    suspended := s.suspended ++ actions.filterMap ConsumerAction.handles
    timeline := s.timeline ++ actions }

@[simp] theorem perform_outstanding (s : ConsumerLoop) (actions : List ConsumerAction) :
    (s.perform actions).outstanding =
      s.outstanding + (actions.filter ConsumerAction.isConsume).length := rfl

@[simp] theorem perform_results (s : ConsumerLoop) (actions : List ConsumerAction) :
    (s.perform actions).results = s.results := rfl

@[simp] theorem perform_suspended (s : ConsumerLoop) (actions : List ConsumerAction) :
    (s.perform actions).suspended =
      s.suspended ++ actions.filterMap ConsumerAction.handles := rfl

@[simp] theorem perform_timeline (s : ConsumerLoop) (actions : List ConsumerAction) :
    (s.perform actions).timeline = s.timeline ++ actions := rfl

/-- An answer without a call, and a promise nobody waits for, change nothing. -/
def step (s : ConsumerLoop) : ConsumerEvent → ConsumerLoop
  | .consumed result =>
    if 0 < s.outstanding then
      { s with outstanding := s.outstanding - 1, results := s.results ++ [result] }.perform
        (onConsumed S s.results.length result)
    else s
  | .settled n resolves =>
    if n ∈ s.suspended then
      let s := { s with suspended := s.suspended.erase n }
      if resolves then s.perform (.resolved n :: commitActions S n ++ [.consume])
      else s.perform [.rejected n]
    else s

end ConsumerLoop

/-! ## What is due -/

namespace RDKafka.Message

/-- The value of the last `msgName` header. -/
def lastMsgName (msg : RDKafka.Message) : Option String :=
  ((msg.headers.getD []).flatten.reverse.find? (·.1 = "msgName")).map (·.2)

/-- The message is for the handler. -/
def Wanted (S : ConsumerSetup) (msg : RDKafka.Message) : Prop :=
  (∃ text j, msg.value = some text ∧ S.parse text = some j ∧ j.isNull = false) ∧
    (S.msgNames = [] ∨ ∀ name, msg.lastMsgName = some name → name ∈ S.msgNames)

theorem headersObj_msgName (msg : RDKafka.Message) :
    msg.headersObj.get "msgName" = msg.lastMsgName := by
  have hflat : msg.headersObj = KeyValue.setAll ∅ (msg.headers.getD []).flatten := by
    rw [KeyValue.setAll, List.foldl_flatten]
    rfl
  rw [hflat, KeyValue.get_setAll, KeyValue.get_empty, Option.or_none]
  rfl

theorem isFiltered_eq_false_iff {msgNames : List String} {msg : RDKafka.Message} :
    msg.isFiltered msgNames = false ↔
      msgNames = [] ∨ ∀ name, msg.lastMsgName = some name → name ∈ msgNames := by
  rw [isFiltered, headersObj_msgName]
  cases msgNames with
  | nil => simp
  | cons first others =>
    cases hh : msg.headers.getD [] with
    | nil =>
      have hnone : msg.lastMsgName = none := by
        rw [lastMsgName, hh]
        rfl
      simp [hnone]
    | cons h hs =>
      cases msg.lastMsgName with
      | none => simp
      | some name => simp [or_iff_not_imp_left]

/-- Setting the two positions does not turn null into anything else. -/
theorem domainMessage_isNull (parse : String → Option Json) (msg : RDKafka.Message)
    (text : String) :
    (msg.domainMessage parse text).map Json.isNull = (parse text).map Json.isNull := by
  rw [domainMessage]
  cases parse text with
  | none => rfl
  | some j => cases j <;> rfl

/-- A message is handed over when it is not filtered and something came of parsing it. -/
theorem wanted_iff {S : ConsumerSetup} {msg : RDKafka.Message} {text : String}
    (hvalue : msg.value = some text) :
    msg.Wanted S ↔ msg.isFiltered S.msgNames = false ∧
      ∃ j, msg.domainMessage S.parse text = some j ∧ j.isNull = false := by
  have hnull := msg.domainMessage_isNull S.parse text
  rw [Wanted, isFiltered_eq_false_iff, and_comm]
  refine and_congr_right fun _ => ⟨?_, ?_⟩
  · rintro ⟨text', j, htext', hj, hjnull⟩
    obtain rfl : text = text' := Option.some.inj (hvalue.symm.trans htext')
    rw [hj, Option.map_some, hjnull] at hnull
    exact Option.map_eq_some_iff.mp hnull
  · rintro ⟨j, hj, hjnull⟩
    rw [hj, Option.map_some, hjnull] at hnull
    obtain ⟨j', hj', hjnull'⟩ := Option.map_eq_some_iff.mp hnull.symm
    exact ⟨text, j', hvalue, hj', hjnull'⟩

end RDKafka.Message

namespace ConsumeResult

def message : ConsumeResult → Option RDKafka.Message
  | error => none
  | messages msgs => msgs.head?

end ConsumeResult

/-- Callback `n` got a message with this property. -/
def GotMessage (P : RDKafka.Message → Prop) (results : List ConsumeResult) (n : Nat) : Prop :=
  ∃ result msg, results[n]? = some result ∧ result.message = some msg ∧ P msg

theorem GotMessage.lt {P : RDKafka.Message → Prop} {results : List ConsumeResult} {n : Nat}
    (h : GotMessage P results n) : n < results.length := by
  obtain ⟨result, -, hn, -⟩ := h
  exact (List.getElem?_eq_some_iff.mp hn).1

theorem gotMessage_append {P : RDKafka.Message → Prop} {results : List ConsumeResult}
    {result : ConsumeResult} {n : Nat} :
    GotMessage P (results ++ [result]) n ↔
      GotMessage P results n ∨ n = results.length ∧ ∃ msg, result.message = some msg ∧ P msg := by
  constructor
  · rintro ⟨r, msg, hr, hmsg⟩
    rcases Nat.lt_trichotomy n results.length with hlt | heq | hgt
    · rw [List.getElem?_append_left hlt] at hr
      exact Or.inl ⟨r, msg, hr, hmsg⟩
    · rw [heq, List.getElem?_concat_length] at hr
      rw [Option.some.inj hr]
      exact Or.inr ⟨heq, msg, hmsg⟩
    · rw [List.getElem?_eq_none (by simp; omega)] at hr
      cases hr
  · rintro (h | ⟨rfl, msg, hmsg⟩)
    · obtain ⟨r, msg, hr, hmsg⟩ := h
      exact ⟨r, msg, (List.getElem?_append_left (GotMessage.lt ⟨r, msg, hr, hmsg⟩)).trans hr, hmsg⟩
    · exact ⟨result, msg, List.getElem?_concat_length, hmsg⟩

theorem gotMessage_append_of {P : RDKafka.Message → Prop} {results : List ConsumeResult}
    {result : ConsumeResult} {msg : RDKafka.Message} (hmsg : result.message = some msg) (hP : P msg)
    (n : Nat) :
    GotMessage P (results ++ [result]) n ↔ GotMessage P results n ∨ n = results.length := by
  rw [gotMessage_append]
  exact or_congr_right ⟨fun h => h.1, fun h => ⟨h, msg, hmsg, hP⟩⟩

theorem GotMessage.imp {P Q : RDKafka.Message → Prop} {results : List ConsumeResult} {n : Nat}
    (h : GotMessage P results n) (hPQ : ∀ msg, P msg → Q msg) : GotMessage Q results n := by
  obtain ⟨result, msg, hn, hmsg, hP⟩ := h
  exact ⟨result, msg, hn, hmsg, hPQ msg hP⟩

theorem gotMessage_append_of_not {P : RDKafka.Message → Prop} {results : List ConsumeResult}
    {result : ConsumeResult} (h : ∀ msg, result.message = some msg → ¬ P msg) {n : Nat} :
    GotMessage P (results ++ [result]) n ↔ GotMessage P results n := by
  rw [gotMessage_append, or_iff_left]
  rintro ⟨-, msg, hmsg, hP⟩
  exact h msg hmsg hP

/-- The message has a value. -/
abbrev RDKafka.Message.HasValue (msg : RDKafka.Message) : Prop := msg.value.isSome = true

theorem RDKafka.Message.Wanted.hasValue {S : ConsumerSetup} {msg : RDKafka.Message}
    (h : msg.Wanted S) : msg.HasValue := by
  obtain ⟨⟨text, -, htext, -⟩, -⟩ := h
  rw [HasValue, htext]
  rfl

instance (S : ConsumerSetup) (msg : RDKafka.Message) : Decidable (msg.Wanted S) :=
  decidable_of_iff
    (((msg.value.bind S.parse).any fun j => !j.isNull) = true ∧
      (S.msgNames = [] ∨ (msg.lastMsgName.all fun name => decide (name ∈ S.msgNames)) = true)) <| by
    have hvalue : ((msg.value.bind S.parse).any fun j => !j.isNull) = true ↔
        ∃ text j, msg.value = some text ∧ S.parse text = some j ∧ j.isNull = false := by
      cases msg.value with
      | none => simp
      | some text => cases hj : S.parse text <;> simp [hj]
    have hname : (msg.lastMsgName.all fun name => decide (name ∈ S.msgNames)) = true ↔
        ∀ name, msg.lastMsgName = some name → name ∈ S.msgNames := by
      cases msg.lastMsgName <;> simp
    rw [hvalue, hname]
    rfl

/-- What happens around a loop that is as it should be: the results that answer one of its
calls, and the callback whose handler is running.  No call is out while a handler runs. -/
structure Outside where
  answered : List ConsumeResult
  handling : Option Nat

namespace Outside

/-- The handler is running from the result that brings it a message until its promise
resolves. -/
def next (S : ConsumerSetup) (o : Outside) : ConsumerEvent → Outside
  | .consumed result =>
    match o.handling with
    | some _ => o
    | none =>
      { answered := o.answered ++ [result]
        handling := if (result.message.any fun msg => decide (msg.Wanted S)) = true then
            some o.answered.length
          else none }
  | .settled n resolves =>
    if o.handling = some n ∧ resolves = true then { o with handling := none } else o

end Outside

/-- What happened in these events. -/
def outside (S : ConsumerSetup) (es : List ConsumerEvent) : Outside :=
  Machine.run (Outside.next S) { answered := [], handling := none } es

namespace ConsumerLoop

/-- What has to be true when the loop takes an action: the handler is called with a wanted
message when no other call is open and everything before it is committed, and a message is
committed when its handler is done and no later one was called. -/
def InTurn (S : ConsumerSetup) (results : List ConsumeResult) (past : List ConsumerAction) :
    ConsumerAction → Prop
  | .handle n j =>
    GotMessage (fun msg => msg.Wanted S ∧
      ∃ text, msg.value = some text ∧ msg.domainMessage S.parse text = some j) results n ∧
    (∀ m ∈ past.filterMap ConsumerAction.handles, m ∈ past.filterMap ConsumerAction.resolves) ∧
    ∀ m < n, GotMessage RDKafka.Message.HasValue results m →
      m ∈ past.filterMap ConsumerAction.commits
  | .commit n _ =>
    GotMessage RDKafka.Message.HasValue results n ∧
    (GotMessage (RDKafka.Message.Wanted S) results n →
      n ∈ past.filterMap ConsumerAction.resolves) ∧
    ∀ m ∈ past.filterMap ConsumerAction.handles, m ≤ n
  | _ => True

/-- What the loop has on record: each wanted result handled once and in order, each one with a
value committed once and in order, each action in turn, and one `consume` call out or one
handler running. -/
structure Books (S : ConsumerSetup) (s : ConsumerLoop) : Prop where
  handled_once : (s.timeline.filterMap ConsumerAction.handles).Pairwise (· < ·)
  handled_iff : ∀ n, n ∈ s.timeline.filterMap ConsumerAction.handles ↔
    GotMessage (RDKafka.Message.Wanted S) s.results n
  committed_once : (s.timeline.filterMap ConsumerAction.commits).Pairwise (· < ·)
  committed_iff : ∀ n, n ∈ s.timeline.filterMap ConsumerAction.commits ↔
    GotMessage RDKafka.Message.HasValue s.results n ∧ n ∉ s.suspended
  in_turn : Timeline.Each (InTurn S s.results) s.timeline
  one_call : s.outstanding + s.suspended.length = 1

/-- The handler that is running, if any, has the last message. -/
structure Inv (S : ConsumerSetup) (s : ConsumerLoop) : Prop extends Books S s where
  resolved_iff : ∀ n, n ∈ s.timeline.filterMap ConsumerAction.resolves ↔
    GotMessage (RDKafka.Message.Wanted S) s.results n ∧ n ∉ s.suspended
  suspended_last : ∀ n ∈ s.suspended, n + 1 = s.results.length ∧
    GotMessage (RDKafka.Message.Wanted S) s.results n

section

variable {S : ConsumerSetup} {mode : RdKafkaCommitMode} {s : ConsumerLoop}
  {result : ConsumeResult} {n : Nat}

theorem commitActions_eq (hauto : S.autoCommitEnabled = false)
    (hmode : S.commitWaitMode = some mode) (n : Nat) : commitActions S n = [.commit n mode] := by
  rw [commitActions, hauto, if_pos (by decide), hmode]
  cases mode <;> rfl

/-- Callback `n` asks again, or commits and asks again, or calls the handler. -/
theorem onConsumed_cases (hauto : S.autoCommitEnabled = false)
    (hmode : S.commitWaitMode = some mode) (n : Nat) (result : ConsumeResult) :
    (onConsumed S n result = [.consume] ∧
      ∀ msg, result.message = some msg → ¬ msg.HasValue) ∨
    (∃ mode' msg, onConsumed S n result = [.commit n mode', .consume] ∧
      result.message = some msg ∧ msg.HasValue ∧ ¬ msg.Wanted S) ∨
    ∃ msg j, onConsumed S n result = [.handle n j] ∧ result.message = some msg ∧
      msg.Wanted S ∧ ∃ text, msg.value = some text ∧ msg.domainMessage S.parse text = some j := by
  cases result with
  | error => exact Or.inl ⟨rfl, fun msg h => (by cases h)⟩
  | messages msgs =>
    cases msgs with
    | nil => exact Or.inl ⟨rfl, fun msg h => (by cases h)⟩
    | cons msg others =>
      cases hvalue : msg.value with
      | none =>
        refine Or.inl ⟨?_, fun msg' h => ?_⟩
        · rw [onConsumed, hvalue]
        · cases h
          rw [RDKafka.Message.HasValue, hvalue]
          exact Bool.false_ne_true
      | some text =>
        have hhas : msg.HasValue := by rw [RDKafka.Message.HasValue, hvalue, Option.isSome_some]
        have hwanted := RDKafka.Message.wanted_iff (S := S) hvalue
        refine Or.inr ?_
        cases hfiltered : msg.isFiltered S.msgNames with
        | true =>
          refine Or.inl ⟨.noWait, msg, ?_, rfl, hhas, fun h => ?_⟩
          · simp only [onConsumed, hvalue, hfiltered, hauto]
            rfl
          · rw [(hwanted.mp h).1] at hfiltered
            cases hfiltered
        | false =>
          cases hd : msg.domainMessage S.parse text with
          | none =>
            refine Or.inl ⟨mode, msg, ?_, rfl, hhas, fun h => ?_⟩
            · simp only [onConsumed, hvalue, hfiltered, hd, commitActions_eq hauto hmode]
              rfl
            · obtain ⟨j, hj, -⟩ := (hwanted.mp h).2
              rw [hd] at hj
              cases hj
          | some j =>
            cases hj : j.isNull with
            | true =>
              refine Or.inl ⟨mode, msg, ?_, rfl, hhas, fun h => ?_⟩
              · simp only [onConsumed, hvalue, hfiltered, hd, hj, commitActions_eq hauto hmode]
                rfl
              · obtain ⟨j', hj', hnull⟩ := (hwanted.mp h).2
                rw [hd] at hj'
                rw [← Option.some.inj hj', hj] at hnull
                cases hnull
            | false =>
              refine Or.inr ⟨msg, j, ?_, rfl, hwanted.mpr ⟨hfiltered, j, hd, hj⟩, text, hvalue, hd⟩
              simp only [onConsumed, hvalue, hfiltered, hd, hj]
              rfl

/-- What was in turn stays so when more messages come. -/
theorem InTurn.append {past : List ConsumerAction} {a : ConsumerAction}
    (h : InTurn S s.results past a) : InTurn S (s.results ++ [result]) past a := by
  cases a with
  | handle n j =>
    obtain ⟨hgot, hclosed, hbefore⟩ := h
    refine ⟨gotMessage_append.mpr (Or.inl hgot), hclosed, fun m hm hvalue => hbefore m hm ?_⟩
    have hlt := hgot.lt
    exact (gotMessage_append.mp hvalue).resolve_right fun hlast => by omega
  | commit n mode =>
    obtain ⟨hgot, hdone, hlater⟩ := h
    refine ⟨gotMessage_append.mpr (Or.inl hgot), fun hwanted => hdone ?_, hlater⟩
    have hlt := hgot.lt
    exact (gotMessage_append.mp hwanted).resolve_right fun hlast => by omega
  | _ => trivial

theorem inv_start (S : ConsumerSetup) : Inv S start where
  handled_once := List.Pairwise.nil
  handled_iff n := ⟨fun h => (by cases h), fun h => absurd h.lt (Nat.not_lt_zero n)⟩
  committed_once := List.Pairwise.nil
  committed_iff n := ⟨fun h => (by cases h), fun h => absurd h.1.lt (Nat.not_lt_zero n)⟩
  in_turn := (Timeline.each_append_one (t := [])).mpr ⟨Timeline.each_nil _, trivial⟩
  one_call := rfl
  resolved_iff n := ⟨fun h => (by cases h), fun h => absurd h.1.lt (Nat.not_lt_zero n)⟩
  suspended_last n h := by cases h

/-! ## One callback -/

theorem pairwise_append_one {l : List Nat} (h : l.Pairwise (· < ·)) (hlt : ∀ m ∈ l, m < n) :
    (l ++ [n]).Pairwise (· < ·) := by
  rw [List.pairwise_append]
  refine ⟨h, List.pairwise_singleton _ _, fun m hm k hk => ?_⟩
  rw [List.mem_singleton.mp hk]
  exact hlt m hm

/-- The new result is added and taken away again. -/
theorem or_last_and_ne_last {p : Prop} {m k : Nat} (h : p → m < k) :
    (p ∨ m = k) ∧ m ≠ k ↔ p :=
  ⟨fun hm => hm.1.resolve_right hm.2, fun hp => ⟨Or.inl hp, (h hp).ne⟩⟩

theorem Inv.handled_lt (h : Inv S s) {m : Nat}
    (hm : m ∈ s.timeline.filterMap ConsumerAction.handles) : m < s.results.length :=
  ((h.handled_iff m).mp hm).lt

theorem Inv.committed_lt (h : Inv S s) {m : Nat}
    (hm : m ∈ s.timeline.filterMap ConsumerAction.commits) : m < s.results.length :=
  ((h.committed_iff m).mp hm).1.lt

/-- With no handler running, every message with a value is committed. -/
theorem Inv.committed_idle (h : Inv S s) (hidle : s.suspended = []) (m : Nat) :
    m ∈ s.timeline.filterMap ConsumerAction.commits ↔
      GotMessage RDKafka.Message.HasValue s.results m := by
  rw [h.committed_iff, hidle]
  exact and_iff_left List.not_mem_nil

/-- With no handler running, every handler is done. -/
theorem Inv.resolved_idle (h : Inv S s) (hidle : s.suspended = []) (m : Nat) :
    m ∈ s.timeline.filterMap ConsumerAction.resolves ↔
      GotMessage (RDKafka.Message.Wanted S) s.results m := by
  rw [h.resolved_iff, hidle]
  exact and_iff_left List.not_mem_nil

/-- A result without a value. -/
theorem Inv.nothing (h : Inv S s) (hidle : s.suspended = [])
    (hnone : ∀ msg, result.message = some msg → ¬ msg.HasValue) :
    Inv S ({ s with outstanding := 0, results := s.results ++ [result] }.perform [.consume]) where
  handled_once := by simpa [List.filterMap_cons] using h.handled_once
  handled_iff n := by
    rw [perform_results, gotMessage_append_of_not fun msg hmsg hw => hnone msg hmsg hw.hasValue,
      ← h.handled_iff n]
    simp [List.filterMap_cons]
  committed_once := by simpa [List.filterMap_cons] using h.committed_once
  committed_iff n := by
    rw [perform_results, gotMessage_append_of_not hnone]
    simpa [List.filterMap_cons] using h.committed_iff n
  in_turn := Timeline.each_append_one.mpr ⟨h.in_turn.mono fun _ _ => InTurn.append, trivial⟩
  one_call := by simp [List.filterMap_cons, List.filter_cons, hidle]
  resolved_iff n := by
    rw [perform_results, gotMessage_append_of_not fun msg hmsg hw => hnone msg hmsg hw.hasValue]
    simpa [List.filterMap_cons] using h.resolved_iff n
  suspended_last n hn := by simp [List.filterMap_cons, hidle] at hn

/-- A message that is committed unread. -/
theorem Inv.unread (h : Inv S s) (hidle : s.suspended = []) {msg : RDKafka.Message}
    (hmsg : result.message = some msg) (hvalue : msg.HasValue) (hunwanted : ¬ msg.Wanted S)
    (mode : RdKafkaCommitMode) :
    Inv S ({ s with outstanding := 0, results := s.results ++ [result] }.perform
      [.commit s.results.length mode, .consume]) := by
  have hnot : ∀ msg', result.message = some msg' → ¬ msg'.Wanted S := by
    intro msg' hmsg'
    rw [hmsg] at hmsg'
    rwa [← Option.some.inj hmsg']
  have hdue : ∀ m, GotMessage RDKafka.Message.HasValue (s.results ++ [result]) m ↔
      m ∈ s.timeline.filterMap ConsumerAction.commits ∨ m = s.results.length := by
    intro m
    rw [gotMessage_append_of hmsg hvalue, h.committed_idle hidle]
  refine
    { handled_once := ?_, handled_iff := ?_, committed_once := ?_, committed_iff := ?_,
      in_turn := ?_, one_call := ?_, resolved_iff := ?_, suspended_last := ?_ }
  · simpa [List.filterMap_cons] using h.handled_once
  · intro n
    rw [perform_results, gotMessage_append_of_not hnot, ← h.handled_iff n]
    simp [List.filterMap_cons]
  · have hlast := pairwise_append_one h.committed_once fun m hm => h.committed_lt hm
    simpa [List.filterMap_cons] using hlast
  · intro n
    rw [perform_results, hdue]
    simp [List.filterMap_cons, hidle]
  · show Timeline.Each _ (s.timeline ++ ([.commit s.results.length mode] ++ [.consume]))
    rw [← List.append_assoc, Timeline.each_append_one, Timeline.each_append_one]
    refine ⟨⟨h.in_turn.mono fun _ _ => InTurn.append, ?_, ?_, ?_⟩, trivial⟩
    · exact gotMessage_append.mpr (Or.inr ⟨rfl, msg, hmsg, hvalue⟩)
    · intro hwanted
      exact absurd ((gotMessage_append_of_not hnot).mp hwanted).lt (Nat.lt_irrefl _)
    · exact fun m hm => (h.handled_lt hm).le
  · simp [List.filterMap_cons, List.filter_cons, hidle]
  · intro n
    rw [perform_results, gotMessage_append_of_not hnot]
    simpa [List.filterMap_cons] using h.resolved_iff n
  · intro n hn
    simp [List.filterMap_cons, hidle] at hn

/-- A message that goes to the handler. -/
theorem Inv.handed (h : Inv S s) (hidle : s.suspended = []) {msg : RDKafka.Message} {j : Json}
    (hmsg : result.message = some msg) (hwanted : msg.Wanted S)
    (hj : ∃ text, msg.value = some text ∧ msg.domainMessage S.parse text = some j) :
    Inv S ({ s with outstanding := 0, results := s.results ++ [result] }.perform
      [.handle s.results.length j]) := by
  have hclosed := h.resolved_idle hidle
  have hdone := h.committed_idle hidle
  refine
    { handled_once := ?_, handled_iff := ?_, committed_once := ?_, committed_iff := ?_,
      in_turn := ?_, one_call := ?_, resolved_iff := ?_, suspended_last := ?_ }
  · have hlt := pairwise_append_one h.handled_once fun m hm => h.handled_lt hm
    simpa [List.filterMap_cons] using hlt
  · intro n
    rw [perform_results, gotMessage_append_of hmsg hwanted, ← h.handled_iff n]
    simp
  · simpa [List.filterMap_cons] using h.committed_once
  · intro n
    rw [perform_results, gotMessage_append_of hmsg hwanted.hasValue]
    have hcommits : n ∈ s.timeline.filterMap ConsumerAction.commits ↔
        (GotMessage RDKafka.Message.HasValue s.results n ∨ n = s.results.length) ∧
          n ≠ s.results.length := by
      rw [hdone]
      exact (or_last_and_ne_last GotMessage.lt).symm
    simpa [List.filterMap_cons, hidle] using hcommits
  · refine Timeline.each_append_one.mpr ⟨h.in_turn.mono fun _ _ => InTurn.append, ?_, ?_, ?_⟩
    · exact gotMessage_append.mpr (Or.inr ⟨rfl, msg, hmsg, hwanted, hj⟩)
    · intro m hm
      exact (hclosed m).mpr ((h.handled_iff m).mp hm)
    · intro m hm hvalue
      exact (hdone m).mpr ((gotMessage_append.mp hvalue).resolve_right fun hm' => by omega)
  · simp [hidle]
  · intro n
    rw [perform_results, gotMessage_append_of hmsg hwanted]
    have hresolves : n ∈ s.timeline.filterMap ConsumerAction.resolves ↔
        (GotMessage (RDKafka.Message.Wanted S) s.results n ∨ n = s.results.length) ∧
          n ≠ s.results.length := by
      rw [hclosed]
      exact (or_last_and_ne_last GotMessage.lt).symm
    simpa [List.filterMap_cons, hidle] using hresolves
  · intro n hn
    obtain rfl : n = s.results.length := by
      simpa [List.filterMap_cons, hidle] using hn
    refine ⟨?_, (gotMessage_append_of hmsg hwanted _).mpr (Or.inr rfl)⟩
    simp

theorem Inv.idle (h : Inv S s) (hpos : 0 < s.outstanding) :
    s.suspended = [] ∧ s.outstanding = 1 := by
  have hone := h.one_call
  exact ⟨List.length_eq_zero_iff.mp (by omega), by omega⟩

theorem Inv.suspended_eq (h : Inv S s) (hn : n ∈ s.suspended) :
    s.suspended = [n] ∧ s.outstanding = 0 := by
  have hone := h.one_call
  have hpos := List.length_pos_of_mem hn
  obtain ⟨m, hm⟩ := List.length_eq_one_iff.mp (show s.suspended.length = 1 by omega)
  rw [hm, List.mem_singleton] at hn
  rw [hn]
  exact ⟨hm, by omega⟩

/-- The handler resolves. -/
theorem Inv.resolved (h : Inv S s) (hn : n ∈ s.suspended) (mode : RdKafkaCommitMode) :
    Inv S ({ s with suspended := s.suspended.erase n }.perform
      [.resolved n, .commit n mode, .consume]) := by
  obtain ⟨hlast, hwanted⟩ := h.suspended_last n hn
  obtain ⟨hone, hout⟩ := h.suspended_eq hn
  have hle : ∀ {m}, m < s.results.length → m ≠ n → m < n := by
    intro m hm hne
    omega
  refine
    { handled_once := ?_, handled_iff := ?_, committed_once := ?_, committed_iff := ?_,
      in_turn := ?_, one_call := ?_, resolved_iff := ?_, suspended_last := ?_ }
  · simpa [List.filterMap_cons] using h.handled_once
  · simpa [List.filterMap_cons] using h.handled_iff
  · have hlt : ∀ m ∈ s.timeline.filterMap ConsumerAction.commits, m < n := by
      intro m hm
      refine hle (h.committed_lt hm) ?_
      simpa [hone] using ((h.committed_iff m).mp hm).2
    simpa [List.filterMap_cons] using pairwise_append_one h.committed_once hlt
  · intro m
    have hiff : m ∈ s.timeline.filterMap ConsumerAction.commits ∨ m = n ↔
        GotMessage RDKafka.Message.HasValue s.results m := by
      rw [h.committed_iff, hone, List.mem_singleton]
      refine ⟨?_, fun hm => or_iff_not_imp_right.mpr fun hne => ⟨hm, hne⟩⟩
      rintro (hm | rfl)
      · exact hm.1
      · exact hwanted.imp fun _ => RDKafka.Message.Wanted.hasValue
    simpa [List.filterMap_cons, hone] using hiff
  · show Timeline.Each _ (s.timeline ++ ([.resolved n] ++ ([.commit n mode] ++ [.consume])))
    rw [← List.append_assoc, ← List.append_assoc, Timeline.each_append_one,
      Timeline.each_append_one, Timeline.each_append_one]
    refine ⟨⟨⟨h.in_turn, trivial⟩, ?_, ?_, ?_⟩, trivial⟩
    · exact hwanted.imp fun _ => RDKafka.Message.Wanted.hasValue
    · intro _
      simp
    · intro m hm
      have hlt : m < s.results.length := h.handled_lt (by simpa [List.filterMap_cons] using hm)
      omega
  · simp [List.filterMap_cons, List.filter_cons, hone, hout]
  · intro m
    have hiff : m ∈ s.timeline.filterMap ConsumerAction.resolves ∨ m = n ↔
        GotMessage (RDKafka.Message.Wanted S) s.results m := by
      rw [h.resolved_iff, hone, List.mem_singleton]
      refine ⟨?_, fun hm => or_iff_not_imp_right.mpr fun hne => ⟨hm, hne⟩⟩
      rintro (hm | rfl)
      · exact hm.1
      · exact hwanted
    simpa [List.filterMap_cons, hone] using hiff
  · intro m hm
    simp [List.filterMap_cons, hone] at hm

/-! ## Whole runs -/

theorem Inv.step (hauto : S.autoCommitEnabled = false) (hmode : S.commitWaitMode = some mode)
    (h : Inv S s) {e : ConsumerEvent} (hresolves : ∀ n, e ≠ .settled n false) :
    Inv S (ConsumerLoop.step S s e) := by
  cases e with
  | consumed result =>
    rw [ConsumerLoop.step]
    split
    · rename_i hpos
      obtain ⟨hidle, hone⟩ := h.idle hpos
      rw [hone, Nat.sub_self]
      rcases onConsumed_cases hauto hmode s.results.length result with
        ⟨hactions, hnone⟩ | ⟨mode', msg, hactions, hmsg, hvalue, hunwanted⟩ |
          ⟨msg, j, hactions, hmsg, hwanted, hj⟩
      · rw [hactions]
        exact h.nothing hidle hnone
      · rw [hactions]
        exact h.unread hidle hmsg hvalue hunwanted mode'
      · rw [hactions]
        exact h.handed hidle hmsg hwanted hj
    · exact h
  | settled n resolves =>
    cases resolves with
    | false => exact absurd rfl (hresolves n)
    | true =>
      rw [ConsumerLoop.step]
      split
      · rename_i hn
        dsimp only
        rw [if_pos rfl, commitActions_eq hauto hmode]
        exact h.resolved hn mode
      · exact h

/-- The loop knows what happened around it, and has asked once for each answer and each call
that is out. -/
structure Agrees (s : ConsumerLoop) (o : Outside) : Prop where
  results_eq : s.results = o.answered
  suspended_eq : s.suspended = o.handling.toList
  asked : (s.timeline.filter ConsumerAction.isConsume).length = s.results.length + s.outstanding

/-- Every call that is made is on the timeline. -/
theorem asked_perform {k : Nat}
    (h : (s.timeline.filter ConsumerAction.isConsume).length = k + s.outstanding)
    (actions : List ConsumerAction) :
    ((s.perform actions).timeline.filter ConsumerAction.isConsume).length =
      k + (s.perform actions).outstanding := by
  rw [perform_timeline, perform_outstanding, List.filter_append, List.length_append]
  omega

/-- Callback `n` goes to the handler exactly if its message is wanted. -/
theorem handles_onConsumed (hauto : S.autoCommitEnabled = false)
    (hmode : S.commitWaitMode = some mode) (n : Nat) (result : ConsumeResult) :
    (onConsumed S n result).filterMap ConsumerAction.handles =
      if (result.message.any fun msg => decide (msg.Wanted S)) = true then [n] else [] := by
  rcases onConsumed_cases hauto hmode n result with
    ⟨hactions, hnone⟩ | ⟨mode', msg, hactions, hmsg, -, hunwanted⟩ |
      ⟨msg, j, hactions, hmsg, hwanted, -⟩
  · rw [hactions]
    cases hmsg : result.message with
    | none => rfl
    | some msg =>
      rw [Option.any_some, if_neg fun h => hnone msg hmsg (of_decide_eq_true h).hasValue]
      rfl
  · rw [hactions, hmsg, Option.any_some, if_neg fun h => hunwanted (of_decide_eq_true h)]
    rfl
  · rw [hactions, hmsg, Option.any_some, if_pos (decide_eq_true hwanted)]
    rfl

theorem Agrees.step (hauto : S.autoCommitEnabled = false) (hmode : S.commitWaitMode = some mode)
    {o : Outside} (h : Agrees s o) (hinv : Inv S s) {e : ConsumerEvent}
    (hresolves : ∀ n, e ≠ .settled n false) :
    Agrees (ConsumerLoop.step S s e) (o.next S e) := by
  have hcalls := hinv.one_call
  have hsuspended := h.suspended_eq
  cases e with
  | consumed result =>
    rw [ConsumerLoop.step, Outside.next]
    cases hhandling : o.handling with
    | some n =>
      rw [hsuspended, hhandling, Option.toList_some, List.length_singleton] at hcalls
      rw [if_neg (by omega)]
      exact h
    | none =>
      rw [hhandling, Option.toList_none] at hsuspended
      rw [hsuspended, List.length_nil, Nat.add_zero] at hcalls
      rw [if_pos (by omega)]
      refine ⟨?_, ?_, asked_perform ?_ _⟩
      · rw [perform_results, h.results_eq]
      · rw [perform_suspended, handles_onConsumed hauto hmode, hsuspended, h.results_eq]
        dsimp only
        split <;> rfl
      · have hasked := h.asked
        dsimp only
        rw [perform_results, List.length_append, List.length_singleton]
        omega
  | settled n resolves =>
    cases resolves with
    | false => exact absurd rfl (hresolves n)
    | true =>
      rw [ConsumerLoop.step, Outside.next]
      by_cases hn : o.handling = some n
      · rw [hn, Option.toList_some] at hsuspended
        have hmem : n ∈ s.suspended := by rw [hsuspended]; exact List.mem_singleton_self n
        have hdone : o.handling = some n ∧ true = true := And.intro hn rfl
        rw [if_pos hmem, if_pos hdone]
        dsimp only
        rw [if_pos rfl, commitActions_eq hauto hmode]
        refine ⟨h.results_eq, ?_, asked_perform h.asked _⟩
        rw [perform_suspended, hsuspended]
        simp [List.filterMap_cons]
      · have hmem : n ∉ s.suspended := by
          rw [hsuspended, Option.mem_toList]
          exact hn
        rw [if_neg hmem, if_neg fun hboth => hn hboth.1]
        exact h

end

/-- One subscribed name, and a parser that knows one text. -/
def sampleSetup : ConsumerSetup :=
  { msgNames := ["TransferPrepared"], autoCommitEnabled := false, commitWaitMode := some .noWait,
    parse := fun text => if text = "prepared" then some (.object []) else none }

def sampleMessage (msgName : String) (offset : Nat) : RDKafka.Message :=
  { headers := some [[("msgName", msgName)]], value := some "prepared", partition := 0
    offset := offset }

/-- A wanted message, a result that comes while its handler is running, and one for others. -/
def sampleEvents : List ConsumerEvent :=
  [.consumed .error, .consumed (.messages [sampleMessage "TransferPrepared" 0]),
    .consumed (.messages [sampleMessage "TransferPrepared" 1]), .settled 1 true,
    .consumed (.messages [sampleMessage "TransferFulfilled" 2]),
    .consumed (.messages [sampleMessage "TransferPrepared" 3])]

example : ((outside sampleSetup sampleEvents).answered.length,
    (outside sampleSetup sampleEvents).handling) = (4, some 3) := by decide +kernel

/-! ## One message -/

section

variable {S : ConsumerSetup}

/-- The message as the switch sees it. -/
def read (S : ConsumerSetup) (msg : RDKafka.Message) : KafkaMessage Json :=
  { msgName := msg.lastMsgName
    value := msg.value.map fun text =>
      (msg.domainMessage S.parse text).filter fun j => !j.isNull }

theorem isIgnored_read (S : ConsumerSetup) (msg : RDKafka.Message) :
    (read S msg).isIgnored S.msgNames = msg.isFiltered S.msgNames := by
  rw [Bool.eq_iff_iff, ← Bool.not_eq_false, ← Bool.not_eq_false, not_iff_not,
    RDKafka.Message.isFiltered_eq_false_iff, KafkaMessage.isIgnored]
  show (match msg.lastMsgName with
    | none => false
    | some name => !S.msgNames.isEmpty && !S.msgNames.contains name) = false ↔ _
  cases msg.lastMsgName with
  | none => simp
  | some name => simp [or_iff_not_imp_left]

/-- What the handler was called with. -/
def handed (actions : List ConsumerAction) : Option Json :=
  actions.findSome? fun
    | .handle _ j => some j
    | _ => none

/-- What callback `n` does when its handler resolves. -/
def wholeCallback (S : ConsumerSetup) (n : Nat) (result : ConsumeResult) : List ConsumerAction :=
  let actions := onConsumed S n result
  if (handed actions).isSome then actions ++ .resolved n :: commitActions S n ++ [.consume]
  else actions

def hasCommit (actions : List ConsumerAction) : Bool := actions.any (·.commits.isSome)

theorem commitActions_spec (hauto : S.autoCommitEnabled = false) (n : Nat)
    (actions : List ConsumerAction) :
    hasCommit (commitActions S n ++ [.consume]) = S.commitWaitMode.isSome ∧
      hasCommit (actions ++ .resolved n :: commitActions S n ++ [.consume]) =
        (hasCommit actions || S.commitWaitMode.isSome) ∧
      handed (commitActions S n ++ [.consume]) = none := by
  rw [commitActions, hauto, if_pos (by decide)]
  cases S.commitWaitMode with
  | none => simp [hasCommit, handed]
  | some mode => cases mode <;> simp [hasCommit, handed]

/-- `consume` is what the callback makes of a message when its handler resolves. -/
theorem consume_read {A C : Type} (hauto : S.autoCommitEnabled = false)
    (handlerCallback : A → Json → A × List C) (a : A) (msg : RDKafka.Message) (n : Nat) :
    consume S.msgNames S.commitWaitMode handlerCallback a (read S msg) =
      ((handed (onConsumed S n (.messages [msg]))).elim a fun j => (handlerCallback a j).1,
        { published := (handed (onConsumed S n (.messages [msg]))).elim []
            fun j => (handlerCallback a j).2
          committed := hasCommit (wholeCallback S n (.messages [msg])) }) := by
  obtain ⟨hunread, -, hnone⟩ := commitActions_spec hauto n []
  rw [consume, isIgnored_read, wholeCallback]
  cases hvalue : msg.value with
  | none => simp [read, onConsumed, hvalue, handed, hasCommit]
  | some text =>
    cases hfiltered : msg.isFiltered S.msgNames with
    | true => simp [read, onConsumed, hvalue, hfiltered, hauto, handed, hasCommit]
    | false =>
      cases hd : msg.domainMessage S.parse text with
      | none => simp [read, onConsumed, hvalue, hfiltered, hd, hnone, hunread]
      | some j =>
        cases hj : j.isNull with
        | true => simp [read, onConsumed, hvalue, hfiltered, hd, hj, hnone, hunread, Option.filter]
        | false =>
          have hread := (commitActions_spec hauto n [.handle n j]).2.1
          simp only [onConsumed, hvalue, hfiltered, hd, hj, handed, Bool.false_eq_true, if_false,
            List.findSome?_cons] at hread ⊢
          rw [if_pos (by rfl), hread]
          simp [read, hvalue, hd, hj, Option.filter, hasCommit]

end

end ConsumerLoop

end Infrastructure
end PocArchitecture
