/-
`RDKafkaConsumer` with auto-commit off: what becomes of one message.

The handler's promise is awaited and its message committed, whatever the handler made of
it.  A message whose header names none of the subscribed messages is committed unread;
one whose value is not JSON is committed without a handler; only a null value is not.
-/
import Mathlib.Logic.Basic

namespace PocArchitecture
namespace Infrastructure

inductive RdKafkaCommitMode where
  | noWait
  | commitMsgSync
  deriving DecidableEq

/-- A message as the Kafka client hands it over. -/
structure KafkaMessage (M : Type) where
  /-- the `msgName` header, where there is one -/
  msgName : Option String
  /-- `none` is a null value, `some none` a text that is not JSON -/
  value : Option (Option M)

namespace KafkaMessage

variable {M : Type}

/-- The header names a message nobody subscribed to. -/
def isIgnored (msgNames : List String) (msg : KafkaMessage M) : Bool :=
  match msg.msgName with
  | none => false
  | some name => !msgNames.isEmpty && !msgNames.contains name

end KafkaMessage

/-- What the consumer made of one message. -/
structure Consumed (C : Type) where
  published : List C
  committed : Bool
  deriving DecidableEq

/-- One round of `consumeRecursiveWrapper` that got a message.  The handler resolves, with
whatever it published; a commit mode outside the two known ones commits nothing. -/
def consume {M C S : Type} (msgNames : List String) (commitWaitMode : Option RdKafkaCommitMode)
    (handlerCallback : S → M → S × List C) (s : S) (msg : KafkaMessage M) : S × Consumed C :=
  match msg.value with
  | none => (s, { published := [], committed := false })
  | some parsed =>
    if msg.isIgnored msgNames then (s, { published := [], committed := true })
    else
      match parsed with
      | none => (s, { published := [], committed := commitWaitMode.isSome })
      | some m =>
        let handled := handlerCallback s m
        (handled.1, { published := handled.2, committed := commitWaitMode.isSome })

section

variable {M C S : Type} {msgNames : List String} {mode : Option RdKafkaCommitMode}
  {handlerCallback : S → M → S × List C} {s : S} {msg : KafkaMessage M}

/-- A message that is not ignored goes through the handler. -/
theorem consume_handled {m : M} (hvalue : msg.value = some (some m))
    (hignored : msg.isIgnored msgNames = false) :
    consume msgNames mode handlerCallback s msg =
      ((handlerCallback s m).1,
        { published := (handlerCallback s m).2, committed := mode.isSome }) := by
  rw [consume, hvalue]
  dsimp only
  rw [hignored, if_neg Bool.false_ne_true]

theorem isIgnored_of_contains {name : String} (h : name ∈ msgNames)
    (hname : msg.msgName = none ∨ msg.msgName = some name) : msg.isIgnored msgNames = false := by
  rw [KafkaMessage.isIgnored]
  rcases hname with hname | hname
  · rw [hname]
  · rw [hname]
    simp [h]

end

end Infrastructure
end PocArchitecture
