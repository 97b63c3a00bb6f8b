/-
`RDKafkaProducer.send`, and where Kafka puts a message.

The producer hands the message's partition on as it is, unset or not; an unset one leaves
the choice to the partitioner, a fixed function of the key.
-/
import PocArchitecture.Domain.Publisher

namespace PocArchitecture
namespace Infrastructure

open Domain (PublishOutcome)

inductive MsgPartition where
  | undefined
  | null
  | number (partition : Nat)
  deriving DecidableEq

/-- `(kafkaMsg.msgPartition !== null) ? kafkaMsg.msgPartition : null` -/
def MsgPartition.argument (msgPartition : MsgPartition) : MsgPartition :=
  if msgPartition ≠ null then msgPartition else null

structure OutgoingMessage (M : Type) where
  message : M
  msgKey : String
  msgPartition : MsgPartition

/-- A message on its topic. -/
structure TopicRecord (M : Type) where
  message : M
  partition : Nat
  deriving DecidableEq

/-- Kafka's choice for the partition argument of `produce`. -/
def place (partitioner : String → Nat) (msgKey : String) : MsgPartition → Nat
  | .number partition => partition
  | .undefined | .null => partitioner msgKey

variable {M : Type} (partitioner : String → Nat)

def produce (msg : OutgoingMessage M) : TopicRecord M :=
  { message := msg.message, partition := place partitioner msg.msgKey msg.msgPartition.argument }

/-- The topic after a call, in the order of publication. -/
def send (outcome : PublishOutcome) (topic : List (TopicRecord M)) (msgs : List (OutgoingMessage M)) :
    List (TopicRecord M) :=
  topic ++ (outcome.delivered msgs).map (produce partitioner)

/-- What the reader of one partition gets, in the order of its offsets. -/
def partitionLog (topic : List (TopicRecord M)) (partition : Nat) : List (TopicRecord M) :=
  topic.filter (·.partition = partition)

variable {partitioner}

/-- The producer's test for null changes nothing. -/
theorem produce_partition (msg : OutgoingMessage M) :
    (produce partitioner msg).partition = place partitioner msg.msgKey msg.msgPartition := by
  rw [produce, MsgPartition.argument]
  cases msg.msgPartition <;> rfl

theorem mem_send {outcome : PublishOutcome} {topic : List (TopicRecord M)}
    {msgs : List (OutgoingMessage M)} {r : TopicRecord M} (h : r ∈ send partitioner outcome topic msgs) :
    r ∈ topic ∨ ∃ msg ∈ msgs, r = produce partitioner msg := by
  rcases List.mem_append.mp h with h | h
  · exact Or.inl h
  · obtain ⟨msg, hmsg, rfl⟩ := List.mem_map.mp h
    exact Or.inr ⟨msg, PublishOutcome.mem_of_mem_delivered hmsg, rfl⟩

end Infrastructure
end PocArchitecture
