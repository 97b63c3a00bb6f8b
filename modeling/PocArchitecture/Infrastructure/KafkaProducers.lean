/-
The three producers a configuration can choose from.

`RDKafkaProducer` hands its messages over one by one, `KafkajsProducer` groups them by topic
and hands over the groups, and `KafkaGenericProducer` hands over one list for all topics.
Each topic gets the same keys and values in the same order, as long as every message can be
written as JSON.  They differ in what a message that cannot be written takes with it, and
the generic producer leaves every choice of a partition to its client.
-/
import PocArchitecture.Infrastructure.ProducerPromise
import PocArchitecture.Lib.Grouping
import Mathlib.Data.List.Sort
import Mathlib.Data.List.TakeWhile

namespace PocArchitecture
namespace Infrastructure

/-- What `JSON.stringify` makes of a message. -/
inductive Stringified where
  | text (text : String)
  | undefined
  | throws (message : String)

namespace Stringified

def text? : Stringified → Option String
  | text s => some s
  | _ => none

def thrown : Stringified → Option String
  | throws message => some message
  | _ => none

end Stringified

/-- What the producers read of a message; `none` is `undefined`. -/
structure IMessage where
  msgType : Option Nat
  msgName : Option String
  msgKey : Option String
  msgTopic : String
  msgPartition : MsgPartition
  stringified : Stringified

namespace IMessage

def hasText (m : IMessage) : Bool := m.stringified.text?.isSome

def throws (m : IMessage) : Bool := m.stringified.thrown.isSome

end IMessage

/-- A key, a value and the partition that has been chosen, as a client gets them. -/
structure ClientRecord where
  key : Option String
  value : Option String
  partition : Option Nat
  deriving DecidableEq

/-- Only a number chooses a partition. -/
def MsgPartition.chosen : MsgPartition → Option Nat
  | number partition => some partition
  | _ => none

def IMessage.record (m : IMessage) : ClientRecord :=
  { key := m.msgKey, value := m.stringified.text?, partition := m.msgPartition.chosen }

/-- The messages of a topic, in the order of the list. -/
def recordsFor (topic : String) (messages : List IMessage) : List ClientRecord :=
  (messages.filter (·.msgTopic = topic)).map IMessage.record

def ClientRecord.unplaced (r : ClientRecord) : ClientRecord := { r with partition := none }

/-! ## rdkafka -/

namespace RDKafkaProducer

/-- What the `try` of the loop throws for a message: `JSON.stringify`, or `Buffer.from` for
`undefined`, with the text of its error. -/
def thrown (bufferError : String) (m : IMessage) : Option String :=
  match m.stringified with
  | .text _ => none
  | .undefined => some bufferError
  | .throws message => some message

def kafkaMessage (m : IMessage) : KafkaMessage :=
  { msgType := m.msgType, msgName := m.msgName, msgKey := m.msgKey, msgTopic := m.msgTopic
    msgPartition := m.msgPartition, text := m.stringified.text?.getD "" }

/-- A call of `send` up to the end of its loop, before any acknowledgement. -/
def sending (bufferError : String) (messages : List IMessage) : Sending :=
  Machine.run Sending.step (Sending.start (messages.map kafkaMessage))
    (messages.map fun m => .next (thrown bufferError m))

def ProduceCall.record (call : ProduceCall) : ClientRecord :=
  { key := call.key, value := some call.value, partition := call.partition.chosen }

def recordsTo (topic : String) (calls : List ProduceCall) : List ClientRecord :=
  (calls.filter (·.topic = topic)).map ProduceCall.record

end RDKafkaProducer

/-! ## kafkajs -/

/-- The number of a key of an object that counts as an index of an array. -/
def arrayIndex (key : String) : Option Nat :=
  key.toNat?.filter fun n => toString n = key ∧ n < 4294967295

/-- The properties of an object as `Object.values` lists them: the indices by their number, then
the others by their age. -/
def ownProperties {V : Type} (own : List (String × V)) : List (String × V) :=
  (own.filter fun p => (arrayIndex p.1).isSome).insertionSort
      (fun p q => (arrayIndex p.1).getD 0 ≤ (arrayIndex q.1).getD 0) ++
    own.filter fun p => !(arrayIndex p.1).isSome

namespace KafkajsProducer

/-- `partition` is absent where it is `none`. -/
structure Message where
  key : Option String
  value : Option String
  partition : Option MsgPartition

structure TopicMessages where
  topic : String
  messages : List Message

def message (kafkaMsg : IMessage) : Message :=
  { key := kafkaMsg.msgKey
    value := kafkaMsg.stringified.text?
    partition :=
      if kafkaMsg.msgPartition ≠ .null then some kafkaMsg.msgPartition else none }

/-- One round of `forEach` over the own properties of `payloadsForEachTopic`.  An assignment to
`__proto__` changes the prototype, so what is pushed there is no own property. -/
def push (payloads : List (String × List Message)) (kafkaMsg : IMessage) :
    Except String (List (String × List Message)) :=
  match kafkaMsg.stringified with
  | .throws message => .error message
  | _ =>
    if kafkaMsg.msgTopic = "__proto__" then .ok payloads
    else .ok (Grouping.addTo kafkaMsg.msgTopic (message kafkaMsg) payloads)

/-- The `topicMessages` that `send` hands to `sendBatch`, unless it throws before. -/
def send (kafkaMessages : List IMessage) : Except String (List TopicMessages) :=
  (kafkaMessages.foldlM push []).map fun payloads =>
    (ownProperties payloads).map fun p => { topic := p.1, messages := p.2 }

def Message.record (m : Message) : ClientRecord :=
  { key := m.key, value := m.value, partition := m.partition.bind MsgPartition.chosen }

def recordsTo (topic : String) : Except String (List TopicMessages) → List ClientRecord
  | .ok topicMessages =>
    (topicMessages.filter (·.topic = topic)).flatMap fun t => t.messages.map Message.record
  | .error _ => []

end KafkajsProducer

/-! ## kafka-node -/

namespace KafkaGenericProducer

structure Payload where
  topic : String
  key : Option String
  messages : String

/-- The error of one round of `forEach`, which goes on with the next message. -/
def error (kafkaMsg : IMessage) : Option String :=
  match kafkaMsg.stringified with
  | .text _ => none
  | .undefined => some "KafkaProducer - invalid or empty message"
  | .throws _ => some "KafkaProducer - Error parsing message"

def payload (kafkaMsg : IMessage) : Option Payload :=
  kafkaMsg.stringified.text?.map fun text =>
    { topic := kafkaMsg.msgTopic, key := kafkaMsg.msgKey, messages := text }

/-- What is handed to the client, and the error the promise is rejected with on the next tick. -/
def send (kafkaMessages : List IMessage) : List Payload × Option String :=
  (kafkaMessages.filterMap payload, kafkaMessages.findSome? error)

def Payload.record (p : Payload) : ClientRecord :=
  { key := p.key, value := some p.messages, partition := none }

def recordsTo (topic : String) (payloads : List Payload) : List ClientRecord :=
  (payloads.filter (·.topic = topic)).map Payload.record

end KafkaGenericProducer

/-! ## What each of them hands over -/

namespace RDKafkaProducer

variable {bufferError : String}

theorem thrown_eq_none_iff {m : IMessage} : thrown bufferError m = none ↔ m.hasText = true := by
  rw [thrown, IMessage.hasText]
  cases m.stringified <;> simp [Stringified.text?]

/-- Nothing is left to do after an error. -/
theorem run_next_nil {s : Sending} (h : s.todo = []) (thrown : List (Option String)) :
    Machine.run Sending.step s (thrown.map .next) = s := by
  induction thrown with
  | nil => rfl
  | cons t thrown ih =>
    have hstep : s.step (.next t) = s := by
      rw [Sending.step, h]
    rw [List.map_cons, Machine.run, List.foldl_cons, hstep]
    exact ih

/-- The loop hands over the messages before the first that throws, which rejects the promise. -/
theorem run_next (s : Sending) (messages : List IMessage)
    (htodo : s.todo = messages.map kafkaMessage) :
    (Machine.run Sending.step s (messages.map fun m => .next (thrown bufferError m))).produced =
        s.produced ++
          (messages.takeWhile IMessage.hasText).map (fun m => produceCall (kafkaMessage m)) ∧
      (Machine.run Sending.step s (messages.map fun m => .next (thrown bufferError m))).promise =
        s.promise.or
          ((messages.findSome? (thrown bufferError)).map fun e => .error (.error e)) := by
  induction messages generalizing s with
  | nil => exact ⟨(List.append_nil _).symm, Option.or_none.symm⟩
  | cons m messages ih =>
    rw [List.map_cons, Machine.run, List.foldl_cons]
    cases hthrown : thrown bufferError m with
    | none =>
      have hstep : s.step (.next none) =
          { s with
            todo := messages.map kafkaMessage
            produced := s.produced ++ [produceCall (kafkaMessage m)]
            awaited := s.awaited ++ [s.produced.length] } := by
        rw [Sending.step, htodo]
        rfl
      obtain ⟨hproduced, hpromise⟩ := ih (s.step (.next none)) (by rw [hstep])
      rw [List.takeWhile_cons_of_pos (thrown_eq_none_iff.mp hthrown), List.findSome?_cons, hthrown,
        List.map_cons]
      refine ⟨hproduced.trans ?_, hpromise.trans ?_⟩
      · rw [hstep, List.append_assoc]
        rfl
      · rw [hstep]
    | some e =>
      have hstep : s.step (.next (some e)) =
          Sending.settle { s with todo := [], thrown := some e } (.error (.error e)) := by
        rw [Sending.step, htodo]
        rfl
      have hrest := run_next_nil (s := s.step (.next (some e))) (by rw [hstep]; rfl)
        (messages.map (thrown bufferError))
      rw [List.map_map, Machine.run] at hrest
      have htext : ¬ m.hasText = true := fun h => by
        rw [thrown_eq_none_iff.mpr h] at hthrown
        cases hthrown
      rw [List.takeWhile_cons_of_neg htext, List.findSome?_cons, hthrown, List.map_nil,
        List.append_nil]
      refine ⟨(congrArg Sending.produced hrest).trans ?_, (congrArg Sending.promise hrest).trans ?_⟩
      · rw [hstep]
        rfl
      · rw [hstep]
        rfl

/-- A topic gets its share of what comes before the first error. -/
theorem recordsTo_sending (bufferError topic : String) (messages : List IMessage) :
    recordsTo topic (sending bufferError messages).produced =
      recordsFor topic (messages.takeWhile IMessage.hasText) := by
  have hproduced := (@run_next bufferError
    (Sending.start (messages.map kafkaMessage)) messages rfl).1
  rw [sending, hproduced]
  change recordsTo topic ([] ++ _) = _
  rw [List.nil_append, recordsTo, List.filter_map, List.map_map, recordsFor]
  refine List.map_congr_left fun m hm => ?_
  have htext : m.hasText = true :=
    List.mem_takeWhile_imp (List.mem_of_mem_filter hm)
  obtain ⟨text, htext⟩ := Option.isSome_iff_exists.mp htext
  change ({ key := m.msgKey, value := some (m.stringified.text?.getD ""),
            partition := m.msgPartition.argument.chosen } : ClientRecord) =
    { key := m.msgKey, value := m.stringified.text?, partition := m.msgPartition.chosen }
  rw [htext, MsgPartition.argument]
  cases m.msgPartition <;> rfl

end RDKafkaProducer

theorem ownProperties_perm {V : Type} (own : List (String × V)) : (ownProperties own).Perm own :=
  ((List.perm_insertionSort _ _).append_right _).trans (List.filter_append_perm _ own)

namespace KafkajsProducer

theorem push_of_not_throws {kafkaMsg : IMessage} (h : kafkaMsg.throws = false)
    (payloads : List (String × List Message)) :
    push payloads kafkaMsg =
      if kafkaMsg.msgTopic = "__proto__" then .ok payloads
      else .ok (Grouping.addTo kafkaMsg.msgTopic (message kafkaMsg) payloads) := by
  rw [IMessage.throws] at h
  rw [push]
  cases hs : kafkaMsg.stringified with
  | throws e =>
    rw [hs] at h
    cases h
  | _ => rfl

/-- Without an error the payloads are the groups of the messages. -/
theorem foldlM_push {kafkaMessages : List IMessage}
    (h : kafkaMessages.any IMessage.throws = false) :
    kafkaMessages.foldlM push [] =
      .ok (Grouping.groupBy IMessage.msgTopic message
        (kafkaMessages.filter (·.msgTopic ≠ "__proto__"))) := by
  induction kafkaMessages using List.reverseRecOn with
  | nil => rfl
  | append_singleton kafkaMessages m ih =>
    rw [List.any_append, Bool.or_eq_false_iff] at h
    have hm : m.throws = false := by simpa using h.2
    rw [List.foldlM_append, ih h.1]
    change (List.foldlM push _ [m]) = _
    rw [List.foldlM_cons, push_of_not_throws hm, List.filter_append, Grouping.groupBy,
      Grouping.groupBy, List.foldl_append]
    by_cases hproto : m.msgTopic = "__proto__"
    · rw [if_pos hproto, List.filter_cons_of_neg (by simpa using hproto)]
      rfl
    · rw [if_neg hproto, List.filter_cons_of_pos (by simpa using hproto)]
      rfl

/-- One message that cannot be written keeps all of them back. -/
theorem foldlM_push_error {kafkaMessages : List IMessage}
    (h : kafkaMessages.any IMessage.throws = true) (payloads : List (String × List Message)) :
    ∃ e, kafkaMessages.foldlM push payloads = .error e := by
  induction kafkaMessages generalizing payloads with
  | nil => cases h
  | cons m kafkaMessages ih =>
    rw [List.foldlM_cons]
    cases hm : m.throws with
    | true =>
      rw [IMessage.throws] at hm
      rw [push]
      cases hs : m.stringified with
      | throws e => exact ⟨e, rfl⟩
      | _ =>
        rw [hs] at hm
        cases hm
    | false =>
      have hrest : kafkaMessages.any IMessage.throws = true := by
        rw [List.any_cons, hm, Bool.false_or] at h
        exact h
      rw [push_of_not_throws hm]
      split
      · exact ih hrest payloads
      · exact ih hrest _

theorem record_message (m : IMessage) : (message m).record = m.record := by
  rw [Message.record, message, IMessage.record]
  cases m.msgPartition <;> rfl

/-- A topic gets all its messages, or none where one of the list cannot be written. -/
theorem recordsTo_send {topic : String} (htopic : topic ≠ "__proto__")
    (kafkaMessages : List IMessage) :
    recordsTo topic (send kafkaMessages) =
      if kafkaMessages.any IMessage.throws then [] else recordsFor topic kafkaMessages := by
  rw [send]
  split
  · rename_i h
    obtain ⟨e, he⟩ := foldlM_push_error h []
    rw [he]
    rfl
  · rename_i h
    rw [foldlM_push (Bool.eq_false_iff.mpr h)]
    change List.flatMap _ (List.filter _ (List.map _ (ownProperties _))) = _
    rw [List.filter_map, List.flatMap_map]
    change List.flatMap (fun p : String × List Message => p.2.map Message.record)
      ((ownProperties _).filter (·.1 = topic)) = _
    rw [← List.map_flatMap]
    change (Grouping.valuesOf topic (ownProperties _)).map Message.record = _
    rw [← Grouping.valuesOf_perm (ownProperties_perm _).symm (Grouping.nodup_groupBy _ _ _),
      Grouping.valuesOf_groupBy, List.map_map, List.filter_filter, recordsFor]
    have hfilter : kafkaMessages.filter (fun m => decide (m.msgTopic = topic) &&
        decide (m.msgTopic ≠ "__proto__")) = kafkaMessages.filter (·.msgTopic = topic) := by
      refine List.filter_congr fun m _ => ?_
      by_cases h : m.msgTopic = topic
      · simp [h, htopic]
      · simp [h]
    rw [hfilter]
    exact List.map_congr_left fun m _ => record_message m

end KafkajsProducer

namespace KafkaGenericProducer

/-- A topic gets what can be written of its messages. -/
theorem recordsTo_send (topic : String) (kafkaMessages : List IMessage) :
    recordsTo topic (send kafkaMessages).1 =
      (recordsFor topic (kafkaMessages.filter IMessage.hasText)).map ClientRecord.unplaced := by
  change ((kafkaMessages.filterMap payload).filter _).map Payload.record = _
  induction kafkaMessages with
  | nil => rfl
  | cons m kafkaMessages ih =>
    by_cases htext : m.hasText = true
    · obtain ⟨text, hs⟩ := Option.isSome_iff_exists.mp htext
      have hpayload : payload m =
          some { topic := m.msgTopic, key := m.msgKey, messages := text } := by
        rw [payload, hs]
        rfl
      rw [List.filterMap_cons_some hpayload, List.filter_cons_of_pos htext, recordsFor,
        List.filter_cons, List.filter_cons]
      by_cases htopic : m.msgTopic = topic
      · rw [if_pos (by simpa using htopic), if_pos (by simpa using htopic), List.map_cons,
          List.map_cons, List.map_cons, ih, recordsFor]
        refine congrArg₂ List.cons ?_ rfl
        rw [IMessage.record, hs]
        rfl
      · rw [if_neg (by simpa using htopic), if_neg (by simpa using htopic), ih, recordsFor]
    · have hs : m.stringified.text? = none := Option.not_isSome_iff_eq_none.mp htext
      have hpayload : payload m = none := by
        rw [payload, hs]
        rfl
      rw [List.filterMap_cons_none hpayload, List.filter_cons_of_neg htext, ih]

theorem error_eq_none_iff {m : IMessage} : error m = none ↔ m.hasText = true := by
  rw [error, IMessage.hasText]
  cases m.stringified <;> simp [Stringified.text?]

end KafkaGenericProducer

/-! ## Whichever client it is -/

theorem IMessage.throws_of_hasText {m : IMessage} (h : m.hasText = true) : m.throws = false := by
  rw [hasText] at h
  rw [throws]
  cases hs : m.stringified with
  | text s => rfl
  | _ =>
    rw [hs] at h
    cases h

/-- The call of `sendBatch` is reached unless a message throws. -/
theorem KafkajsProducer.exists_send_iff {kafkaMessages : List IMessage} :
    (∃ topicMessages, KafkajsProducer.send kafkaMessages = .ok topicMessages) ↔
      kafkaMessages.any IMessage.throws = false := by
  rw [KafkajsProducer.send]
  cases h : kafkaMessages.any IMessage.throws with
  | false =>
    rw [foldlM_push h]
    exact iff_of_true ⟨_, rfl⟩ rfl
  | true =>
    obtain ⟨e, he⟩ := foldlM_push_error h []
    rw [he]
    exact iff_of_false (fun ⟨_, hok⟩ => by cases hok) (fun h => by cases h)

/-- What a topic gets of a list, and when the call is rejected before an acknowledgement: with
rdkafka the messages before the first without a text, with kafkajs all unless one throws, with
kafka-node all that have a text, and these without their partition.  So the clients agree on a
list of messages that all have a text. -/
theorem clients_agree (bufferError : String) (messages : List IMessage) {topic : String}
    (htopic : topic ≠ "__proto__") :
    (RDKafkaProducer.recordsTo topic (RDKafkaProducer.sending bufferError messages).produced =
        recordsFor topic (messages.takeWhile IMessage.hasText) ∧
      ((RDKafkaProducer.sending bufferError messages).promise = none ↔
        ∀ m ∈ messages, m.hasText = true)) ∧
    (KafkajsProducer.recordsTo topic (KafkajsProducer.send messages) =
        (if messages.any IMessage.throws then [] else recordsFor topic messages) ∧
      ((∃ topicMessages, KafkajsProducer.send messages = .ok topicMessages) ↔
        messages.any IMessage.throws = false)) ∧
    (KafkaGenericProducer.recordsTo topic (KafkaGenericProducer.send messages).1 =
        (recordsFor topic (messages.filter IMessage.hasText)).map ClientRecord.unplaced ∧
      ((KafkaGenericProducer.send messages).2 = none ↔ ∀ m ∈ messages, m.hasText = true)) ∧
    ((∀ m ∈ messages, m.hasText = true) →
      RDKafkaProducer.recordsTo topic (RDKafkaProducer.sending bufferError messages).produced =
          recordsFor topic messages ∧
        KafkajsProducer.recordsTo topic (KafkajsProducer.send messages) =
          recordsFor topic messages ∧
        KafkaGenericProducer.recordsTo topic (KafkaGenericProducer.send messages).1 =
          (recordsFor topic messages).map ClientRecord.unplaced) := by
  have hrdkafka := RDKafkaProducer.recordsTo_sending bufferError topic messages
  have hkafkajs := KafkajsProducer.recordsTo_send htopic messages
  have hgeneric := KafkaGenericProducer.recordsTo_send topic messages
  refine ⟨⟨hrdkafka, ?_⟩, ⟨hkafkajs, KafkajsProducer.exists_send_iff⟩, ⟨hgeneric, ?_⟩, fun h => ?_⟩
  · have hpromise := (@RDKafkaProducer.run_next bufferError
      (RDKafkaProducer.Sending.start (messages.map RDKafkaProducer.kafkaMessage)) messages rfl).2
    rw [RDKafkaProducer.sending, hpromise]
    change Option.or none _ = none ↔ _
    rw [Option.none_or, Option.map_eq_none_iff, List.findSome?_eq_none_iff]
    exact forall₂_congr fun m _ => RDKafkaProducer.thrown_eq_none_iff
  · rw [KafkaGenericProducer.send, List.findSome?_eq_none_iff]
    exact forall₂_congr fun m _ => KafkaGenericProducer.error_eq_none_iff
  · have hthrows : messages.any IMessage.throws = false := by
      rw [List.any_eq_false]
      intro m hm
      rw [IMessage.throws_of_hasText (h m hm)]
      exact Bool.false_ne_true
    have htake : messages.takeWhile IMessage.hasText = messages :=
      List.takeWhile_eq_self_iff.mpr h
    have hfilter : messages.filter IMessage.hasText = messages := List.filter_eq_self.mpr h
    rw [hrdkafka, hkafkajs, hgeneric, htake, hfilter, hthrows, if_neg Bool.false_ne_true]
    exact ⟨rfl, rfl, rfl⟩

def sampleIMessage (topic key : String) (stringified : Stringified) : IMessage :=
  { msgType := some 3, msgName := some "Cmd", msgKey := some key, msgTopic := topic
    msgPartition := .undefined, stringified := stringified }

def sampleIMessages : List IMessage :=
  [sampleIMessage "TransfersCommands" "t1" (.text "\x7b\x7d"),
    sampleIMessage "ParticipantCommands" "blue" (.text "\x7b\x7d"),
    sampleIMessage "TransfersCommands" "t2" (.throws "Converting circular structure to JSON"),
    sampleIMessage "TransfersCommands" "t3" (.text "\x7b\x7d")]

def sampleRecord (key : String) : ClientRecord :=
  { key := some key, value := some "\x7b\x7d", partition := none }

theorem clients_agree_sample :
    RDKafkaProducer.recordsTo "TransfersCommands"
        (RDKafkaProducer.sending "" sampleIMessages).produced = [sampleRecord "t1"] ∧
      KafkajsProducer.recordsTo "TransfersCommands" (KafkajsProducer.send sampleIMessages) = [] ∧
      KafkaGenericProducer.recordsTo "TransfersCommands"
        (KafkaGenericProducer.send sampleIMessages).1 = [sampleRecord "t1", sampleRecord "t3"] := by
  obtain ⟨⟨hrdkafka, -⟩, ⟨hkafkajs, -⟩, ⟨hgeneric, -⟩, -⟩ :=
    @clients_agree "" sampleIMessages "TransfersCommands" (by decide)
  rw [hrdkafka, hkafkajs, hgeneric]
  decide +kernel

/-- A topic may have this name, and then kafkajs is handed nothing for it. -/
example : KafkajsProducer.recordsTo "__proto__"
    (KafkajsProducer.send [sampleIMessage "__proto__" "t1" (.text "\x7b\x7d")]) = [] := by
  decide +kernel

end Infrastructure
end PocArchitecture
