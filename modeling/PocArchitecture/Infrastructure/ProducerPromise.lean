/-
`RDKafkaProducer.send` from the inside.

The messages of the list are handed to the client one after the other, and an error on the
way ends this and rejects the promise.  Each message that was handed over has a delivery
callback, which comes once, with an error or with null.  An error rejects; null is counted,
and the callback that counts the last one resolves.  A promise that has settled stays as it
is.  The events come in any order here, so a callback may also come before the next message
is handed over.
-/
import PocArchitecture.Infrastructure.Callbacks
import PocArchitecture.Infrastructure.Producer
import PocArchitecture.Lib.Machine
import Mathlib.Data.List.Nodup

namespace PocArchitecture
namespace Infrastructure

namespace RDKafkaProducer

/-- What `send` reads of a message.  `none` is `undefined`, and `text` is `JSON.stringify` of
the whole. -/
structure KafkaMessage where
  msgType : Option Nat
  msgName : Option String
  msgKey : Option String
  msgTopic : String
  msgPartition : MsgPartition
  text : String

/-- The arguments of `produce`; the timestamp is always null. -/
structure ProduceCall where
  topic : String
  partition : MsgPartition
  value : String
  key : Option String
  headers : List (String × String)

def produceCall (kafkaMsg : KafkaMessage) : ProduceCall :=
  { topic := kafkaMsg.msgTopic
    partition := kafkaMsg.msgPartition.argument
    value := kafkaMsg.text
    key := kafkaMsg.msgKey
    headers := [("msgType", (kafkaMsg.msgType.map toString).getD ""),
      ("msgName", kafkaMsg.msgName.getD ""), ("msgKey", kafkaMsg.msgKey.getD "")] }

/-- `next` is the turn of the next message of the list, with what is thrown in its `try`. -/
inductive SendEvent where
  | next (thrown : Option String)
  | delivered (number : Nat) (err : Reason)

/-- A `send` under way: the messages to go, those handed over, what ended the loop, the
callbacks still to come and those that came, and the variables of the executor. -/
structure Sending where
  todo : List KafkaMessage
  produced : List ProduceCall
  thrown : Option String
  awaited : List Nat
  reports : List (Nat × Reason)
  rejected : Bool
  acksRemaining : Int
  promise : Option (Promise Unit)

namespace Sending

def start (messages : List KafkaMessage) : Sending :=
  { todo := messages, produced := [], thrown := none, awaited := [], reports := []
    rejected := false, acksRemaining := messages.length, promise := none }

/-- `resolve` and `reject`, of which the first call counts. -/
def settle (s : Sending) (p : Promise Unit) : Sending := { s with promise := s.promise.or (some p) }

/-- The delivery callback. -/
def onDelivery (s : Sending) (err : Reason) : Sending :=
  if err ≠ .null then
    if !s.rejected then settle { s with rejected := true } (.error err) else s
  else
    let s := { s with acksRemaining := s.acksRemaining - 1 }
    if s.acksRemaining ≤ 0 then settle s (.ok ()) else s

def step (s : Sending) : SendEvent → Sending
  | .next thrown =>
    match s.todo with
    | [] => s
    | kafkaMsg :: kafkaMsgs =>
      match thrown with
      -- the error leaves `forEach` and the executor
      | some message =>
        settle { s with todo := [], thrown := some message } (.error (.error message))
      | none =>
        { s with
          todo := kafkaMsgs
          produced := s.produced ++ [produceCall kafkaMsg]
          awaited := s.awaited ++ [s.produced.length] }
  | .delivered n err =>
    if n ∈ s.awaited then
      onDelivery { s with awaited := s.awaited.erase n, reports := s.reports ++ [(n, err)] } err
    else s

/-- The list is through, or its loop ended, and all callbacks have come. -/
def Finished (s : Sending) : Prop := s.todo = [] ∧ s.awaited = []

/-- `publish` makes a list of its message, and `publishMany` hands its list on. -/
def publish (message : KafkaMessage) : Sending := start [message]

def publishMany (messages : List KafkaMessage) : Sending := start messages

example (message : KafkaMessage) : publish message = publishMany [message] := rfl

/-- Every message of the list was handed over and acknowledged without an error. -/
def AllAcknowledged (messages : List KafkaMessage) (s : Sending) : Prop :=
  s.produced = messages.map produceCall ∧ ∀ i < messages.length, (i, Reason.null) ∈ s.reports

/-- The promise is resolved if all went well, and rejected if not. -/
structure SettledTruly (messages : List KafkaMessage) (s : Sending) : Prop where
  resolves_iff : s.promise = some (.ok ()) ↔ AllAcknowledged messages s
  rejects_iff : (∃ err, s.promise = some (.error err)) ↔ ¬ AllAcknowledged messages s

/-- What the variables of the executor say about the promise. -/
def PromiseFits (s : Sending) : Prop :=
  match s.promise with
  | none => s.thrown = none ∧ s.rejected = false ∧ (s.reports = [] ∨ 0 < s.acksRemaining)
  | some (.ok ()) =>
    s.thrown = none ∧ s.rejected = false ∧ s.reports ≠ [] ∧ s.acksRemaining = 0
  | some (.error _) => s.thrown ≠ none ∨ s.rejected = true

/-- The callbacks that came without an error. -/
def acks (reports : List (Nat × Reason)) : Nat := reports.countP fun r => r.2 = .null

structure Inv (messages : List KafkaMessage) (s : Sending) : Prop where
  handed : (s.thrown = none ∧ s.produced ++ s.todo.map produceCall = messages.map produceCall) ∨
    (s.thrown ≠ none ∧ s.todo = [] ∧ s.produced.length < messages.length)
  numbers : (s.awaited ++ s.reports.map Prod.fst).Perm (List.range s.produced.length)
  acks_eq : s.acksRemaining = messages.length - acks s.reports
  rejected_iff : s.rejected = true ↔ ∃ r ∈ s.reports, r.2 ≠ .null
  fits : PromiseFits s

variable {messages : List KafkaMessage} {s : Sending}

theorem inv_start (messages : List KafkaMessage) : Inv messages (start messages) where
  handed := Or.inl ⟨rfl, rfl⟩
  numbers := List.Perm.refl []
  acks_eq := (Int.sub_zero _).symm
  rejected_iff := by simp [start]
  fits := ⟨rfl, rfl, Or.inl rfl⟩

/-- Each message handed over is still awaited or has been reported. -/
theorem Inv.produced_length (h : Inv messages s) :
    s.awaited.length + s.reports.length = s.produced.length := by
  have hlength := h.numbers.length_eq
  rwa [List.length_append, List.length_map, List.length_range] at hlength

theorem Inv.produced_add_todo_le (h : Inv messages s) :
    s.produced.length + s.todo.length ≤ messages.length := by
  rcases h.handed with ⟨-, heq⟩ | ⟨-, hnil, hlt⟩
  · have hlength := congrArg List.length heq
    simp only [List.length_append, List.length_map] at hlength
    omega
  · rw [hnil, List.length_nil]
    omega

theorem Inv.acks_nonneg (h : Inv messages s) :
    s.awaited.length + s.todo.length ≤ s.acksRemaining := by
  have hacks := h.acks_eq
  have hproduced := h.produced_length
  have htotal := h.produced_add_todo_le
  have hcount : acks s.reports ≤ s.reports.length := List.countP_le_length
  omega

/-- While a message or a callback is to come, the promise is pending or rejected. -/
theorem Inv.unresolved (h : Inv messages s) (hopen : 0 < s.awaited.length + s.todo.length) :
    (s.promise = none ∧ s.thrown = none ∧ s.rejected = false) ∨
      ∃ err, s.promise = some (.error err) ∧ (s.thrown ≠ none ∨ s.rejected = true) := by
  have hfits := h.fits
  rw [PromiseFits] at hfits
  cases hp : s.promise with
  | none =>
    rw [hp] at hfits
    exact Or.inl ⟨rfl, hfits.1, hfits.2.1⟩
  | some p =>
    rw [hp] at hfits
    cases p with
    | ok =>
      have hacks := h.acks_nonneg
      have hzero := hfits.2.2.2
      omega
    | error err => exact Or.inr ⟨err, rfl, hfits⟩

/-- Rejecting fits when something went wrong. -/
theorem fits_reject
    (hunresolved : s.promise = none ∨ ∃ err, s.promise = some (.error err))
    (hwrong : s.thrown ≠ none ∨ s.rejected = true) (err : Reason) :
    PromiseFits (settle s (.error err)) := by
  rw [PromiseFits, settle]
  rcases hunresolved with hp | ⟨err', hp⟩ <;> rw [hp] <;> exact hwrong

theorem Inv.next (h : Inv messages s) (thrown : Option String) :
    Inv messages (step s (.next thrown)) := by
  rw [step]
  cases htodo : s.todo with
  | nil => exact h
  | cons kafkaMsg kafkaMsgs =>
    obtain ⟨hthrown, heq⟩ : s.thrown = none ∧
        s.produced ++ s.todo.map produceCall = messages.map produceCall := by
      rcases h.handed with hleft | ⟨-, hnil, -⟩
      · exact hleft
      · rw [htodo] at hnil
        cases hnil
    rw [htodo, List.map_cons] at heq
    cases thrown with
    | none =>
      refine ⟨Or.inl ⟨hthrown, ?_⟩, ?_, h.acks_eq, h.rejected_iff, h.fits⟩
      · rw [List.append_assoc]
        exact heq
      · rw [List.length_append, List.length_singleton, List.range_succ, List.append_assoc]
        refine List.Perm.trans ?_ (h.numbers.append_right [s.produced.length])
        rw [List.append_assoc]
        exact List.perm_append_comm.append_left s.awaited
    | some message =>
      refine ⟨Or.inr ⟨fun hnone => (by cases hnone), rfl, ?_⟩, h.numbers, h.acks_eq,
        h.rejected_iff, ?_⟩
      · have hlength := congrArg List.length heq
        simp only [List.length_append, List.length_cons, List.length_map] at hlength
        show s.produced.length < messages.length
        omega
      · refine fits_reject (s := { s with todo := [], thrown := some message }) ?_
          (Or.inl fun hnone => by cases hnone) _
        rcases h.unresolved (by rw [htodo, List.length_cons]; omega) with ⟨hp, -⟩ | ⟨err, hp, -⟩
        · exact Or.inl hp
        · exact Or.inr ⟨err, hp⟩

/-- The callback of a message is no longer awaited, but reported. -/
theorem Inv.numbers_delivered (h : Inv messages s) {n : Nat} (hn : n ∈ s.awaited) (err : Reason) :
    (s.awaited.erase n ++ (s.reports ++ [(n, err)]).map Prod.fst).Perm
      (List.range s.produced.length) := by
  rw [List.map_append, List.map_singleton, ← List.append_assoc]
  refine (List.perm_append_singleton n _).trans ?_
  rw [← List.cons_append]
  exact ((List.perm_cons_erase hn).symm.append_right _).trans h.numbers

theorem Inv.delivered_error (h : Inv messages s) {n : Nat} (hn : n ∈ s.awaited) (message : String) :
    Inv messages (onDelivery { s with
      awaited := s.awaited.erase n, reports := s.reports ++ [(n, .error message)] }
        (.error message)) := by
  have hawaited : 0 < s.awaited.length := List.length_pos_of_mem hn
  have hunresolved := h.unresolved (by omega)
  have hacks : s.acksRemaining = messages.length - acks (s.reports ++ [(n, .error message)]) := by
    rw [h.acks_eq, acks, acks, List.countP_append]
    simp
  have hwrong : ∃ r ∈ s.reports ++ [(n, Reason.error message)], r.2 ≠ .null :=
    ⟨(n, .error message), by simp, by simp⟩
  rw [onDelivery, if_pos (by simp)]
  cases hrejected : s.rejected with
  | false =>
    refine ⟨h.handed, h.numbers_delivered hn _, hacks, iff_of_true rfl hwrong, ?_⟩
    refine fits_reject (s := { s with
      awaited := s.awaited.erase n, reports := s.reports ++ [(n, .error message)]
      rejected := true }) ?_ (Or.inr rfl) _
    rcases hunresolved with ⟨hp, -⟩ | ⟨err, hp, -⟩
    · exact Or.inl hp
    · exact Or.inr ⟨err, hp⟩
  | true =>
    refine ⟨h.handed, h.numbers_delivered hn _, hacks, iff_of_true rfl hwrong, ?_⟩
    rcases hunresolved with ⟨-, -, hnot⟩ | ⟨err, hp, -⟩
    · rw [hrejected] at hnot
      cases hnot
    · rw [PromiseFits]
      dsimp only
      rw [hp]
      exact Or.inr rfl

theorem Inv.delivered_null (h : Inv messages s) {n : Nat} (hn : n ∈ s.awaited) :
    Inv messages (onDelivery { s with
      awaited := s.awaited.erase n, reports := s.reports ++ [(n, .null)] } .null) := by
  have hawaited : 0 < s.awaited.length := List.length_pos_of_mem hn
  have hpos := h.acks_nonneg
  have hacks : s.acksRemaining - 1 = messages.length - acks (s.reports ++ [(n, .null)]) := by
    rw [h.acks_eq, acks, acks, List.countP_append]
    simp
    omega
  have hrejected : s.rejected = true ↔ ∃ r ∈ s.reports ++ [(n, Reason.null)], r.2 ≠ .null := by
    rw [h.rejected_iff]
    simp
  rw [onDelivery, if_neg (by simp)]
  dsimp only
  split
  · rename_i hlast
    refine ⟨h.handed, h.numbers_delivered hn _, hacks, hrejected, ?_⟩
    rw [PromiseFits, settle]
    dsimp only
    rcases h.unresolved (by omega) with ⟨hp, hthrown, hnot⟩ | ⟨err, hp, hwrong⟩
    · rw [hp]
      exact ⟨hthrown, hnot, List.append_ne_nil_of_right_ne_nil _ (List.cons_ne_nil _ _), by omega⟩
    · rw [hp]
      exact hwrong
  · rename_i hmore
    refine ⟨h.handed, h.numbers_delivered hn _, hacks, hrejected, ?_⟩
    rw [PromiseFits]
    dsimp only
    rcases h.unresolved (by omega) with ⟨hp, hthrown, hnot⟩ | ⟨err, hp, hwrong⟩
    · rw [hp]
      exact ⟨hthrown, hnot, Or.inr (by omega)⟩
    · rw [hp]
      exact hwrong

theorem Inv.delivered (h : Inv messages s) (n : Nat) (err : Reason) :
    Inv messages (step s (.delivered n err)) := by
  rw [step]
  split
  · rename_i hn
    cases err with
    | error message => exact h.delivered_error hn message
    | null => exact h.delivered_null hn
  · exact h

theorem Inv.step (h : Inv messages s) (e : SendEvent) : Inv messages (step s e) := by
  cases e with
  | next thrown => exact h.next thrown
  | delivered n err => exact h.delivered n err

/-- At the end all went well exactly if nothing was thrown and nothing reported. -/
theorem Inv.allAcknowledged_iff (h : Inv messages s) (hfinished : s.Finished) :
    AllAcknowledged messages s ↔ s.thrown = none ∧ s.rejected = false := by
  obtain ⟨htodo, hawaited⟩ := hfinished
  have hnumbers := h.numbers
  rw [hawaited, List.nil_append] at hnumbers
  constructor
  · rintro ⟨hproduced, hall⟩
    have hlength : s.produced.length = messages.length := by rw [hproduced, List.length_map]
    refine ⟨?_, ?_⟩
    · rcases h.handed with ⟨hthrown, -⟩ | ⟨-, -, hlt⟩
      · exact hthrown
      · exact absurd hlength (Nat.ne_of_lt hlt)
    · rw [← Bool.not_eq_true, h.rejected_iff]
      rintro ⟨⟨i, err⟩, hmem, herr⟩
      have hi : i < messages.length := by
        rw [← hlength, ← List.mem_range]
        exact hnumbers.subset (List.mem_map_of_mem hmem)
      -- a callback comes once
      have hnodup : (s.reports.map Prod.fst).Nodup := hnumbers.nodup_iff.mpr List.nodup_range
      have hsame := List.inj_on_of_nodup_map hnodup hmem (hall i hi) rfl
      exact herr (congrArg Prod.snd hsame)
  · rintro ⟨hthrown, hrejected⟩
    have hproduced : s.produced = messages.map produceCall := by
      rcases h.handed with ⟨-, heq⟩ | ⟨hne, -⟩
      · rwa [htodo, List.map_nil, List.append_nil] at heq
      · exact absurd hthrown hne
    refine ⟨hproduced, fun i hi => ?_⟩
    have hmem : i ∈ s.reports.map Prod.fst := by
      refine hnumbers.symm.subset (List.mem_range.mpr ?_)
      rw [hproduced, List.length_map]
      exact hi
    obtain ⟨⟨j, err⟩, hreport, rfl⟩ := List.mem_map.mp hmem
    have hnull : err = .null := by
      by_contra herr
      rw [h.rejected_iff.mpr ⟨_, hreport, herr⟩] at hrejected
      cases hrejected
    rw [← hnull]
    exact hreport

/-- All acknowledgements have been counted down. -/
theorem Inv.acks_zero (h : Inv messages s) (hfinished : s.Finished)
    (hall : AllAcknowledged messages s) : s.acksRemaining = 0 := by
  have hnulls : acks s.reports = s.reports.length := by
    refine List.countP_eq_length.mpr fun r hr => decide_eq_true ?_
    by_contra hnull
    have hrejected := h.rejected_iff.mpr ⟨r, hr, hnull⟩
    rw [((h.allAcknowledged_iff hfinished).mp hall).2] at hrejected
    cases hrejected
  have hproduced := h.produced_length
  rw [hfinished.2, List.length_nil, hall.1, List.length_map] at hproduced
  have hacks := h.acks_eq
  omega

theorem Inv.settledTruly (h : Inv messages s) (hfinished : s.Finished) (hne : messages ≠ []) :
    SettledTruly messages s := by
  have hall := h.allAcknowledged_iff hfinished
  have hfits := h.fits
  rw [PromiseFits] at hfits
  cases hp : s.promise with
  | none =>
    exfalso
    rw [hp] at hfits
    obtain ⟨hthrown, hrejected, hopen⟩ := hfits
    have hgood := hall.mpr ⟨hthrown, hrejected⟩
    rcases hopen with hnil | hpos
    · have hfirst := hgood.2 0 (List.length_pos_of_ne_nil hne)
      rw [hnil] at hfirst
      cases hfirst
    · rw [h.acks_zero hfinished hgood] at hpos
      exact Int.lt_irrefl 0 hpos
  | some p =>
    rw [hp] at hfits
    cases p with
    | ok =>
      have hgood := hall.mpr ⟨hfits.1, hfits.2.1⟩
      refine ⟨iff_of_true hp hgood, iff_of_false ?_ fun hnot => hnot hgood⟩
      rintro ⟨err, herr⟩
      rw [hp] at herr
      cases herr
    | error err =>
      have hbad : ¬ AllAcknowledged messages s := by
        rw [hall]
        rintro ⟨hthrown, hrejected⟩
        rcases hfits with hne | htrue
        · exact hne hthrown
        · rw [hrejected] at htrue
          cases htrue
      refine ⟨iff_of_false (fun hok => ?_) hbad, iff_of_true ⟨err, hp⟩ hbad⟩
      rw [hp] at hok
      cases hok

/-- Without a message there is no callback, and nobody settles the promise. -/
theorem Inv.pending_of_nil (h : Inv [] s) : s.promise = none ∧ AllAcknowledged [] s := by
  have htotal := h.produced_add_todo_le
  rw [List.length_nil] at htotal
  have hproduced := h.produced_length
  have hnil : s.reports = [] := List.eq_nil_of_length_eq_zero (by omega)
  have hfits := h.fits
  rw [PromiseFits] at hfits
  refine ⟨?_, List.eq_nil_of_length_eq_zero (by omega), fun i hi => ?_⟩
  · cases hp : s.promise with
    | none => rfl
    | some p =>
      exfalso
      rw [hp] at hfits
      cases p with
      | ok => exact hfits.2.2.1 hnil
      | error err =>
        rcases hfits with hthrown | hrejected
        · rcases h.handed with ⟨hnone, -⟩ | ⟨-, -, hlt⟩
          · exact hthrown hnone
          · exact Nat.not_lt_zero _ hlt
        · obtain ⟨r, hr, -⟩ := h.rejected_iff.mp hrejected
          rw [hnil] at hr
          cases hr
  · exact absurd hi (Nat.not_lt_zero i)

/-- Once the list is through and all callbacks have come, whatever their order and their
errors: the promise has settled and tells the truth exactly if the list was not empty. -/
theorem settles_truly_iff (messages : List KafkaMessage) (es : List SendEvent)
    (hfinished : (Machine.run step (start messages) es).Finished) :
    SettledTruly messages (Machine.run step (start messages) es) ↔ messages ≠ [] := by
  have hinv : Inv messages (Machine.run step (start messages) es) :=
    Machine.run_always (fun _ e h => h.step e) (inv_start messages) es
  constructor
  · rintro htruly rfl
    obtain ⟨hpending, hall⟩ := hinv.pending_of_nil
    have hok := htruly.resolves_iff.mpr hall
    rw [hpending] at hok
    cases hok
  · exact hinv.settledTruly hfinished

def sampleMessage : KafkaMessage :=
  { msgType := some 2, msgName := some "TransferPreparedEvt", msgKey := some "t1"
    msgTopic := "TransferEvents", msgPartition := .null, text := "\x7b\x7d" }

/-- Two messages, the second acknowledged first. -/
theorem settles_truly_iff_sample :
    SettledTruly [sampleMessage, sampleMessage]
        (Machine.run step (start [sampleMessage, sampleMessage])
        [.next none, .next none, .delivered 1 .null, .delivered 0 .null]) ↔
      [sampleMessage, sampleMessage] ≠ [] :=
  settles_truly_iff [sampleMessage, sampleMessage]
    [.next none, .next none, .delivered 1 .null, .delivered 0 .null] ⟨rfl, rfl⟩

/-- With nothing to send, everything is acknowledged at once and the promise stays pending
for ever. -/
theorem empty_list_never_settles :
    (start []).Finished ∧ ¬ SettledTruly [] (start []) ∧
      ∀ es, (Machine.run step (start []) es).promise = none := by
  have hall : AllAcknowledged [] (start []) := ⟨rfl, fun i hi => absurd hi (Nat.not_lt_zero i)⟩
  refine ⟨⟨rfl, rfl⟩, fun htruly => ?_, fun es => ?_⟩
  · cases htruly.resolves_iff.mpr hall
  · have hinv : Inv [] (Machine.run step (start []) es) :=
      Machine.run_always (fun _ e h => h.step e) (inv_start []) es
    exact hinv.pending_of_nil.1

/-! ## The outcome alone -/

/-- A promise that has settled stays as it is. -/
theorem promise_stays {p : Promise Unit} (hp : s.promise = some p) (e : SendEvent) :
    (step s e).promise = some p := by
  have hsettle : ∀ (t : Sending) (q : Promise Unit), t.promise = some p →
      (settle t q).promise = some p := by
    intro t q ht
    rw [settle, ht]
    rfl
  cases e with
  | next thrown =>
    rw [step]
    cases s.todo with
    | nil => exact hp
    | cons kafkaMsg kafkaMsgs =>
      cases thrown with
      | none => exact hp
      | some message => exact hsettle _ _ hp
  | delivered n err =>
    rw [step]
    split
    · rw [onDelivery]
      split
      · split
        · exact hsettle _ _ hp
        · exact hp
      · dsimp only
        split
        · exact hsettle _ _ hp
        · exact hp
    · exact hp

theorem delivered_thrown (s : Sending) (n : Nat) (err : Reason) :
    (step s (.delivered n err)).thrown = s.thrown := by
  rw [step]
  split
  · rw [onDelivery]
    split
    · split <;> rfl
    · dsimp only
      split <;> rfl
  · rfl

/-- A rejection without an error thrown is the first report that is not null. -/
def RejectsFirst (s : Sending) : Prop :=
  s.thrown = none → ∀ err, s.promise = some (.error err) →
    (s.reports.map Prod.snd).find? (· ≠ .null) = some err

theorem onDelivery_reports (s : Sending) (err : Reason) :
    (onDelivery s err).reports = s.reports := by
  rw [onDelivery]
  split
  · split <;> rfl
  · dsimp only
    split <;> rfl

/-- A rejection that a callback finds or brings about. -/
theorem onDelivery_rejects {err err' : Reason}
    (h : (onDelivery s err).promise = some (.error err')) :
    s.promise = some (.error err') ∨
      s.promise = none ∧ s.rejected = false ∧ err ≠ .null ∧ err = err' := by
  rw [onDelivery] at h
  split at h
  · rename_i herr
    split at h
    · rename_i hrejected
      change s.promise.or (some (.error err)) = some (.error err') at h
      cases hp : s.promise with
      | none =>
        rw [hp, Option.none_or] at h
        exact Or.inr ⟨rfl, by simpa using hrejected, herr, Except.error.inj (Option.some.inj h)⟩
      | some p =>
        rw [hp, Option.some_or] at h
        exact Or.inl h
    · exact Or.inl h
  · dsimp only at h
    split at h
    · change s.promise.or (some (.ok ())) = some (.error err') at h
      cases hp : s.promise with
      | none =>
        rw [hp, Option.none_or] at h
        cases h
      | some p =>
        rw [hp, Option.some_or] at h
        exact Or.inl h
    · exact Or.inl h

/-- Before the first error is reported there is none to find. -/
theorem Inv.find_none (h : Inv messages s) (hrejected : s.rejected = false) :
    (s.reports.map Prod.snd).find? (· ≠ .null) = none := by
  refine List.find?_eq_none.mpr fun err herr hne => ?_
  obtain ⟨r, hr, rfl⟩ := List.mem_map.mp herr
  rw [h.rejected_iff.mpr ⟨r, hr, of_decide_eq_true hne⟩] at hrejected
  cases hrejected

theorem rejectsFirst_step (h : Inv messages s) (hfirst : RejectsFirst s) (e : SendEvent) :
    RejectsFirst (step s e) := by
  cases e with
  | next thrown =>
    rw [step]
    cases s.todo with
    | nil => exact hfirst
    | cons kafkaMsg kafkaMsgs =>
      cases thrown with
      | none => exact hfirst
      | some message => exact fun hthrown => by cases hthrown
  | delivered n err =>
    intro hthrown err' herr'
    rw [delivered_thrown] at hthrown
    by_cases hn : n ∈ s.awaited
    · rw [step, if_pos hn] at herr' ⊢
      rw [onDelivery_reports]
      dsimp only
      rw [List.map_append, List.find?_append]
      rcases onDelivery_rejects herr' with hp | ⟨-, hrejected, hne, rfl⟩
      · rw [hfirst hthrown err' hp, Option.some_or]
      · rw [h.find_none hrejected, Option.none_or]
        simp [hne]
    · rw [step, if_neg hn] at herr' ⊢
      exact hfirst hthrown err' herr'

/-- While the executor runs, only an error that is thrown rejects. -/
structure Executing (s : Sending) : Prop where
  reports_eq : s.reports = []
  promise_eq : s.promise = s.thrown.map fun message => .error (.error message)
  ended : s.thrown ≠ none → s.todo = []

theorem Executing.next (h : Executing s) (thrown : Option String) :
    Executing (step s (.next thrown)) := by
  rw [step]
  cases htodo : s.todo with
  | nil => exact h
  | cons kafkaMsg kafkaMsgs =>
    have hthrown : s.thrown = none := by
      by_contra hne
      rw [h.ended hne] at htodo
      cases htodo
    cases thrown with
    | none => exact ⟨h.reports_eq, h.promise_eq, fun hne => absurd hthrown hne⟩
    | some message =>
      refine ⟨h.reports_eq, ?_, fun _ => rfl⟩
      show s.promise.or _ = _
      rw [h.promise_eq, hthrown]
      rfl

/-- The reports in the order in which they came. -/
def deliveries (s : Sending) : Deliveries :=
  { thrown := s.thrown, report := fun k => ((s.reports[k]?).map Prod.snd).getD .null }

theorem Inv.promise_eq_of_not_thrown (h : Inv messages s) (hfirst : RejectsFirst s)
    (hfinished : s.Finished) (hne : messages ≠ []) (hthrown : s.thrown = none) :
    s.promise = some (send (deliveries s) messages.length) := by
  have htruly := h.settledTruly hfinished hne
  have hall := h.allAcknowledged_iff hfinished
  have hlength : messages.length = s.reports.length := by
    have hproduced := h.produced_length
    rw [hfinished.2, List.length_nil, Nat.zero_add] at hproduced
    rcases h.handed with ⟨-, heq⟩ | ⟨hsome, -⟩
    · rw [hfinished.1, List.map_nil, List.append_nil] at heq
      rw [hproduced, heq, List.length_map]
    · exact absurd hthrown hsome
  have hreports : (List.range messages.length).map (deliveries s).report =
      s.reports.map Prod.snd := by
    refine List.ext_getElem (by simp [hlength]) fun i hi hi' => ?_
    rw [List.length_map] at hi'
    simp [deliveries, List.getElem?_eq_getElem hi']
  have hsend : send (deliveries s) messages.length =
      ((s.reports.map Prod.snd).find? (· ≠ .null)).elim (.ok ()) .error := by
    have hnone : (deliveries s).thrown = none := hthrown
    rw [send, hreports, hnone]
    cases (s.reports.map Prod.snd).find? (· ≠ .null) <;> rfl
  rw [hsend]
  cases hrejected : s.rejected with
  | false =>
    rw [h.find_none hrejected]
    exact htruly.resolves_iff.mpr (hall.mpr ⟨hthrown, hrejected⟩)
  | true =>
    have hbad : ¬ AllAcknowledged messages s := by
      rw [hall, hrejected]
      simp
    obtain ⟨err, herr⟩ := htruly.rejects_iff.mpr hbad
    rw [hfirst hthrown err herr, herr, Option.elim_some]

theorem run_executing (h : Executing s) (nexts : List (Option String)) :
    Executing (Machine.run step s (nexts.map .next)) := by
  induction nexts generalizing s with
  | nil => exact h
  | cons thrown nexts ih => exact ih (h.next thrown)

/-- Callbacks change neither what was thrown nor a promise that has settled. -/
theorem run_delivered {p : Promise Unit} (hp : s.promise = some p) (reports : List (Nat × Reason)) :
    (Machine.run step s (reports.map fun r => .delivered r.1 r.2)).promise = some p := by
  induction reports generalizing s with
  | nil => exact hp
  | cons r reports ih => exact ih (promise_stays hp _)

theorem run_delivered_thrown (s : Sending) (reports : List (Nat × Reason)) :
    (Machine.run step s (reports.map fun r => .delivered r.1 r.2)).thrown = s.thrown := by
  induction reports generalizing s with
  | nil => rfl
  | cons r reports ih => exact (ih _).trans (delivered_thrown s r.1 r.2)

/-- When the callbacks come after the executor has run, the outcome is that of `send` taken as
one step. -/
theorem promise_eq_send (hne : messages ≠ []) (nexts : List (Option String))
    (reports : List (Nat × Reason)) (hrun : s = Machine.run step (start messages)
      (nexts.map .next ++ reports.map fun r => .delivered r.1 r.2))
    (hfinished : s.Finished) : s.promise = some (send (deliveries s) messages.length) := by
  have hgood : Inv messages s ∧ RejectsFirst s := by
    rw [hrun]
    refine Machine.run_always (I := fun s => Inv messages s ∧ RejectsFirst s)
      (fun s e h => ⟨h.1.step e, rejectsFirst_step h.1 h.2 e⟩) ⟨inv_start messages, ?_⟩ _
    intro _ err herr
    cases herr
  cases hthrown : s.thrown with
  | none => exact hgood.1.promise_eq_of_not_thrown hgood.2 hfinished hne hthrown
  | some message =>
    have hexecuted : Executing (Machine.run step (start messages) (nexts.map .next)) :=
      run_executing ⟨rfl, rfl, fun hsome => absurd rfl hsome⟩ nexts
    rw [Machine.run_append] at hrun
    have hsame := run_delivered_thrown (Machine.run step (start messages) (nexts.map .next)) reports
    rw [← hrun, hthrown] at hsame
    have hpromise := hexecuted.promise_eq
    rw [← hsame, Option.map_some] at hpromise
    have hfinal := run_delivered hpromise reports
    rw [← hrun] at hfinal
    have hsome : (deliveries s).thrown = some message := hthrown
    rw [hfinal, send, hsome]

end Sending

end RDKafkaProducer

end Infrastructure
end PocArchitecture
