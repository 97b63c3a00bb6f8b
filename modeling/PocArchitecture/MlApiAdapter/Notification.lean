/-
The notification handler: a failed message and its neighbours.

`consumeMessage` goes through a batch, processes each message and commits it.  A message
that cannot be processed is committed as well, and then its error is thrown once more: the
rest of the batch is left, and the consumer asks for the next one.  A commit covers the
partition of its message up to that message, so it covers what was left behind before.
-/
import PocArchitecture.CentralServicesStream.Consumer

namespace PocArchitecture
namespace MlApiAdapter

open CentralServicesStream (Consumer Entry Event Result Setup)

structure Message where
  partition : Nat
  offset : Nat
  value : Option String
  deriving DecidableEq

/-- How each message fares: `traceThrows` if its trace headers cannot be read, `rejects` if
`processPoCMessage` rejects, `commitThrows` if `commitMessageSync` throws. -/
structure Notification where
  autoCommitEnabled : Bool
  traceThrows : Message → Bool
  rejects : Message → Bool
  commitThrows : Message → Bool

inductive Action where
  | processPoCMessage (msg : Message)
  | commitMessageSync (msg : Message)
  deriving DecidableEq

namespace Notification

variable (N : Notification)

/-- `if (!autoCommitEnabled)`, the commit unless it throws. -/
def commit (msg : Message) : List Action :=
  if !N.autoCommitEnabled && !N.commitThrows msg then [.commitMessageSync msg] else []

/-- What is done to a batch until one of its messages throws. -/
def consumeMessage : List Message → List Action
  | [] => []
  | msg :: message =>
    if N.traceThrows msg then []
    else
      .processPoCMessage msg :: (N.commit msg ++
        if N.rejects msg || (!N.autoCommitEnabled && N.commitThrows msg) then []
        else consumeMessage message)

/-- The consumer with this handler. -/
def setup : Setup Message Action :=
  { hasValue := fun msg => msg.value.isSome, work := N.consumeMessage }

/-- The loop is left at this message. -/
def throws (msg : Message) : Bool :=
  N.traceThrows msg || N.rejects msg || (!N.autoCommitEnabled && N.commitThrows msg)

/-- No message before this one throws. -/
def Reached (message : List Message) (msg : Message) : Prop :=
  ∃ before after, message = before ++ msg :: after ∧ ∀ m ∈ before, N.throws m = false

/-- The message is committed. -/
def Commits (message : List Message) (msg : Message) : Prop :=
  N.Reached message msg ∧ N.traceThrows msg = false ∧ N.autoCommitEnabled = false ∧
    N.commitThrows msg = false

/-- The message is behind one that throws, or its own trace headers cannot be read. -/
def CutOff (message : List Message) (msg : Message) : Prop :=
  ∃ before failed after, message = before ++ failed :: after ∧ N.throws failed = true ∧
    (msg ∈ after ∨ msg = failed ∧ N.traceThrows failed = true)

/-- Two messages of one partition come in the order of their offsets. -/
def InOrder (m m' : Message) : Prop := m.partition = m'.partition → m.offset < m'.offset

/-- What Kafka promises about the batches of a consumer that keeps its partitions. -/
structure Ordered (results : Nat → Result Message) : Prop where
  batch : ∀ i, (results i).batch.Pairwise InOrder
  batches : ∀ i j, i < j → ∀ m ∈ (results i).batch, ∀ m' ∈ (results j).batch, InOrder m m'

/-- When a message is committed, it and all earlier ones of its partition have been
processed. -/
def NoneDropped (past : List (Entry Message Action)) : Entry Message Action → Prop
  | .did (.commitMessageSync msg) =>
    ∀ message, .given message ∈ past → ∀ m ∈ message, m.partition = msg.partition →
      m.offset ≤ msg.offset → .did (.processPoCMessage m) ∈ past
  | _ => True

section

variable {N} {message : List Message} {msg : Message}

/-! ## What becomes of a batch -/

/-- The messages up to the first that throws. -/
def reached (N : Notification) : List Message → List Message
  | [] => []
  | msg :: message => msg :: if N.throws msg then [] else reached N message

/-- What is done to one message. -/
def actions (N : Notification) (msg : Message) : List Action :=
  if N.traceThrows msg then [] else .processPoCMessage msg :: N.commit msg

theorem consumeMessage_eq (message : List Message) :
    N.consumeMessage message = (N.reached message).flatMap N.actions := by
  induction message with
  | nil => rfl
  | cons msg message ih =>
    rw [consumeMessage, reached, List.flatMap_cons, actions, throws]
    cases N.traceThrows msg with
    | true => simp
    | false =>
      rw [if_neg Bool.false_ne_true, if_neg Bool.false_ne_true, Bool.false_or, List.cons_append, ih]
      split <;> rfl

theorem mem_reached_iff : msg ∈ N.reached message ↔ N.Reached message msg := by
  induction message with
  | nil =>
    refine iff_of_false List.not_mem_nil ?_
    rintro ⟨before, after, heq, -⟩
    simp at heq
  | cons first message ih =>
    rw [reached, List.mem_cons]
    constructor
    · rintro (rfl | hmem)
      · exact ⟨[], message, rfl, fun m hm => absurd hm List.not_mem_nil⟩
      · cases hfirst : N.throws first with
        | true => simp [hfirst] at hmem
        | false =>
          rw [hfirst, if_neg Bool.false_ne_true] at hmem
          obtain ⟨before, after, rfl, hbefore⟩ := ih.mp hmem
          exact ⟨first :: before, after, rfl, List.forall_mem_cons.mpr ⟨hfirst, hbefore⟩⟩
    · rintro ⟨before, after, heq, hbefore⟩
      cases before with
      | nil => exact Or.inl (List.cons.inj heq).1.symm
      | cons m before =>
        obtain ⟨rfl, rfl⟩ := List.cons.inj heq
        obtain ⟨hfirst, hbefore⟩ := List.forall_mem_cons.mp hbefore
        rw [hfirst, if_neg Bool.false_ne_true]
        exact Or.inr (ih.mpr ⟨before, after, rfl, hbefore⟩)

theorem mem_commit_iff {m : Message} {a : Action} : a ∈ N.commit m ↔
    a = .commitMessageSync m ∧ N.autoCommitEnabled = false ∧ N.commitThrows m = false := by
  rw [commit]
  cases N.autoCommitEnabled <;> cases N.commitThrows m <;> simp

theorem processes_iff :
    .processPoCMessage msg ∈ N.consumeMessage message ↔
      N.Reached message msg ∧ N.traceThrows msg = false := by
  rw [consumeMessage_eq, List.mem_flatMap, ← mem_reached_iff]
  constructor
  · rintro ⟨m, hm, hmem⟩
    cases htrace : N.traceThrows m with
    | true => simp [actions, htrace] at hmem
    | false =>
      simp [actions, htrace, mem_commit_iff] at hmem
      rw [hmem]
      exact ⟨hm, htrace⟩
  · rintro ⟨hm, htrace⟩
    exact ⟨msg, hm, by simp [actions, htrace]⟩

theorem commits_iff :
    .commitMessageSync msg ∈ N.consumeMessage message ↔ N.Commits message msg := by
  rw [consumeMessage_eq, List.mem_flatMap, Commits, ← mem_reached_iff]
  constructor
  · rintro ⟨m, hm, hmem⟩
    cases htrace : N.traceThrows m with
    | true => simp [actions, htrace] at hmem
    | false =>
      simp [actions, htrace, mem_commit_iff] at hmem
      obtain ⟨rfl, hcommit⟩ := hmem
      exact ⟨hm, htrace, hcommit⟩
  · rintro ⟨hm, htrace, hcommit⟩
    exact ⟨msg, hm, by simp [actions, htrace, mem_commit_iff, hcommit]⟩

/-- A message of the batch is processed or cut off. -/
theorem processed_or_cutOff (hmsg : msg ∈ message) :
    .processPoCMessage msg ∈ N.consumeMessage message ∨ N.CutOff message msg := by
  rw [processes_iff, ← mem_reached_iff]
  induction message with
  | nil => exact absurd hmsg List.not_mem_nil
  | cons first message ih =>
    rw [reached, List.mem_cons]
    rcases List.mem_cons.mp hmsg with rfl | hmsg
    · cases htrace : N.traceThrows msg with
      | true => exact Or.inr ⟨[], msg, message, rfl, by simp [throws, htrace], Or.inr ⟨rfl, htrace⟩⟩
      | false => exact Or.inl ⟨Or.inl rfl, rfl⟩
    · cases hfirst : N.throws first with
      | true => exact Or.inr ⟨[], first, message, rfl, hfirst, Or.inl hmsg⟩
      | false =>
        rw [if_neg Bool.false_ne_true]
        rcases ih hmsg with ⟨hmem, htrace⟩ | ⟨before, failed, after, rfl, hcut⟩
        · exact Or.inl ⟨Or.inr hmem, htrace⟩
        · exact Or.inr ⟨first :: before, failed, after, rfl, hcut⟩

/-- It is not both when it comes only once. -/
theorem CutOff.not_processed (h : N.CutOff message msg) (hnodup : message.Nodup) :
    .processPoCMessage msg ∉ N.consumeMessage message := by
  rw [processes_iff]
  rintro ⟨⟨before, after, rfl, hbefore⟩, htrace⟩
  obtain ⟨before', failed, after', heq, hfailed, hafter | ⟨rfl, hthrows⟩⟩ := h
  · have hleft : msg ∉ before' ++ [failed] := by
      rw [heq, ← List.singleton_append, ← List.append_assoc, List.nodup_append] at hnodup
      intro hmem
      exact hnodup.2.2 msg hmem msg hafter rfl
    rcases List.append_eq_append_iff.mp heq with ⟨c, rfl, hc⟩ | ⟨c, rfl, hc⟩
    · cases c with
      | nil => exact hleft (by simp [(List.cons.inj hc).1])
      | cons m c => exact hleft (by simp [(List.cons.inj hc).1])
    · cases c with
      | nil => exact hleft (by simp [(List.cons.inj hc).1])
      | cons m c =>
        rw [(List.cons.inj hc).1, hbefore m (by simp)] at hfailed
        cases hfailed
  · rw [htrace] at hthrows
    cases hthrows

/-! ## What the commits cover -/

theorem commit_cases (N : Notification) (msg : Message) :
    N.commit msg = [] ∨ N.commit msg = [.commitMessageSync msg] ∧ N.autoCommitEnabled = false ∧
      N.commitThrows msg = false := by
  rw [commit]
  cases N.autoCommitEnabled <;> cases N.commitThrows msg <;> simp

/-- A batch keeps the commits right when what was given before it is processed, or belongs to
partitions of which the batch commits nothing. -/
theorem each_append_batch {past : List (Entry Message Action)}
    (hpast : Timeline.Each NoneDropped past) (horder : message.Pairwise InOrder)
    (hgiven : ∀ batch, .given batch ∈ past → ∀ m ∈ batch,
      m ∈ message ∨ .did (.processPoCMessage m) ∈ past ∨
        ∀ msg, N.Commits message msg → m.partition ≠ msg.partition) :
    Timeline.Each NoneDropped (past ++ (N.consumeMessage message).map .did) := by
  induction message generalizing past with
  | nil => simpa [consumeMessage] using hpast
  | cons msg message ih =>
    obtain ⟨hfirst, hrest⟩ := List.pairwise_cons.mp horder
    rw [consumeMessage]
    cases htrace : N.traceThrows msg with
    | true => simpa using hpast
    | false =>
      have hreached : N.Reached (msg :: message) msg :=
        ⟨[], message, rfl, fun m hm => absurd hm List.not_mem_nil⟩
      have hprocessed : Timeline.Each NoneDropped (past ++ [.did (.processPoCMessage msg)]) :=
        Timeline.each_append_one.mpr ⟨hpast, trivial⟩
      have hcommitted : Timeline.Each NoneDropped
          (past ++ [.did (.processPoCMessage msg)] ++ (N.commit msg).map .did) := by
        rcases N.commit_cases msg with hnone | ⟨hone, hcommit⟩
        · rw [hnone, List.map_nil, List.append_nil]
          exact hprocessed
        · rw [hone]
          refine Timeline.each_append_one.mpr ⟨hprocessed, fun batch hbatch m hm hpart hle => ?_⟩
          have hbatch' : .given batch ∈ past := by simpa using hbatch
          rcases hgiven batch hbatch' m hm with hmem | hdone | hnot
          · rcases List.mem_cons.mp hmem with rfl | hmem
            · simp
            · exact absurd (hfirst m hmem hpart.symm) (Nat.not_lt.mpr hle)
          · exact List.mem_append_left _ hdone
          · exact absurd hpart (hnot msg ⟨hreached, htrace, hcommit⟩)
      rw [if_neg Bool.false_ne_true, List.map_cons, List.map_append, List.append_cons,
        ← List.append_assoc]
      split
      · simpa using hcommitted
      · rename_i hstays
        have hthrows : N.throws msg = false := by simpa [throws, htrace] using hstays
        refine ih hcommitted hrest fun batch hbatch m hm => ?_
        have hbatch' : .given batch ∈ past := by simpa using hbatch
        rcases hgiven batch hbatch' m hm with hmem | hdone | hnot
        · rcases List.mem_cons.mp hmem with rfl | hmem
          · exact Or.inr (Or.inl (by simp))
          · exact Or.inl hmem
        · exact Or.inr (Or.inl (List.mem_append_left _ (List.mem_append_left _ hdone)))
        · refine Or.inr (Or.inr fun m' hm' => hnot m' ⟨?_, hm'.2⟩)
          obtain ⟨before, after, rfl, hbefore⟩ := hm'.1
          exact ⟨msg :: before, after, rfl, List.forall_mem_cons.mpr ⟨hthrows, hbefore⟩⟩

end

/-- No batch commits a message of a partition of which a batch before it has cut one off. -/
def LeavesCutOffAlone (N : Notification) (results : Nat → Result Message) : Prop :=
  ∀ i j, i < j → (∀ k ≤ j, Consumer.Readable N.setup (results k)) →
    ∀ d m, N.CutOff (results i).batch d → N.Commits (results j).batch m →
      d.partition ≠ m.partition

section

variable {N} {results : Nat → Result Message}

theorem CutOff.mem {message : List Message} {msg : Message} (h : N.CutOff message msg) :
    msg ∈ message := by
  obtain ⟨before, failed, after, rfl, -, hafter | ⟨rfl, -⟩⟩ := h
  · exact List.mem_append_right _ (List.mem_cons_of_mem _ hafter)
  · exact List.mem_append_right _ List.mem_cons_self

theorem Commits.mem {message : List Message} {msg : Message} (h : N.Commits message msg) :
    msg ∈ message := by
  obtain ⟨⟨before, after, rfl, -⟩, -⟩ := h
  exact List.mem_append_right _ List.mem_cons_self

theorem Ordered.nodup (h : Ordered results) (i : Nat) : (results i).batch.Nodup := by
  refine (h.batch i).imp ?_
  intro m m' horder heq
  subst heq
  exact Nat.lt_irrefl m.offset (horder rfl)

/-- A message comes in one batch only. -/
theorem Ordered.eq (h : Ordered results) {i j : Nat} {m : Message} (hi : m ∈ (results i).batch)
    (hj : m ∈ (results j).batch) : i = j := by
  rcases Nat.lt_trichotomy i j with hlt | heq | hgt
  · exact absurd (h.batches i j hlt m hi m hj rfl) (Nat.lt_irrefl _)
  · exact heq
  · exact absurd (h.batches j i hgt m hj m hi rfl) (Nat.lt_irrefl _)

theorem each_whole (horder : Ordered results) (h : N.LeavesCutOffAlone results) (k : Nat)
    (hread : ∀ i < k, Consumer.Readable N.setup (results i)) :
    Timeline.Each NoneDropped (Consumer.whole N.setup results k) := by
  induction k with
  | zero => exact Timeline.each_nil _
  | succ k ih =>
    have hwhole := ih fun i hi => hread i (Nat.lt_succ_of_lt hi)
    rw [Consumer.whole]
    rcases List.eq_nil_or_concat' (results k).batch with hnil | ⟨msgs, last, hlast⟩
    · rw [Consumer.handled, hnil, List.append_nil]
      exact hwhole
    · have hmem : last ∈ (results k).batch := by
        rw [hlast]
        exact List.mem_append_right _ List.mem_cons_self
      rw [Consumer.handled_eq hmem, List.append_cons]
      refine each_append_batch (Timeline.each_append_one.mpr ⟨hwhole, trivial⟩) (horder.batch k)
        fun batch hbatch m hm => ?_
      rcases List.mem_append.mp hbatch with hbatch | hbatch
      · obtain ⟨i, hi, hgiven⟩ := Consumer.mem_whole.mp hbatch
        rw [← Consumer.given_mem_handled hgiven] at hm
        rcases N.processed_or_cutOff hm with hdone | hcut
        · refine Or.inr (Or.inl (List.mem_append_left _ (Consumer.mem_whole.mpr ⟨i, hi, ?_⟩)))
          rw [Consumer.handled_eq hm]
          exact List.mem_cons_of_mem _ (List.mem_map_of_mem hdone)
        · exact Or.inr (Or.inr fun msg hcommit =>
            h i k hi (fun l hl => hread l (Nat.lt_succ_of_le hl)) m msg hcut hcommit)
      · have hsame : batch = (results k).batch := by simpa using hbatch
        exact Or.inl (hsame ▸ hm)

theorem leavesCutOffAlone_of_each (horder : Ordered results)
    (h : ∀ k, (∀ i < k, Consumer.Readable N.setup (results i)) →
      Timeline.Each NoneDropped (Consumer.whole N.setup results k)) :
    N.LeavesCutOffAlone results := by
  intro i j hij hread d m hcut hcommit hpart
  obtain ⟨earlier, later, hwork⟩ := List.append_of_mem (N.commits_iff.mpr hcommit)
  have hentry : Consumer.whole N.setup results (j + 1) =
      (Consumer.whole N.setup results j ++ .given (results j).batch :: earlier.map .did) ++
        .did (.commitMessageSync m) :: later.map .did := by
    rw [Consumer.whole, Consumer.handled_eq hcommit.mem]
    simp [setup, hwork]
  have hgiven : Entry.given (results i).batch ∈ Consumer.whole N.setup results j :=
    Consumer.mem_whole.mpr ⟨i, hij, by simp [Consumer.handled_eq hcut.mem]⟩
  have hle : d.offset ≤ m.offset :=
    Nat.le_of_lt (horder.batches i j hij d hcut.mem m hcommit.mem hpart)
  have hprocessed := h (j + 1) (fun k hk => hread k (Nat.lt_succ_iff.mp hk)) _ _ _ hentry
    (results i).batch (List.mem_append_left _ hgiven) d hcut.mem hpart hle
  -- it would have been processed with some batch, and that is its own
  obtain ⟨k, hk⟩ : ∃ k, Action.processPoCMessage d ∈ N.consumeMessage (results k).batch := by
    rcases List.mem_append.mp hprocessed with hearly | hlate
    · obtain ⟨k, -, hk⟩ := Consumer.mem_whole.mp hearly
      exact ⟨k, Consumer.did_mem_handled hk⟩
    · refine ⟨j, ?_⟩
      rw [hwork]
      exact List.mem_append_left _ (by simpa using hlate)
  obtain ⟨⟨before, after, hbatch, -⟩, -⟩ := N.processes_iff.mp hk
  have hd : d ∈ (results k).batch := by
    rw [hbatch]
    exact List.mem_append_right _ List.mem_cons_self
  rw [horder.eq hd hcut.mem] at hk
  exact hcut.not_processed (horder.nodup i) hk

end

/-- For every sequence of batches, in the order of their offsets, and every pattern of messages
that throw: in all runs a commit covers processed messages only exactly if no later batch
commits a message of a partition of which one was cut off. -/
theorem neighbours_kept_iff (N : Notification) (results : Nat → Result Message)
    (horder : Ordered results) :
    (∀ es, Timeline.Each NoneDropped
      (Machine.run (Consumer.step N.setup results) Consumer.start es).timeline) ↔
        N.LeavesCutOffAlone results := by
  rw [Consumer.each_iff]
  exact ⟨leavesCutOffAlone_of_each horder, each_whole horder⟩

/-! ## A batch of two -/

def sampleMessage (offset : Nat) : Message :=
  { partition := 0, offset := offset, value := some "\x7b\x7d" }

/-- The first message is rejected. -/
def sample : Notification where
  autoCommitEnabled := false
  traceThrows _ := false
  rejects msg := msg.offset == 0
  commitThrows _ := false

/-- Two messages, one more, and nothing then. -/
def sampleResults : Nat → Result Message
  | 0 => .messages [sampleMessage 0, sampleMessage 1]
  | 1 => .messages [sampleMessage 2]
  | _ => .messages []

theorem sampleResults_ordered : Ordered sampleResults := by
  constructor
  · intro i
    rcases i with _ | _ | i <;> simp [sampleResults, Result.batch, InOrder, sampleMessage]
  · intro i j hij m hm m' hm' _
    rcases i with _ | _ | i <;> rcases j with _ | _ | j <;>
      simp [sampleResults, Result.batch, sampleMessage] at hm hm' hij
    rcases hm with rfl | rfl <;> simp [hm']

theorem neighbours_kept_iff_sample :
    (∀ es, Timeline.Each NoneDropped
      (Machine.run (Consumer.step sample.setup sampleResults) Consumer.start es).timeline) ↔
        sample.LeavesCutOffAlone sampleResults :=
  neighbours_kept_iff sample sampleResults sampleResults_ordered

/-- The neighbour of the rejected message is never processed, and the commit of the next batch
covers it. -/
theorem neighbour_dropped :
    ¬ ∀ es, Timeline.Each NoneDropped
      (Machine.run (Consumer.step sample.setup sampleResults) Consumer.start es).timeline := by
  intro h
  have hcommit := h [.consumed, .process, .turn, .turn, .turn, .consumed, .process, .turn, .turn]
    [.given [sampleMessage 0, sampleMessage 1], .did (.processPoCMessage (sampleMessage 0)),
      .did (.commitMessageSync (sampleMessage 0)), .given [sampleMessage 2],
      .did (.processPoCMessage (sampleMessage 2))]
    (.did (.commitMessageSync (sampleMessage 2))) [] rfl
  have hneighbour := hcommit [sampleMessage 0, sampleMessage 1] (by simp) (sampleMessage 1)
    (by simp) rfl (by decide)
  simp [sampleMessage] at hneighbour

end Notification

end MlApiAdapter
end PocArchitecture
