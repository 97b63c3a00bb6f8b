/-
`KafkaJsConsumer`: a commit names its message.

The client gives the messages of a partition one by one, and those of several partitions at
the same time.  What cannot be read is left out, and a handler that rejects counts as one
that resolves.  Without autocommit the offset after the message is committed then; with it
the client commits what it has got through.  If a commit fails the client comes back with
the same message, and after a restart it starts at the offsets that are committed.
-/
import PocArchitecture.Lib.Json
import PocArchitecture.Lib.Machine
import PocArchitecture.Lib.Timeline
import Mathlib.Logic.Function.Basic

namespace PocArchitecture
namespace Infrastructure

namespace KafkaJsConsumer

/-- The option that is read, and `JSON.parse` of a text, which throws where it is `none`. -/
structure Setup where
  autoCommit : Option Bool
  parse : String → Option Json

/-- The values on the topic, by partition and offset; `none` is null. -/
abbrev Log := Nat → Nat → Option String

inductive Action where
  | handle (partition offset : Nat) (domainMessage : Json)
  | settled (partition offset : Nat) (resolves : Bool)
  | commitOffsets (partition offset : Nat)
  | restart

/-- The message whose handler has settled. -/
@[simp] def Action.ends : Action → Option (Nat × Nat)
  | settled partition offset _ => some (partition, offset)
  | _ => none

/-- What `eachMessage` waits for, if it is running. -/
inductive Worker where
  | idle
  | handling
  | committing

inductive Event where
  | eachMessage (partition : Nat)
  | settled (partition : Nat) (resolves : Bool)
  | answered (partition : Nat) (err : Bool)
  | autoCommit (partition : Nat)
  | restart

/-- A partition: the offset the client has got to, the one a restart begins at, and the call of
`eachMessage`. -/
structure Assignment where
  position : Nat
  committed : Nat
  worker : Worker

end KafkaJsConsumer

structure KafkaJsConsumer where
  partitions : Nat → KafkaJsConsumer.Assignment
  timeline : List KafkaJsConsumer.Action

namespace KafkaJsConsumer

variable (S : Setup) (log : Log)

def start : KafkaJsConsumer :=
  { partitions := fun _ => { position := 0, committed := 0, worker := .idle }, timeline := [] }

/-- The message as it is handed over, unless its `try` throws: on a value that is null or no
JSON, and on what has no field `msgPartition` and can be given none. -/
def domainMessage (partition : Nat) (value : Option String) : Option Json :=
  (value.bind S.parse).bind fun j =>
    if j.isNull then none
    else if ((j.field "msgPartition").map Json.isNull).getD true then
      j.assign "msgPartition" (.number partition)
    else some j

def act (s : KafkaJsConsumer) (a : Action) : KafkaJsConsumer :=
  { s with timeline := s.timeline ++ [a] }

def put (s : KafkaJsConsumer) (partition : Nat) (a : Assignment) : KafkaJsConsumer :=
  { s with partitions := Function.update s.partitions partition a }

/-- The `finally` of a message, and with autocommit the return of `eachMessage`. -/
def afterTry (s : KafkaJsConsumer) (partition : Nat) : KafkaJsConsumer :=
  let a := s.partitions partition
  if S.autoCommit = some false then
    (s.act (.commitOffsets partition (a.position + 1))).put partition
      { a with worker := .committing }
  else s.put partition { a with worker := .idle, position := a.position + 1 }

/-- The client gives the next message of a partition to `eachMessage`. -/
def eachMessage (s : KafkaJsConsumer) (partition : Nat) : KafkaJsConsumer :=
  match (s.partitions partition).worker with
  | .idle =>
    match domainMessage S partition (log partition (s.partitions partition).position) with
    | some j =>
      (s.act (.handle partition (s.partitions partition).position j)).put partition
        { s.partitions partition with worker := .handling }
    | none => afterTry S s partition
  | _ => s

def settle (s : KafkaJsConsumer) (partition : Nat) (resolves : Bool) : KafkaJsConsumer :=
  match (s.partitions partition).worker with
  | .handling =>
    afterTry S (s.act (.settled partition (s.partitions partition).position resolves)) partition
  | _ => s

/-- The answer to `commitOffsets`. -/
def answer (s : KafkaJsConsumer) (partition : Nat) (err : Bool) : KafkaJsConsumer :=
  match (s.partitions partition).worker with
  | .committing =>
    -- the error leaves `eachMessage`, so the client does not count the message
    if err then s.put partition { s.partitions partition with worker := .idle }
    else
      s.put partition
        { position := (s.partitions partition).position + 1
          committed := (s.partitions partition).position + 1
          worker := .idle }
  | _ => s

def commitResolved (s : KafkaJsConsumer) (partition : Nat) : KafkaJsConsumer :=
  if S.autoCommit = some false then s
  else
    s.put partition
      { s.partitions partition with committed := (s.partitions partition).position }

def restart (s : KafkaJsConsumer) : KafkaJsConsumer :=
  { partitions := fun partition =>
      { s.partitions partition with
        position := (s.partitions partition).committed, worker := .idle }
    timeline := s.timeline ++ [.restart] }

def step (s : KafkaJsConsumer) : Event → KafkaJsConsumer
  | .eachMessage partition => s.eachMessage S log partition
  | .settled partition resolves => s.settle S partition resolves
  | .answered partition err => s.answer partition err
  | .autoCommit partition => s.commitResolved S partition
  | .restart => s.restart

/-! ## Nothing is skipped -/

/-- The message can be handed over. -/
def Wanted (partition offset : Nat) : Prop :=
  (domainMessage S partition (log partition offset)).isSome = true

/-- The handler has settled for every message before this offset that can be handed over. -/
def DealtWith (past : List Action) (partition offset : Nat) : Prop :=
  ∀ m < offset, Wanted S log partition m → (partition, m) ∈ past.filterMap Action.ends

/-- A message is handed over, and an offset committed, when all before it has been dealt with. -/
def InOrder (past : List Action) : Action → Prop
  | .handle partition offset j =>
    domainMessage S partition (log partition offset) = some j ∧
      DealtWith S log past partition offset
  | .commitOffsets partition offset => DealtWith S log past partition offset
  | _ => True

structure Kept (past : List Action) (partition : Nat) (a : Assignment) : Prop where
  dealtWith : DealtWith S log past partition a.position
  committed_le : a.committed ≤ a.position
  committing : a.worker = .committing → DealtWith S log past partition (a.position + 1)

structure Inv (s : KafkaJsConsumer) : Prop where
  each : Timeline.Each (InOrder S log) s.timeline
  kept : ∀ partition, Kept S log s.timeline partition (s.partitions partition)

variable {S log} {s : KafkaJsConsumer} {past : List Action} {partition offset : Nat}

theorem DealtWith.concat (h : DealtWith S log past partition offset) (a : Action) :
    DealtWith S log (past ++ [a]) partition offset :=
  fun m hm hwanted => Timeline.mem_filterMap_concat.mpr (Or.inl (h m hm hwanted))

theorem DealtWith.mono (h : DealtWith S log past partition offset) {n : Nat} (hn : n ≤ offset) :
    DealtWith S log past partition n :=
  fun m hm hwanted => h m (Nat.lt_of_lt_of_le hm hn) hwanted

/-- One more message that has settled, or cannot be handed over. -/
theorem DealtWith.succ (h : DealtWith S log past partition offset)
    (hlast : Wanted S log partition offset → (partition, offset) ∈ past.filterMap Action.ends) :
    DealtWith S log past partition (offset + 1) := by
  intro m hm hwanted
  rcases Nat.lt_succ_iff_lt_or_eq.mp hm with hlt | rfl
  · exact h m hlt hwanted
  · exact hlast hwanted

theorem Kept.concat {assignment : Assignment} (h : Kept S log past partition assignment)
    (a : Action) : Kept S log (past ++ [a]) partition assignment where
  dealtWith := h.dealtWith.concat a
  committed_le := h.committed_le
  committing hworker := (h.committing hworker).concat a

theorem inv_start : Inv S log start where
  each := Timeline.each_nil _
  kept partition :=
    { dealtWith := fun m hm => absurd hm (Nat.not_lt_zero m)
      committed_le := Nat.le_refl 0
      committing := fun h => by cases h }

theorem Inv.act (h : Inv S log s) {a : Action} (ha : InOrder S log s.timeline a) :
    Inv S log (s.act a) where
  each := Timeline.each_append_one.mpr ⟨h.each, ha⟩
  kept partition := (h.kept partition).concat a

theorem Inv.put (h : Inv S log s) {a : Assignment} (ha : Kept S log s.timeline partition a) :
    Inv S log (s.put partition a) where
  each := h.each
  kept := by
    intro q
    by_cases hq : q = partition
    · subst hq
      show Kept S log s.timeline q (Function.update s.partitions q a q)
      rw [Function.update_self]
      exact ha
    · show Kept S log s.timeline q (Function.update s.partitions partition a q)
      rw [Function.update_of_ne hq]
      exact h.kept q

theorem Inv.afterTry (h : Inv S log s)
    (hdone : DealtWith S log s.timeline partition ((s.partitions partition).position + 1)) :
    Inv S log (afterTry S s partition) := by
  have hkept := h.kept partition
  rw [KafkaJsConsumer.afterTry]
  split
  · have hact := h.act (a := .commitOffsets partition ((s.partitions partition).position + 1)) hdone
    refine hact.put { dealtWith := ?_, committed_le := hkept.committed_le, committing := ?_ }
    · exact hkept.dealtWith.concat _
    · intro _
      exact hdone.concat _
  · refine h.put { dealtWith := hdone, committed_le := ?_, committing := fun h => by cases h }
    exact Nat.le_succ_of_le hkept.committed_le

theorem Inv.eachMessage (h : Inv S log s) (partition : Nat) :
    Inv S log (s.eachMessage S log partition) := by
  have hkept := h.kept partition
  rw [KafkaJsConsumer.eachMessage]
  split
  · split
    · rename_i j hj
      have hact := h.act (a := .handle partition (s.partitions partition).position j)
        ⟨hj, hkept.dealtWith⟩
      exact hact.put
        { dealtWith := hkept.dealtWith.concat _
          committed_le := hkept.committed_le
          committing := fun h => by cases h }
    · rename_i hnone
      refine h.afterTry (hkept.dealtWith.succ fun hwanted => ?_)
      rw [Wanted, hnone] at hwanted
      cases hwanted
  · exact h

theorem Inv.settle (h : Inv S log s) (partition : Nat) (resolves : Bool) :
    Inv S log (s.settle S partition resolves) := by
  have hkept := h.kept partition
  rw [KafkaJsConsumer.settle]
  split
  · have hact := h.act (a := .settled partition (s.partitions partition).position resolves) trivial
    refine hact.afterTry ((hkept.dealtWith.concat _).succ fun _ => ?_)
    exact Timeline.mem_filterMap_concat.mpr (Or.inr rfl)
  · exact h

theorem Inv.answer (h : Inv S log s) (partition : Nat) (err : Bool) :
    Inv S log (s.answer partition err) := by
  have hkept := h.kept partition
  rw [KafkaJsConsumer.answer]
  split
  · rename_i hworker
    split
    · exact h.put { hkept with committing := fun h => by cases h }
    · exact h.put
        { dealtWith := hkept.committing hworker
          committed_le := Nat.le_refl _
          committing := fun h => by cases h }
  · exact h

theorem Inv.step (h : Inv S log s) (e : Event) : Inv S log (step S log s e) := by
  cases e with
  | eachMessage partition => exact h.eachMessage partition
  | settled partition resolves => exact h.settle partition resolves
  | answered partition err => exact h.answer partition err
  | autoCommit partition =>
    have hkept := h.kept partition
    show Inv S log (s.commitResolved S partition)
    rw [commitResolved]
    split
    · exact h
    · exact h.put { hkept with committed_le := Nat.le_refl _ }
  | restart =>
    refine { each := Timeline.each_append_one.mpr ⟨h.each, trivial⟩, kept := fun partition => ?_ }
    have hkept := h.kept partition
    exact
      { dealtWith := (hkept.dealtWith.mono hkept.committed_le).concat _
        committed_le := Nat.le_refl _
        committing := fun h => by cases h }

/-! ## Nothing is seen twice -/

/-- The offset of this partition that is handed over. -/
def Action.hands (partition : Nat) : Action → Option Nat
  | handle q offset _ => if q = partition then some offset else none
  | _ => none

/-- No restart, and no commit fails. -/
def Event.Undisturbed : Event → Prop
  | answered _ err => err = false
  | restart => False
  | _ => True

/-- What has been handed over of a partition, in order and up to the message at hand. -/
structure Once (past : List Action) (partition : Nat) (a : Assignment) : Prop where
  increasing : (past.filterMap (Action.hands partition)).Pairwise (· < ·)
  le : ∀ n ∈ past.filterMap (Action.hands partition), n ≤ a.position
  lt : a.worker = .idle → ∀ n ∈ past.filterMap (Action.hands partition), n < a.position

theorem Once.concat {a : Assignment} (h : Once past partition a) {b : Action}
    (hb : b.hands partition = none) : Once (past ++ [b]) partition a := by
  have hsame := Timeline.filterMap_concat_none (t := past) hb
  exact
    { increasing := hsame ▸ h.increasing
      le := hsame ▸ h.le
      lt := hsame ▸ h.lt }

/-- The next message is handed over. -/
theorem Once.handle {a : Assignment} (h : Once past partition a) (hidle : a.worker = .idle)
    (j : Json) :
    Once (past ++ [.handle partition a.position j]) partition { a with worker := .handling } := by
  have hmore : (past ++ [Action.handle partition a.position j]).filterMap (Action.hands partition) =
      past.filterMap (Action.hands partition) ++ [a.position] :=
    Timeline.filterMap_concat_some (if_pos rfl)
  refine { increasing := ?_, le := fun n hn => ?_, lt := fun h => by cases h }
  · rw [hmore, List.pairwise_append]
    refine ⟨h.increasing, List.pairwise_singleton _ _, fun m hm n hn => ?_⟩
    rw [List.mem_singleton.mp hn]
    exact h.lt hidle m hm
  · rw [hmore, List.mem_append, List.mem_singleton] at hn
    rcases hn with hn | rfl
    · exact h.le n hn
    · exact Nat.le_refl _

theorem Once.next {a : Assignment} (h : Once past partition a) (committed : Nat) :
    Once past partition { position := a.position + 1, committed := committed, worker := .idle } where
  increasing := h.increasing
  le n hn := Nat.le_succ_of_le (h.le n hn)
  lt _ n hn := Nat.lt_succ_of_le (h.le n hn)

/-- What is put for one partition does not concern the others. -/
theorem once_put (h : ∀ q, q ≠ partition → Once s.timeline q (s.partitions q)) {a : Assignment}
    (ha : Once s.timeline partition a) (q : Nat) :
    Once (s.put partition a).timeline q ((s.put partition a).partitions q) := by
  show Once s.timeline q (Function.update s.partitions partition a q)
  by_cases hq : q = partition
  · subst hq
    rw [Function.update_self]
    exact ha
  · rw [Function.update_of_ne hq]
    exact h q hq

theorem once_afterTry (h : ∀ q, Once s.timeline q (s.partitions q)) (partition q : Nat) :
    Once (afterTry S s partition).timeline q ((afterTry S s partition).partitions q) := by
  rw [afterTry]
  split
  · have hact : ∀ q, Once (s.act (.commitOffsets partition
        ((s.partitions partition).position + 1))).timeline q (s.partitions q) :=
      fun q => (h q).concat rfl
    refine once_put (fun q _ => hact q) ?_ q
    exact
      { increasing := (hact partition).increasing
        le := (hact partition).le
        lt := fun h => by cases h }
  · exact once_put (fun q _ => h q) ((h partition).next _) q

theorem once_step (h : ∀ q, Once s.timeline q (s.partitions q)) {e : Event} (he : e.Undisturbed)
    (q : Nat) : Once (step S log s e).timeline q ((step S log s e).partitions q) := by
  cases e with
  | eachMessage partition =>
    show Once (s.eachMessage S log partition).timeline q
      ((s.eachMessage S log partition).partitions q)
    rw [eachMessage]
    split
    · rename_i hidle
      split
      · rename_i j hj
        have hother : ∀ q, q ≠ partition → (Action.handle partition
            (s.partitions partition).position j).hands q = none := fun q hq => if_neg (Ne.symm hq)
        refine once_put (fun q hq => (h q).concat (hother q hq)) ?_ q
        exact (h partition).handle hidle j
      · exact once_afterTry h partition q
    · exact h q
  | settled partition resolves =>
    show Once (s.settle S partition resolves).timeline q
      ((s.settle S partition resolves).partitions q)
    rw [settle]
    split
    · exact once_afterTry (fun q => (h q).concat rfl) partition q
    · exact h q
  | answered partition err =>
    obtain rfl : err = false := he
    show Once (s.answer partition false).timeline q ((s.answer partition false).partitions q)
    rw [answer]
    split
    · exact once_put (fun q _ => h q) ((h partition).next _) q
    · exact h q
  | autoCommit partition =>
    show Once (s.commitResolved S partition).timeline q
      ((s.commitResolved S partition).partitions q)
    rw [commitResolved]
    split
    · exact h q
    · refine once_put (fun q _ => h q) ?_ q
      exact
        { increasing := (h partition).increasing
          le := (h partition).le
          lt := (h partition).lt }
  | restart => exact absurd he id

/-- In every run over any topic, with any number of partitions, handlers that reject, commits
that fail and restarts: a message is handed over only when the handler has settled for all the
messages of its partition before it that can be handed over, an offset is committed only when it
has settled for all before it, and so nothing before a committed offset is ever lost.  Without
restarts and failing commits nothing is handed over twice. -/
theorem nothing_skipped (S : Setup) (log : Log) (es : List Event) :
    Timeline.Each (InOrder S log) (Machine.run (step S log) start es).timeline ∧
      (∀ partition, DealtWith S log (Machine.run (step S log) start es).timeline partition
        ((Machine.run (step S log) start es).partitions partition).committed) ∧
      ((∀ e ∈ es, e.Undisturbed) → ∀ partition,
        ((Machine.run (step S log) start es).timeline.filterMap
          (Action.hands partition)).Pairwise (· < ·)) := by
  have h : Inv S log (Machine.run (step S log) start es) :=
    Machine.run_always (fun _ e h => h.step e) inv_start es
  refine ⟨h.each, fun partition => ?_, fun hes partition => ?_⟩
  · exact (h.kept partition).dealtWith.mono (h.kept partition).committed_le
  · have honce : ∀ q, Once (Machine.run (step S log) start es).timeline q
        ((Machine.run (step S log) start es).partitions q) :=
      Machine.run_invariant (P := fun _ e => Event.Undisturbed e)
        (I := fun s : KafkaJsConsumer => ∀ q, Once s.timeline q (s.partitions q))
        (fun s e hs he => once_step hs he)
        (fun q =>
          { increasing := List.Pairwise.nil
            le := fun n hn => absurd hn List.not_mem_nil
            lt := fun _ n hn => absurd hn List.not_mem_nil })
        (Machine.along_of_forall (fun _ _ he => he) start hes)
    exact (honce partition).increasing

def sampleSetup : Setup := { autoCommit := some false, parse := fun _ => some (.object []) }

/-- Every second value is null. -/
def sampleLog : Log := fun _ offset => if offset % 2 = 0 then some "\x7b\x7d" else none

def sampleEvents : List Event :=
  [.eachMessage 0, .eachMessage 1, .settled 0 false, .answered 0 false, .eachMessage 0,
    .answered 0 false, .eachMessage 0]

theorem nothing_skipped_sample :
    ((Machine.run (step sampleSetup sampleLog) start sampleEvents).timeline.filterMap
      (Action.hands 0)).Pairwise (· < ·) :=
  (nothing_skipped sampleSetup sampleLog sampleEvents).2.2
    (by simp [sampleEvents, Event.Undisturbed]) 0

example : (Machine.run (step sampleSetup sampleLog) start sampleEvents).timeline.filterMap
    (Action.hands 0) = [0, 2] := by decide

end KafkaJsConsumer

end Infrastructure
end PocArchitecture
