/-
`KafkaStreamConsumer`: one message at a time, and rebalances in between.

A data event marks the consumer as processing and pauses the stream, until the handler has
settled and the commit has called back.  A rebalance that comes in the meantime asks for the
stream to stay paused and sleeps until the mark is gone.  Any number of rebalances share the
two flags.  A paused stream emits nothing, and `resume` emits nothing on the spot.
-/
import PocArchitecture.Lib.Json
import PocArchitecture.Lib.Machine
import PocArchitecture.Lib.Timeline

namespace PocArchitecture
namespace Infrastructure

namespace KafkaStreamConsumer

/-- A message as the stream emits it: its value, and the partition its metadata name. -/
structure Message where
  partition : Option Nat
  value : Option String

/-- The option the callbacks read, and `JSON.parse` of a text, which throws where it is
`none`. -/
structure Setup where
  autoCommit : Bool
  parse : String → Option Json

/-- Messages and rebalances are numbered in the order in which they come. -/
inductive Action where
  | error (number : Nat)
  | handle (number : Nat) (domainMessage : Json)
  | settled (number : Nat) (resolves : Bool)
  | commit (number : Nat)
  | committed (number : Nat) (err : Bool)
  | rebalanced (rebalance : Nat) (isAlreadyMember : Bool)

namespace Action

@[simp] def handles : Action → Option Nat
  | handle n _ => some n
  | _ => none

@[simp] def settles : Action → Option Nat
  | settled n _ => some n
  | _ => none

@[simp] def callsBack : Action → Option Nat
  | committed n _ => some n
  | _ => none

/-- The message the action is about. -/
@[simp] def message : Action → Option Nat
  | error n | handle n _ | settled n _ | commit n | committed n _ => some n
  | rebalanced _ _ => none

end Action

inductive Event where
  | data (message : Message)
  | settled (number : Nat) (resolves : Bool)
  | committed (number : Nat) (err : Bool)
  | rebalance (isAlreadyMember : Bool)
  | awake (rebalance : Nat)

end KafkaStreamConsumer

/-- `handling` and `committing` are the messages whose handler or commit is under way, and
`sleeping` the rebalances that wait. -/
structure KafkaStreamConsumer where
  processing : Bool
  pauseForRebalanceRequested : Bool
  paused : Bool
  emitted : Nat
  handling : List Nat
  committing : List Nat
  rebalances : Nat
  sleeping : List Nat
  timeline : List KafkaStreamConsumer.Action

namespace KafkaStreamConsumer

variable (S : Setup)

def start : KafkaStreamConsumer :=
  { processing := false, pauseForRebalanceRequested := false, paused := false, emitted := 0
    handling := [], committing := [], rebalances := 0, sleeping := [], timeline := [] }

/-- `JSON.parse(message.value)`, which reads null as the text `null`. -/
def parsed (message : Message) : Option Json :=
  match message.value with
  | none => some .null
  | some text => S.parse text

/-- The assignment to `msgPartition`, which throws on a value that takes no fields.  A field
set to `undefined` reads like one that is not there. -/
def setMsgPartition (j : Json) : Option Nat → Option Json
  | some p => j.assign "msgPartition" (.number p)
  | none =>
    match j with
    | .object fields => some (.object (fields.filter (·.1 ≠ "msgPartition")))
    | .array elements => some (.array elements)
    | _ => none

/-- What the `try` makes of a message. -/
def domainMessage (message : Message) : Option Json :=
  match parsed S message with
  | none => none
  | some j =>
    -- nothing can be read from null
    if j.isNull then none
    else
      match j.field "msgPartition" with
      | none | some .null => setMsgPartition j message.partition
      | some _ => some j

def resumeUnlessRequested (s : KafkaStreamConsumer) : KafkaStreamConsumer :=
  if s.pauseForRebalanceRequested then s else { s with paused := false }

def onMessage (s : KafkaStreamConsumer) (message : Message) : KafkaStreamConsumer :=
  let n := s.emitted
  let s := { s with processing := true, paused := true, emitted := s.emitted + 1 }
  match domainMessage S message with
  | none =>
    resumeUnlessRequested { s with processing := false, timeline := s.timeline ++ [.error n] }
  | some j =>
    { s with handling := s.handling ++ [n], timeline := s.timeline ++ [.handle n j] }

def callback (s : KafkaStreamConsumer) (r : Nat) (isAlreadyMember : Bool) : KafkaStreamConsumer :=
  { s with timeline := s.timeline ++ [.rebalanced r isAlreadyMember] }

def onRebalance (s : KafkaStreamConsumer) (isAlreadyMember : Bool) : KafkaStreamConsumer :=
  let r := s.rebalances
  let s := { s with rebalances := s.rebalances + 1 }
  if !isAlreadyMember || S.autoCommit then callback s r isAlreadyMember
  else if !s.processing then callback s r isAlreadyMember
  else { s with pauseForRebalanceRequested := true, sleeping := s.sleeping ++ [r] }

/-- What nobody waits for changes nothing. -/
def step (s : KafkaStreamConsumer) : Event → KafkaStreamConsumer
  | .data message => if s.paused then s else onMessage S s message
  | .settled n resolves =>
    if n ∈ s.handling then
      let s := { s with
        handling := s.handling.erase n, timeline := s.timeline ++ [.settled n resolves] }
      if S.autoCommit ≠ true then
        { s with committing := s.committing ++ [n], timeline := s.timeline ++ [.commit n] }
      else { resumeUnlessRequested s with processing := false }
    else s
  | .committed n err =>
    if n ∈ s.committing then
      let s := { s with
        committing := s.committing.erase n, timeline := s.timeline ++ [.committed n err] }
      { resumeUnlessRequested s with processing := false }
    else s
  | .rebalance isAlreadyMember => onRebalance S s isAlreadyMember
  | .awake r =>
    if r ∈ s.sleeping then
      if s.processing then s
      else
        callback { s with
          sleeping := s.sleeping.erase r
          pauseForRebalanceRequested := false
          paused := false } r true
    else s

/-! ## What a rebalance may come between -/

/-- The handler of message `n` has been called, and what is given as its end has not come. -/
def Underway (ends : Action → Option Nat) (past : List Action) (n : Nat) : Prop :=
  n ∈ past.filterMap Action.handles ∧ n ∉ past.filterMap ends

/-- Between the start of its handler and the callback of its commit. -/
def HalfDone : List Action → Nat → Prop := Underway Action.callsBack

def InFlight : List Action → Nat → Prop := Underway Action.settles

/-- The rebalance of an existing member completes when no message is half done, and a handler
is called when none is in flight. -/
def InTurn (past : List Action) : Action → Prop
  | .rebalanced _ isAlreadyMember => isAlreadyMember = true → ∀ n, ¬ HalfDone past n
  | .handle _ _ => ∀ n, ¬ InFlight past n
  | _ => True

section

variable {ends : Action → Option Nat} {t : List Action} {a : Action} {n : Nat}

theorem underway_other (hhandles : a.handles = none) (hends : ends a = none) :
    Underway ends (t ++ [a]) n ↔ Underway ends t n := by
  rw [Underway, Timeline.mem_filterMap_concat, Timeline.mem_filterMap_concat, hhandles, hends,
    Underway]
  simp

/-- A handler that is called when none is under way. -/
theorem underway_handle {j : Json} {m : Nat} (hnone : ¬ Underway ends t m)
    (hends : ends (.handle n j) = none) (hnew : n ∉ t.filterMap ends) :
    Underway ends (t ++ [.handle n j]) m ↔ m = n := by
  rw [Underway, not_and, not_not] at hnone
  rw [Underway, Timeline.mem_filterMap_concat, Timeline.mem_filterMap_concat, hends]
  constructor
  · rintro ⟨hm | hm, hnot⟩
    · exact absurd (Or.inl (hnone hm)) hnot
    · exact (Option.some.inj hm).symm
  · rintro rfl
    refine ⟨Or.inr rfl, ?_⟩
    rintro (hm | hm)
    · exact hnew hm
    · cases hm

theorem underway_end {m : Nat} (hhandles : a.handles = none) (hends : ends a = some n) :
    Underway ends (t ++ [a]) m ↔ Underway ends t m ∧ m ≠ n := by
  rw [Underway, Timeline.mem_filterMap_concat, Timeline.mem_filterMap_concat, hhandles, hends,
    Underway, and_assoc]
  simp [eq_comm]

/-- Handlers called one at a time never overlap. -/
theorem inFlight_unique (h : Timeline.Each InTurn t) {n m : Nat} (hn : InFlight t n)
    (hm : InFlight t m) : n = m := by
  induction t using List.reverseRecOn with
  | nil => cases hn.1
  | append_singleton t a ih =>
    obtain ⟨ht, ha⟩ := Timeline.each_append_one.mp h
    cases a with
    | handle k j =>
      have hnew : ∀ i, InFlight (t ++ [.handle k j]) i → i = k := by
        rintro i ⟨hi, hnot⟩
        rw [Timeline.mem_filterMap_concat] at hi hnot
        rcases hi with hi | hi
        · exact absurd ⟨hi, fun hs => hnot (Or.inl hs)⟩ (ha i)
        · exact (Option.some.inj hi).symm
      rw [hnew n hn, hnew m hm]
    | settled k resolves =>
      exact ih ht ((underway_end rfl rfl).mp hn).1 ((underway_end rfl rfl).mp hm).1
    | error | commit | committed | rebalanced =>
      exact ih ht ((underway_other rfl rfl).mp hn) ((underway_other rfl rfl).mp hm)

end

/-- The message under way keeps the mark up and the stream paused. -/
structure Inv (s : KafkaStreamConsumer) : Prop where
  one : (s.handling ++ s.committing).length ≤ 1
  busy : s.handling ++ s.committing ≠ [] → s.processing = true ∧ s.paused = true
  halfDone_iff : ∀ n, HalfDone s.timeline n ↔ n ∈ s.handling ++ s.committing
  inFlight_iff : ∀ n, InFlight s.timeline n ↔ n ∈ s.handling
  fresh : ∀ a ∈ s.timeline, ∀ n, a.message = some n → n < s.emitted
  each : Timeline.Each InTurn s.timeline

theorem inv_start : Inv start where
  one := Nat.zero_le 1
  busy h := absurd rfl h
  halfDone_iff n := by simp [HalfDone, Underway, start]
  inFlight_iff n := by simp [InFlight, Underway, start]
  fresh a ha := absurd ha List.not_mem_nil
  each := Timeline.each_nil InTurn

section

variable {S} {s : KafkaStreamConsumer} {a : Action} {n : Nat}

/-- No message is under way while the mark is down or the stream flows. -/
theorem Inv.idle (h : Inv s) (hfree : s.processing = false ∨ s.paused = false) :
    s.handling = [] ∧ s.committing = [] := by
  rw [← List.append_eq_nil_iff]
  by_contra hopen
  obtain ⟨hprocessing, hpaused⟩ := h.busy hopen
  rcases hfree with hfree | hfree
  · rw [hprocessing] at hfree
    cases hfree
  · rw [hpaused] at hfree
    cases hfree

theorem Inv.not_halfDone (h : Inv s) (hfree : s.processing = false ∨ s.paused = false) (n : Nat) :
    ¬ HalfDone s.timeline n := by
  obtain ⟨hhandling, hcommitting⟩ := h.idle hfree
  rw [h.halfDone_iff, hhandling, hcommitting]
  exact List.not_mem_nil

theorem Inv.not_inFlight (h : Inv s) (hhandling : s.handling = []) (n : Nat) :
    ¬ InFlight s.timeline n := by
  rw [h.inFlight_iff, hhandling]
  exact List.not_mem_nil

/-- The number the next message gets is new. -/
theorem Inv.new (h : Inv s) {f : Action → Option Nat}
    (hf : ∀ a n, f a = some n → a.message = some n) : s.emitted ∉ s.timeline.filterMap f := by
  intro hmem
  obtain ⟨a, ha, hfa⟩ := List.mem_filterMap.mp hmem
  exact Nat.lt_irrefl _ (h.fresh a ha _ (hf a _ hfa))

theorem fresh_concat {t : List Action} {k k' : Nat}
    (h : ∀ b ∈ t, ∀ n, b.message = some n → n < k) (hk : k ≤ k')
    (ha : ∀ n, a.message = some n → n < k') : ∀ b ∈ t ++ [a], ∀ n, b.message = some n → n < k' := by
  intro b hb n hn
  rcases List.mem_append.mp hb with hb | hb
  · exact Nat.lt_of_lt_of_le (h b hb n hn) hk
  · obtain rfl := List.mem_singleton.mp hb
    exact ha n hn

/-- An action that tells of no handler and no callback. -/
theorem Inv.other (h : Inv s) {s' : KafkaStreamConsumer} (ha : InTurn s.timeline a)
    (hhandles : a.handles = none) (hsettles : a.settles = none) (hback : a.callsBack = none)
    (htimeline : s'.timeline = s.timeline ++ [a]) (hhandling : s'.handling = s.handling)
    (hcommitting : s'.committing = s.committing) (hemitted : s.emitted ≤ s'.emitted)
    (hmessage : ∀ n, a.message = some n → n < s'.emitted)
    (hbusy : s.handling ++ s.committing ≠ [] → s'.processing = true ∧ s'.paused = true) :
    Inv s' where
  one := by rw [hhandling, hcommitting]; exact h.one
  busy := by rw [hhandling, hcommitting]; exact hbusy
  halfDone_iff n := by
    rw [htimeline, hhandling, hcommitting, ← h.halfDone_iff n]
    exact underway_other hhandles hback
  inFlight_iff n := by
    rw [htimeline, hhandling, ← h.inFlight_iff n]
    exact underway_other hhandles hsettles
  fresh := by
    rw [htimeline]
    exact fresh_concat h.fresh hemitted hmessage
  each := by
    rw [htimeline, Timeline.each_append_one]
    exact ⟨h.each, ha⟩

/-- With a message under way there is no other. -/
theorem Inv.alone (h : Inv s) (hn : n ∈ s.handling ++ s.committing) :
    s.handling ++ s.committing = [n] ∧ n < s.emitted := by
  obtain ⟨m, hm⟩ := List.length_eq_one_iff.mp
    (Nat.le_antisymm h.one (List.length_pos_of_mem hn))
  obtain ⟨a, ha, hhandles⟩ := List.mem_filterMap.mp ((h.halfDone_iff n).mpr hn).1
  rw [hm, List.mem_singleton] at hn
  rw [hm, hn]
  refine ⟨rfl, hn ▸ h.fresh a ha n ?_⟩
  cases a <;> cases hhandles
  rfl

theorem resumeUnlessRequested_eq (s : KafkaStreamConsumer) :
    ∃ paused, resumeUnlessRequested s = { s with paused := paused } := by
  rw [resumeUnlessRequested]
  split
  · exact ⟨s.paused, rfl⟩
  · exact ⟨false, rfl⟩

theorem Inv.onMessage (h : Inv s) (hpaused : s.paused = false) (message : Message) :
    Inv (onMessage S s message) := by
  obtain ⟨hhandling, hcommitting⟩ := h.idle (Or.inr hpaused)
  rw [KafkaStreamConsumer.onMessage]
  cases domainMessage S message with
  | none =>
    dsimp only
    obtain ⟨paused, heq⟩ := resumeUnlessRequested_eq
      { s with
        processing := false, paused := true, emitted := s.emitted + 1
        timeline := s.timeline ++ [.error s.emitted] }
    rw [heq]
    refine h.other (a := .error s.emitted) trivial rfl rfl rfl rfl rfl rfl (Nat.le_succ _) ?_ ?_
    · simp
    · rw [hhandling, hcommitting]
      exact fun hopen => absurd rfl hopen
  | some j =>
    exact
      { one := by simp [hhandling, hcommitting]
        busy := fun _ => ⟨rfl, rfl⟩
        halfDone_iff := fun m => by
          refine (underway_handle (h.not_halfDone (Or.inr hpaused) m) rfl
            (h.new fun a n ha => ?_)).trans ?_
          · cases a <;> cases ha
            rfl
          · simp [hhandling, hcommitting]
        inFlight_iff := fun m => by
          refine (underway_handle (h.not_inFlight hhandling m) rfl
            (h.new fun a n ha => ?_)).trans ?_
          · cases a <;> cases ha
            rfl
          · simp [hhandling]
        fresh := fresh_concat h.fresh (Nat.le_succ _) (by simp)
        each := Timeline.each_append_one.mpr ⟨h.each, h.not_inFlight hhandling⟩ }

/-- The handler has settled, and its message is committed next. -/
theorem Inv.settled (h : Inv s) (hn : n ∈ s.handling) (resolves : Bool) :
    Inv { s with
      handling := s.handling.erase n, committing := s.committing ++ [n]
      timeline := s.timeline ++ [.settled n resolves] ++ [.commit n] } := by
  obtain ⟨hone, hlt⟩ := h.alone (List.mem_append_left _ hn)
  obtain ⟨hhandling, hcommitting⟩ : s.handling = [n] ∧ s.committing = [] := by
    rcases List.append_eq_singleton_iff.mp hone with ⟨hnil, -⟩ | hboth
    · rw [hnil] at hn
      cases hn
    · exact hboth
  have hbusy := h.busy (by simp [hhandling])
  have hsettled : Inv { s with
      handling := s.handling.erase n, committing := s.committing ++ [n]
      timeline := s.timeline ++ [.settled n resolves] } :=
    { one := by simp [hhandling, hcommitting]
      busy := fun _ => hbusy
      halfDone_iff := fun m => by
        refine (underway_other rfl rfl).trans ((h.halfDone_iff m).trans ?_)
        simp [hhandling, hcommitting]
      inFlight_iff := fun m => by
        refine (underway_end rfl rfl).trans ((and_congr_left' (h.inFlight_iff m)).trans ?_)
        simp [hhandling]
      fresh := fresh_concat h.fresh (Nat.le_refl _) (by simpa using hlt)
      each := Timeline.each_append_one.mpr ⟨h.each, trivial⟩ }
  exact hsettled.other (a := .commit n) trivial rfl rfl rfl rfl rfl rfl (Nat.le_refl _)
    (by simpa using hlt) fun _ => hbusy

/-- The commit has called back, and no message is under way. -/
theorem Inv.committed (h : Inv s) (hn : n ∈ s.committing) (err paused : Bool) :
    Inv { s with
      processing := false, paused := paused, committing := s.committing.erase n
      timeline := s.timeline ++ [.committed n err] } := by
  obtain ⟨hone, hlt⟩ := h.alone (List.mem_append_right _ hn)
  obtain ⟨hhandling, hcommitting⟩ : s.handling = [] ∧ s.committing = [n] := by
    rcases List.append_eq_singleton_iff.mp hone with hboth | ⟨-, hnil⟩
    · exact hboth
    · rw [hnil] at hn
      cases hn
  exact
    { one := by simp [hhandling, hcommitting]
      busy := by simp [hhandling, hcommitting]
      halfDone_iff := fun m => by
        refine (underway_end rfl rfl).trans ((and_congr_left' (h.halfDone_iff m)).trans ?_)
        simp [hhandling, hcommitting]
      inFlight_iff := fun m => (underway_other rfl rfl).trans (h.inFlight_iff m)
      fresh := fresh_concat h.fresh (Nat.le_refl _) (by simpa using hlt)
      each := Timeline.each_append_one.mpr ⟨h.each, trivial⟩ }

theorem Inv.callback (h : Inv s) {r : Nat} {isAlreadyMember : Bool}
    (hfree : isAlreadyMember = true → s.processing = false) :
    Inv (callback s r isAlreadyMember) :=
  h.other (a := .rebalanced r isAlreadyMember)
    (fun hmember => h.not_halfDone (Or.inl (hfree hmember)))
    rfl rfl rfl rfl rfl rfl (Nat.le_refl _) (by simp) h.busy

theorem Inv.onRebalance (hauto : S.autoCommit = false) (h : Inv s) (isAlreadyMember : Bool) :
    Inv (onRebalance S s isAlreadyMember) := by
  have hnext : Inv { s with rebalances := s.rebalances + 1 } :=
    ⟨h.one, h.busy, h.halfDone_iff, h.inFlight_iff, h.fresh, h.each⟩
  rw [KafkaStreamConsumer.onRebalance, hauto, Bool.or_false]
  dsimp only
  split
  · rename_i hnew
    refine hnext.callback fun hmember => ?_
    rw [hmember] at hnew
    cases hnew
  · split
    · rename_i hprocessing
      exact hnext.callback fun _ => by simpa using hprocessing
    · exact ⟨h.one, h.busy, h.halfDone_iff, h.inFlight_iff, h.fresh, h.each⟩

/-- Whoever cleared the request in the meantime, a rebalance completes with the mark down. -/
theorem Inv.awake (h : Inv s) (r : Nat) : Inv (step S s (.awake r)) := by
  rw [step]
  split
  · split
    · exact h
    · rename_i hprocessing
      rw [Bool.not_eq_true] at hprocessing
      obtain ⟨hhandling, hcommitting⟩ := h.idle (Or.inl hprocessing)
      have hnext : Inv { s with
          sleeping := s.sleeping.erase r, pauseForRebalanceRequested := false, paused := false } :=
        ⟨h.one, by simp [hhandling, hcommitting], h.halfDone_iff, h.inFlight_iff, h.fresh, h.each⟩
      exact hnext.callback fun _ => hprocessing
  · exact h

theorem Inv.step (hauto : S.autoCommit = false) (h : Inv s) (e : Event) : Inv (step S s e) := by
  cases e with
  | data message =>
    rw [KafkaStreamConsumer.step]
    split
    · exact h
    · rename_i hpaused
      rw [Bool.not_eq_true] at hpaused
      exact h.onMessage hpaused message
  | settled n resolves =>
    rw [KafkaStreamConsumer.step]
    split
    · rename_i hn
      simp only [hauto]
      exact h.settled hn resolves
    · exact h
  | committed n err =>
    rw [KafkaStreamConsumer.step]
    split
    · rename_i hn
      dsimp only
      obtain ⟨paused, heq⟩ := resumeUnlessRequested_eq { s with
        committing := s.committing.erase n, timeline := s.timeline ++ [.committed n err] }
      rw [heq]
      exact h.committed hn err paused
    · exact h
  | rebalance isAlreadyMember => exact h.onRebalance hauto isAlreadyMember
  | awake r => exact h.awake r

end

/-- In every run, whatever the order of messages, handlers, commits and rebalances: no
rebalance of an existing member completes while a message is half done, and no two handlers
are ever in flight together. -/
theorem rebalance_between_messages (S : Setup) (hauto : S.autoCommit = false) (es : List Event) :
    (∀ past r later, (Machine.run (step S) start es).timeline =
        past ++ .rebalanced r true :: later → ∀ n, ¬ HalfDone past n) ∧
    ∀ past, past <+: (Machine.run (step S) start es).timeline →
      ∀ n m, InFlight past n → InFlight past m → n = m := by
  have hinv : Inv (Machine.run (step S) start es) :=
    Machine.run_always (fun _ e h => h.step hauto e) inv_start es
  constructor
  · intro past r later htimeline
    exact hinv.each past _ later htimeline rfl
  · rintro past ⟨later, htimeline⟩ n m hn hm
    have heach := hinv.each
    rw [← htimeline] at heach
    exact inFlight_unique heach.left hn hm

def sampleSetup : Setup := { autoCommit := false, parse := fun _ => some (.object []) }

/-- A message, two rebalances while it is handled, and the second message between them. -/
theorem rebalance_between_messages_sample :
    (∀ past r later, (Machine.run (step sampleSetup) start
          [.data ⟨none, some "\x7b\x7d"⟩, .rebalance true, .rebalance true, .settled 0 true,
            .committed 0 false, .awake 0, .data ⟨none, some "\x7b\x7d"⟩, .awake 1]).timeline =
        past ++ .rebalanced r true :: later → ∀ n, ¬ HalfDone past n) ∧
    ∀ past, past <+: (Machine.run (step sampleSetup) start
          [.data ⟨none, some "\x7b\x7d"⟩, .rebalance true, .rebalance true, .settled 0 true,
            .committed 0 false, .awake 0, .data ⟨none, some "\x7b\x7d"⟩, .awake 1]).timeline →
      ∀ n m, InFlight past n → InFlight past m → n = m :=
  rebalance_between_messages sampleSetup rfl _

end KafkaStreamConsumer

end Infrastructure
end PocArchitecture
