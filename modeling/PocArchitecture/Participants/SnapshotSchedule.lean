/-
When the snapshot operator asks for a snapshot.

`SnapshotRecord` is what a schedule has to know of a participant: the state events since its last
snapshot event, and when that one came.  The operator keeps the same in a map whose
entries are made by the first message of either kind, writes the map to Redis after every
message, and at each execution overwrites the map with what it reads back.  `Kept` says
when none of this loses anything: a snapshot event finds an entry, and a reload brings
back what the map has.
-/
import PocArchitecture.Lib.Machine
import PocArchitecture.Participants.SnapshotOperator
import Mathlib.Data.List.Induction
import Mathlib.Data.List.Nodup

namespace PocArchitecture
namespace Participants

open ParticipantSnapshotOperator

/-! ## The map -/

namespace ParticipantSnapshotOperator

variable {states : List ParticipantSnapshotState} {s : ParticipantSnapshotState} {id : String}

theorem get_cons (first : ParticipantSnapshotState) (rest : List ParticipantSnapshotState)
    (id : String) :
    get (first :: rest) id = if first.participantId = id then some first else get rest id := by
  rw [get, List.find?_cons]
  by_cases h : first.participantId = id
  · rw [if_pos h, decide_eq_true h]
  · rw [if_neg h, decide_eq_false h]
    rfl

theorem get_some (h : get states id = some s) : s ∈ states ∧ s.participantId = id := by
  have hid := List.find?_some h
  exact ⟨List.mem_of_find?_eq_some h, of_decide_eq_true hid⟩

theorem get_set (states : List ParticipantSnapshotState) (s : ParticipantSnapshotState)
    (id : String) : get (set states s) id = if s.participantId = id then some s else get states id := by
  induction states with
  | nil => rw [set, get_cons]
  | cons first rest ih =>
    rw [set]
    by_cases hf : first.participantId = s.participantId
    · rw [if_pos hf, get_cons, get_cons, hf]
      by_cases hs : s.participantId = id
      · rw [if_pos hs, if_pos hs]
      · rw [if_neg hs, if_neg hs, if_neg hs]
    · rw [if_neg hf, get_cons, get_cons, ih]
      by_cases hid : first.participantId = id
      · have hs : ¬ s.participantId = id := fun hs => hf (hid.trans hs.symm)
        rw [if_pos hid, if_neg hs, if_pos hid]
      · rw [if_neg hid, if_neg hid]

/-- Writing what is there changes nothing. -/
theorem set_of_get (h : get states s.participantId = some s) : set states s = states := by
  induction states with
  | nil => cases h
  | cons first rest ih =>
    rw [get_cons] at h
    rw [set]
    by_cases hf : first.participantId = s.participantId
    · rw [if_pos hf] at h ⊢
      rw [Option.some.inj h]
    · rw [if_neg hf] at h ⊢
      rw [ih h]

theorem mem_keys_set (states : List ParticipantSnapshotState) (s : ParticipantSnapshotState)
    (id : String) :
    id ∈ (set states s).map (·.participantId) ↔
      id = s.participantId ∨ id ∈ states.map (·.participantId) := by
  induction states with
  | nil => simp [set]
  | cons first rest ih =>
    rw [set]
    by_cases hf : first.participantId = s.participantId
    · simp [hf]
    · rw [if_neg hf, List.map_cons, List.mem_cons, ih, List.map_cons, List.mem_cons]
      tauto

theorem nodup_set (h : (states.map (·.participantId)).Nodup) :
    ((set states s).map (·.participantId)).Nodup := by
  induction states with
  | nil => simp [set]
  | cons first rest ih =>
    rw [List.map_cons, List.nodup_cons] at h
    rw [set]
    by_cases hf : first.participantId = s.participantId
    · rw [if_pos hf, List.map_cons, List.nodup_cons, ← hf]
      exact h
    · rw [if_neg hf, List.map_cons, List.nodup_cons, mem_keys_set]
      exact ⟨fun hmem => hmem.elim hf h.1, ih h.2⟩

/-- With one entry for each participant, `execute` goes through the map. -/
theorem mem_execute {op : ParticipantSnapshotOperator} {now : Int}
    (h : (op.snapshotStates.map (·.participantId)).Nodup) :
    id ∈ execute now op ↔ ∃ s, get op.snapshotStates id = some s ∧ isDue now s = true := by
  rw [execute, List.mem_map]
  generalize op.snapshotStates = states at h ⊢
  constructor
  · rintro ⟨s, hs, rfl⟩
    obtain ⟨hmem, hdue⟩ := List.mem_filter.mp hs
    refine ⟨s, ?_, hdue⟩
    induction states with
    | nil => cases hmem
    | cons first rest ih =>
      rw [List.map_cons, List.nodup_cons] at h
      rw [get_cons]
      rcases List.mem_cons.mp hmem with rfl | hrest
      · rw [if_pos rfl]
      · have hne : ¬ first.participantId = s.participantId := by
          intro hf
          exact h.1 (List.mem_map.mpr ⟨s, hrest, hf.symm⟩)
        rw [if_neg hne]
        exact ih h.2 (List.mem_filter.mpr ⟨hrest, hdue⟩) hrest
  · rintro ⟨s, hs, hdue⟩
    obtain ⟨hmem, hid⟩ := get_some hs
    exact ⟨s, List.mem_filter.mpr ⟨hmem, hdue⟩, hid⟩

theorem nodup_execute {op : ParticipantSnapshotOperator} {now : Int}
    (h : (op.snapshotStates.map (·.participantId)).Nodup) : (execute now op).Nodup :=
  h.sublist (List.filter_sublist.map _)

end ParticipantSnapshotOperator

/-! ## What is delivered -/

/-- What happens to the operator: a message with its arrival time and the fate of the calls
of its repository, or the store that an execution leaves behind when its commands have
been published. -/
inductive OperatorInput where
  | stateEvent (now : Int) (store : Bool) (participantId : String)
  | snapshotEvent (now : Int) (store : Bool) (participantId : String)
  | snapshotOperatorExecuteCmd (now : Int) (f : OperatorFaults)
  | lateUpdateState (store : Bool)

/-- The operator after one input, and the participants whose snapshot it asks for. -/
def OperatorInput.handle (op : ParticipantSnapshotOperator) :
    OperatorInput → ParticipantSnapshotOperator × List String
  | stateEvent now store id =>
    messageHandler now { load := true, store := store } op
      { msgTopic := .stateEvents, aggregateId := some id }
  | snapshotEvent now store id =>
    messageHandler now { load := true, store := store } op
      { msgTopic := .snapshotEvents, aggregateId := some id }
  | snapshotOperatorExecuteCmd now f =>
    messageHandler now f op
      { msgTopic := .snapshotOperatorCommands
        aggregateId := some "FixedSnapshotOperatorExecuteCmdKey" }
  | lateUpdateState store => (op.updateState store, [])

def OperatorInput.step (op : ParticipantSnapshotOperator) (input : OperatorInput) :
    ParticipantSnapshotOperator := (input.handle op).1

/-- The operator just started, with these participants in Redis and no state of its own. -/
def freshOperator (participantIds : List String) : ParticipantSnapshotOperator :=
  ParticipantSnapshotOperator.start { snapshotStates := [], stored := none } participantIds

/-! ## What a schedule has to know -/

/-- The state events since the last snapshot event, and when that one came. -/
structure SnapshotRecord where
  stateEvents : Nat
  lastSnapshot : Option Int
  deriving DecidableEq

namespace SnapshotRecord

def start : SnapshotRecord := { stateEvents := 0, lastSnapshot := none }

def note (id : String) (r : SnapshotRecord) : OperatorInput → SnapshotRecord
  | .stateEvent _ _ participantId =>
    if participantId = id then { r with stateEvents := r.stateEvents + 1 } else r
  | .snapshotEvent now _ participantId =>
    if participantId = id then { stateEvents := 0, lastSnapshot := some now } else r
  | .snapshotOperatorExecuteCmd _ _ | .lateUpdateState _ => r

/-- The record of a participant after these inputs. -/
def of (id : String) (done : List OperatorInput) : SnapshotRecord :=
  Machine.run (note id) start done

/-- Enough events, or enough time, since the last snapshot event; since ever without one. -/
def Due (now : Int) (r : SnapshotRecord) : Prop :=
  maxStateEventsUntilSnapshotsIssued ≤ r.stateEvents ∨
    ∀ t, r.lastSnapshot = some t → now - t ≥ maxSecsBetweenSnapshotsIssued * 1000

@[simp] theorem of_append_one (id : String) (done : List OperatorInput) (input : OperatorInput) :
    of id (done ++ [input]) = note id (of id done) input :=
  Machine.run_append _ _ _ _

end SnapshotRecord

/-- The participants an event names. -/
def OperatorInput.names (id : String) : OperatorInput → Prop
  | stateEvent _ _ participantId | snapshotEvent _ _ participantId => participantId = id
  | snapshotOperatorExecuteCmd _ _ | lateUpdateState _ => False

/-- Known at the start, or named by an event. -/
def Seen (participantIds : List String) (done : List OperatorInput) (id : String) : Prop :=
  id ∈ participantIds ∨ ∃ input ∈ done, input.names id

theorem seen_append_one {participantIds : List String} {done : List OperatorInput}
    {input : OperatorInput} {id : String} :
    Seen participantIds (done ++ [input]) id ↔ Seen participantIds done id ∨ input.names id := by
  simp only [Seen, List.mem_append, List.mem_singleton]
  constructor
  · rintro (h | ⟨input', h | rfl, hn⟩)
    · exact Or.inl (Or.inl h)
    · exact Or.inl (Or.inr ⟨input', h, hn⟩)
    · exact Or.inr hn
  · rintro ((h | ⟨input', h, hn⟩) | h)
    · exact Or.inl h
    · exact Or.inr ⟨input', Or.inl h, hn⟩
    · exact Or.inr ⟨input, Or.inr rfl, h⟩

theorem SnapshotRecord.of_unseen {participantIds : List String} {done : List OperatorInput}
    {id : String}
    (h : ¬ Seen participantIds done id) : SnapshotRecord.of id done = SnapshotRecord.start := by
  induction done using List.reverseRecOn with
  | nil => rfl
  | append_singleton done input ih =>
    rw [seen_append_one, not_or] at h
    rw [SnapshotRecord.of_append_one, ih h.1]
    cases input with
    | stateEvent now store participantId => exact if_neg h.2
    | snapshotEvent now store participantId => exact if_neg h.2
    | snapshotOperatorExecuteCmd now f => rfl
    | lateUpdateState store => rfl

/-! ## What the operator keeps -/

/-- What Redis holds is what the map has. -/
def Current (op : ParticipantSnapshotOperator) : Prop :=
  ∀ s ∈ op.stored.getD [], get op.snapshotStates s.participantId = some s

instance (op : ParticipantSnapshotOperator) : Decidable (Current op) :=
  inferInstanceAs (Decidable (∀ s ∈ op.stored.getD [], get op.snapshotStates s.participantId = some s))

theorem loadState_of_current {op : ParticipantSnapshotOperator} (h : Current op) :
    op.loadState = op := by
  have hfold : ∀ entries : List ParticipantSnapshotState,
      (∀ s ∈ entries, get op.snapshotStates s.participantId = some s) →
      entries.foldl set op.snapshotStates = op.snapshotStates := by
    intro entries hentries
    induction entries with
    | nil => rfl
    | cons s entries ih =>
      rw [List.foldl_cons, set_of_get (hentries s List.mem_cons_self)]
      exact ih fun s' hs' => hentries s' (List.mem_cons_of_mem s hs')
  rw [loadState, hfold _ h]

/-- What an input has to meet.  A snapshot event names a participant with an entry.  At an
execution the clock is past its first hour, and the state that is read back is the one in
memory; or nothing can be read and nobody is due. -/
def Kept (op : ParticipantSnapshotOperator) : OperatorInput → Prop
  | .stateEvent _ _ _ | .lateUpdateState _ => True
  | .snapshotEvent _ _ participantId => (get op.snapshotStates participantId).isSome = true
  | .snapshotOperatorExecuteCmd now f =>
    maxSecsBetweenSnapshotsIssued * 1000 ≤ now ∧
      if f.load then Current op else execute now op = []

instance (op : ParticipantSnapshotOperator) : ∀ input, Decidable (Kept op input)
  | .stateEvent _ _ _ => isTrue trivial
  | .lateUpdateState _ => isTrue trivial
  | .snapshotEvent _ _ participantId =>
    inferInstanceAs (Decidable ((get op.snapshotStates participantId).isSome = true))
  | .snapshotOperatorExecuteCmd now f =>
    inferInstanceAs (Decidable (maxSecsBetweenSnapshotsIssued * 1000 ≤ now ∧
      if f.load then Current op else execute now op = []))

/-- The map has one entry for each participant seen, and after a snapshot event its counter
and its timestamp are those of the record. -/
structure Tracks (participantIds : List String) (done : List OperatorInput)
    (states : List ParticipantSnapshotState) : Prop where
  nodup : (states.map (·.participantId)).Nodup
  seen : ∀ id, (get states id).isSome = true ↔ Seen participantIds done id
  unsnapshotted : ∀ id s, get states id = some s → (SnapshotRecord.of id done).lastSnapshot = none →
    s.lastSnapshotTs = 0
  snapshotted : ∀ id s t, get states id = some s →
    (SnapshotRecord.of id done).lastSnapshot = some t →
    s.lastSnapshotTs = t ∧
      s.stateEventsToNextSnapshot =
        maxStateEventsUntilSnapshotsIssued - (SnapshotRecord.of id done).stateEvents

section Steps

variable {participantIds : List String} {done : List OperatorInput} {input : OperatorInput}
  {states : List ParticipantSnapshotState} {op : ParticipantSnapshotOperator}

/-- An input that names nobody leaves the records as they are. -/
theorem Tracks.unnamed (h : Tracks participantIds done states) (hnote : ∀ id r,
      SnapshotRecord.note id r input = r) (hnames : ∀ id, ¬ input.names id) :
    Tracks participantIds (done ++ [input]) states where
  nodup := h.nodup
  seen id := by
    rw [h.seen, seen_append_one]
    exact (or_iff_left (hnames id)).symm
  unsnapshotted id s hs := by
    rw [SnapshotRecord.of_append_one, hnote]
    exact h.unsnapshotted id s hs
  snapshotted id s t hs := by
    rw [SnapshotRecord.of_append_one, hnote]
    exact h.snapshotted id s t hs

/-- An input that names one participant and leaves a right entry for it. -/
theorem Tracks.named (h : Tracks participantIds done states) {entry : ParticipantSnapshotState}
    (hnames : ∀ id, input.names id ↔ entry.participantId = id)
    (hother : ∀ id r, ¬ entry.participantId = id → SnapshotRecord.note id r input = r)
    (hnone : (SnapshotRecord.of entry.participantId (done ++ [input])).lastSnapshot = none →
      entry.lastSnapshotTs = 0)
    (hsome : ∀ t, (SnapshotRecord.of entry.participantId (done ++ [input])).lastSnapshot = some t →
      entry.lastSnapshotTs = t ∧ entry.stateEventsToNextSnapshot =
        maxStateEventsUntilSnapshotsIssued -
          (SnapshotRecord.of entry.participantId (done ++ [input])).stateEvents) :
    Tracks participantIds (done ++ [input]) (set states entry) where
  nodup := nodup_set h.nodup
  seen id := by
    rw [get_set, seen_append_one, hnames, ← h.seen]
    by_cases hid : entry.participantId = id
    · simp [hid]
    · simp [hid]
  unsnapshotted id s hs := by
    rw [get_set] at hs
    by_cases hid : entry.participantId = id
    · rw [if_pos hid] at hs
      obtain rfl := Option.some.inj hs
      subst hid
      exact hnone
    · rw [if_neg hid] at hs
      rw [SnapshotRecord.of_append_one, hother id _ hid]
      exact h.unsnapshotted id s hs
  snapshotted id s t hs := by
    rw [get_set] at hs
    by_cases hid : entry.participantId = id
    · rw [if_pos hid] at hs
      obtain rfl := Option.some.inj hs
      subst hid
      exact hsome t
    · rw [if_neg hid] at hs
      rw [SnapshotRecord.of_append_one, hother id _ hid]
      exact h.snapshotted id s t hs

theorem snapshotStates_updateState (ok : Bool) (op : ParticipantSnapshotOperator) :
    (op.updateState ok).snapshotStates = op.snapshotStates := by
  cases ok <;> rfl

theorem Tracks.stateEvent (h : Tracks participantIds done op.snapshotStates) (now : Int)
    (store : Bool) (id : String) :
    Tracks participantIds (done ++ [.stateEvent now store id])
      (OperatorInput.step op (.stateEvent now store id)).snapshotStates := by
  have hother : ∀ id' r, ¬ id = id' →
      SnapshotRecord.note id' r (.stateEvent now store id) = r := fun id' r hne => if_neg hne
  have hnote : SnapshotRecord.of id (done ++ [.stateEvent now store id]) =
      { SnapshotRecord.of id done with
        stateEvents := (SnapshotRecord.of id done).stateEvents + 1 } := by
    rw [SnapshotRecord.of_append_one, SnapshotRecord.note, if_pos rfl]
  cases hget : get op.snapshotStates id with
  | none =>
    have hstates : (OperatorInput.step op (.stateEvent now store id)).snapshotStates =
        set op.snapshotStates (newState id) := by
      rw [OperatorInput.step, OperatorInput.handle, messageHandler]
      simp only [hget, snapshotStates_updateState]
    have hunseen : ¬ Seen participantIds done id := by
      rw [← h.seen, hget]
      exact Bool.false_ne_true
    rw [hstates]
    refine h.named (fun id' => Iff.rfl) hother (fun _ => rfl) fun t ht => ?_
    change (SnapshotRecord.of id _).lastSnapshot = some t at ht
    rw [hnote, SnapshotRecord.of_unseen hunseen] at ht
    cases ht
  | some s =>
    have hid : s.participantId = id := (get_some hget).2
    have hstates : (OperatorInput.step op (.stateEvent now store id)).snapshotStates =
        set op.snapshotStates
          { s with stateEventsToNextSnapshot := s.stateEventsToNextSnapshot - 1 } := by
      rw [OperatorInput.step, OperatorInput.handle, messageHandler]
      simp only [hget, snapshotStates_updateState]
    rw [hstates]
    subst hid
    refine h.named (fun id' => Iff.rfl) hother ?_ ?_
    · rw [hnote]
      exact h.unsnapshotted _ s hget
    · intro t ht
      rw [hnote] at ht ⊢
      obtain ⟨hts, hcount⟩ := h.snapshotted _ s t hget ht
      refine ⟨hts, ?_⟩
      show s.stateEventsToNextSnapshot - 1 = _
      rw [hcount]
      push_cast
      omega

theorem Tracks.snapshotEvent (h : Tracks participantIds done op.snapshotStates) (now : Int)
    (store : Bool) {id : String} (hknown : (get op.snapshotStates id).isSome = true) :
    Tracks participantIds (done ++ [.snapshotEvent now store id])
      (OperatorInput.step op (.snapshotEvent now store id)).snapshotStates := by
  obtain ⟨s, hget⟩ := Option.isSome_iff_exists.mp hknown
  have hid : s.participantId = id := (get_some hget).2
  have hnote : SnapshotRecord.of id (done ++ [.snapshotEvent now store id]) =
      { stateEvents := 0, lastSnapshot := some now } := by
    rw [SnapshotRecord.of_append_one, SnapshotRecord.note, if_pos rfl]
  have hstates : (OperatorInput.step op (.snapshotEvent now store id)).snapshotStates =
      set op.snapshotStates { s with
        stateEventsToNextSnapshot := maxStateEventsUntilSnapshotsIssued, lastSnapshotTs := now } := by
    rw [OperatorInput.step, OperatorInput.handle, messageHandler]
    simp only [hget, snapshotStates_updateState]
  rw [hstates]
  subst hid
  refine h.named (fun id' => Iff.rfl) (fun id' r hne => if_neg hne) ?_ ?_
  · intro hnone
    change (SnapshotRecord.of s.participantId _).lastSnapshot = none at hnone
    rw [hnote] at hnone
    cases hnone
  · intro t ht
    change (SnapshotRecord.of s.participantId _).lastSnapshot = some t at ht
    rw [hnote] at ht
    obtain rfl := Option.some.inj ht
    refine ⟨rfl, ?_⟩
    show maxStateEventsUntilSnapshotsIssued =
      _ - ((SnapshotRecord.of s.participantId _).stateEvents : Int)
    rw [hnote]
    rfl

/-- The map after an execution is the map before it. -/
theorem snapshotStates_execute {now : Int} {f : OperatorFaults}
    (hkept : Kept op (.snapshotOperatorExecuteCmd now f)) :
    (OperatorInput.step op (.snapshotOperatorExecuteCmd now f)).snapshotStates =
      op.snapshotStates := by
  rw [OperatorInput.step, OperatorInput.handle, messageHandler]
  cases hload : f.load with
  | false => simp only [Bool.false_eq_true, if_false]
  | true =>
    have hcurrent : Current op := by
      have h := hkept.2
      rwa [hload, if_pos rfl] at h
    simp only [if_true, snapshotStates_updateState, loadState_of_current hcurrent]

theorem Tracks.step (h : Tracks participantIds done op.snapshotStates) (hkept : Kept op input) :
    Tracks participantIds (done ++ [input]) (input.step op).snapshotStates := by
  cases input with
  | stateEvent now store id => exact h.stateEvent now store id
  | snapshotEvent now store id => exact h.snapshotEvent now store hkept
  | snapshotOperatorExecuteCmd now f =>
    rw [snapshotStates_execute hkept]
    exact h.unnamed (fun _ _ => rfl) fun _ hn => hn
  | lateUpdateState store =>
    have hstates : (OperatorInput.step op (.lateUpdateState store)).snapshotStates =
        op.snapshotStates := snapshotStates_updateState store op
    rw [hstates]
    exact h.unnamed (fun _ _ => rfl) fun _ hn => hn

/-- The entry of a participant is due exactly when its record is. -/
theorem Tracks.isDue_iff (h : Tracks participantIds done states) {now : Int}
    (hnow : maxSecsBetweenSnapshotsIssued * 1000 ≤ now) {id : String}
    {s : ParticipantSnapshotState} (hget : get states id = some s) :
    isDue now s = true ↔ (SnapshotRecord.of id done).Due now := by
  rw [isDue, decide_eq_true_eq, SnapshotRecord.Due]
  cases hlast : (SnapshotRecord.of id done).lastSnapshot with
  | none =>
    have hts := h.unsnapshotted id s hget hlast
    refine iff_of_true (Or.inr ?_) (Or.inr fun t ht => by cases ht)
    rw [hts]
    omega
  | some t =>
    obtain ⟨hts, hcount⟩ := h.snapshotted id s t hget hlast
    rw [hts, hcount]
    constructor
    · rintro (hc | ht)
      · exact Or.inl (by omega)
      · refine Or.inr fun t' ht' => ?_
        obtain rfl := Option.some.inj ht'
        exact ht
    · rintro (hc | ht)
      · exact Or.inl (by omega)
      · exact Or.inr (ht t rfl)

end Steps

/-! ## Every run -/

/-- One more participant found in Redis. -/
theorem Tracks.found {before : List String} {states : List ParticipantSnapshotState}
    (h : Tracks before [] states) (id : String) :
    Tracks (before ++ [id]) []
      (if (get states id).isNone then set states (newState id) else states) := by
  have hseen : ∀ id', Seen (before ++ [id]) [] id' ↔ Seen before [] id' ∨ id = id' := by
    intro id'
    simp [Seen, eq_comm]
  by_cases hget : (get states id).isNone = true
  · rw [if_pos hget]
    refine
      { nodup := nodup_set h.nodup
        seen := fun id' => ?_
        unsnapshotted := fun id' s hs _ => ?_
        snapshotted := fun id' s t _ ht => by cases ht }
    · rw [get_set, hseen, ← h.seen]
      by_cases hid : id = id' <;> simp [newState, hid]
    · rw [get_set] at hs
      by_cases hid : (newState id).participantId = id'
      · rw [if_pos hid] at hs
        rw [← Option.some.inj hs]
        rfl
      · rw [if_neg hid] at hs
        exact h.unsnapshotted id' s hs rfl
  · rw [if_neg hget]
    refine
      { nodup := h.nodup
        seen := fun id' => ?_
        unsnapshotted := h.unsnapshotted
        snapshotted := h.snapshotted }
    rw [hseen, ← h.seen]
    refine (or_iff_left_of_imp ?_).symm
    rintro rfl
    rw [Option.isNone_iff_eq_none] at hget
    exact Option.isSome_iff_ne_none.mpr hget

theorem tracks_fresh (participantIds : List String) :
    Tracks participantIds [] (freshOperator participantIds).snapshotStates := by
  have hempty : Tracks [] [] [] :=
    { nodup := List.nodup_nil
      seen := fun id => iff_of_false Bool.false_ne_true (by simp [Seen])
      unsnapshotted := fun id s hs _ => by cases hs
      snapshotted := fun id s t hs _ => by cases hs }
  have hfold : ∀ (rest before : List String) (states : List ParticipantSnapshotState),
      Tracks before [] states → Tracks (before ++ rest) [] (rest.foldl
        (fun states id =>
          if (ParticipantSnapshotOperator.get states id).isNone then set states (newState id)
          else states) states) := by
    intro rest
    induction rest with
    | nil =>
      intro before states h
      rwa [List.append_nil]
    | cons id rest ih =>
      intro before states h
      have hrest := ih (before ++ [id]) _ (h.found id)
      rwa [List.append_assoc] at hrest
  exact hfold participantIds [] [] hempty

theorem tracks_run (participantIds : List String) {inputs : List OperatorInput}
    (h : Machine.Along OperatorInput.step Kept (freshOperator participantIds) inputs) :
    Tracks participantIds inputs
      (Machine.run OperatorInput.step (freshOperator participantIds) inputs).snapshotStates := by
  induction inputs using List.reverseRecOn with
  | nil => exact tracks_fresh participantIds
  | append_singleton inputs input ih =>
    rw [Machine.along_append_one] at h
    rw [Machine.run_append]
    exact (ih h.1).step h.2

/-- The execution asks for the snapshots that are due, one each, and the reload loses
nothing. -/
structure ScheduledExactly (participantIds : List String) (done : List OperatorInput) (now : Int)
    (f : OperatorFaults) : Prop where
  nodup : (OperatorInput.handle (Machine.run OperatorInput.step (freshOperator participantIds) done)
    (.snapshotOperatorExecuteCmd now f)).2.Nodup
  due : ∀ id, id ∈ (OperatorInput.handle
      (Machine.run OperatorInput.step (freshOperator participantIds) done)
      (.snapshotOperatorExecuteCmd now f)).2 ↔
    Seen participantIds done id ∧ (SnapshotRecord.of id done).Due now
  kept : ∀ id, get (OperatorInput.handle
      (Machine.run OperatorInput.step (freshOperator participantIds) done)
      (.snapshotOperatorExecuteCmd now f)).1.snapshotStates id =
    get (Machine.run OperatorInput.step (freshOperator participantIds) done).snapshotStates id

theorem Tracks.scheduledExactly {participantIds : List String} {done : List OperatorInput}
    {now : Int} {f : OperatorFaults}
    (h : Tracks participantIds done
      (Machine.run OperatorInput.step (freshOperator participantIds) done).snapshotStates)
    (hkept : Kept (Machine.run OperatorInput.step (freshOperator participantIds) done)
      (.snapshotOperatorExecuteCmd now f)) :
    ScheduledExactly participantIds done now f := by
  have hstates := snapshotStates_execute hkept
  generalize hop : Machine.run OperatorInput.step (freshOperator participantIds) done = op
    at h hkept hstates
  have hasked : (OperatorInput.handle op (.snapshotOperatorExecuteCmd now f)).2 =
      execute now op := by
    rw [OperatorInput.handle, messageHandler]
    cases hload : f.load with
    | false =>
      have hidle := hkept.2
      rw [hload, if_neg Bool.false_ne_true] at hidle
      simp only [Bool.false_eq_true, if_false, hidle]
    | true =>
      have hcurrent := hkept.2
      rw [hload, if_pos rfl] at hcurrent
      simp only [if_true, loadState_of_current hcurrent]
  refine { nodup := ?_, due := fun id => ?_, kept := fun id => ?_ }
  · rw [hop, hasked]
    exact nodup_execute h.nodup
  · rw [hop, hasked, mem_execute h.nodup, ← h.seen]
    constructor
    · rintro ⟨s, hs, hdue⟩
      rw [hs]
      exact ⟨rfl, (h.isDue_iff hkept.1 hs).mp hdue⟩
    · rintro ⟨hknown, hdue⟩
      obtain ⟨s, hs⟩ := Option.isSome_iff_exists.mp hknown
      exact ⟨s, hs, (h.isDue_iff hkept.1 hs).mpr hdue⟩
  · rw [hop]
    exact congrArg (get · id) hstates

/-- In every run whose inputs all meet `Kept`, each execution is exact. -/
theorem scheduled_along (participantIds : List String) (inputs : List OperatorInput)
    (h : Machine.Along OperatorInput.step Kept (freshOperator participantIds) inputs) :
    ∀ done now f, done ++ [.snapshotOperatorExecuteCmd now f] <+: inputs →
      ScheduledExactly participantIds done now f := by
  intro done now f hprefix
  obtain ⟨rest, rfl⟩ := hprefix
  induction rest using List.reverseRecOn with
  | nil =>
    rw [List.append_nil, Machine.along_append_one] at h
    exact (tracks_run participantIds h.1).scheduledExactly h.2
  | append_singleton rest input ih =>
    rw [← List.append_assoc, Machine.along_append_one] at h
    exact ih h.1

/-- A participant is created, snapshotted, and an hour later asked for again. -/
theorem scheduled_along_sample :
    ScheduledExactly ["green"]
      [.stateEvent 3600000 true "blue", .snapshotEvent 3600000 true "blue",
        .snapshotOperatorExecuteCmd 3600001 { load := true, store := true },
        .lateUpdateState true]
      7200000 { load := true, store := true } :=
  scheduled_along ["green"]
    [.stateEvent 3600000 true "blue", .snapshotEvent 3600000 true "blue",
      .snapshotOperatorExecuteCmd 3600001 { load := true, store := true },
      .lateUpdateState true,
      .snapshotOperatorExecuteCmd 7200000 { load := true, store := true }]
    (by decide +kernel) _ _ _ List.prefix_rfl

/-- A snapshot event whose store failed is forgotten by the next reload, and one that comes
first is not recorded at all: a millisecond later the participant is asked for again. -/
theorem snapshot_event_lost :
    ¬ ScheduledExactly []
        [.stateEvent 3600000 true "blue", .snapshotEvent 3600000 false "blue"] 3600001
        { load := true, store := true } ∧
      ¬ ScheduledExactly [] [.snapshotEvent 3600000 true "blue"] 3600001
        { load := true, store := true } := by
  constructor
  · intro h
    have hdue := ((h.due "blue").mp (by decide +kernel)).2
    rcases hdue with hcount | htime
    · exact absurd hcount (by decide +kernel)
    · exact absurd (htime 3600000 (by decide +kernel)) (by decide +kernel)
  · intro h
    have hdue := ((h.due "blue").mp (by decide +kernel)).2
    rcases hdue with hcount | htime
    · exact absurd hcount (by decide +kernel)
    · exact absurd (htime 3600000 (by decide +kernel)) (by decide +kernel)

end Participants
end PocArchitecture
