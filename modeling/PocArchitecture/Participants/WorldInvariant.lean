/-
What every command keeps true of the cache and the log.

Entities are stored and published under their own id, and the topics hold nothing but
what the aggregate published.  `WellKept` collects this; it holds of the empty world and
every command keeps it, whatever fails.
-/
import PocArchitecture.Lib.Machine
import PocArchitecture.Participants.Verdict

namespace PocArchitecture
namespace Participants

open PublicMessages Infrastructure
open Domain (Loaded PublishOutcome Settled)
open Domain.BaseEventSourcingAggregate

namespace ParticpantsAgg

variable {R : StateRepo ParticipantState} {B : BigNumber} {f : Faults} {w : World} {cmd : Command}

abbrev Log := EventStore ParticipantStateEvt ParticipantState

/-- Every record carries the id of what it is about as its key. -/
structure LogKeyed (log : Log) : Prop where
  stateEvents : ∀ r ∈ log.stateEvents, r.key = r.value.msgKey
  snapshots : ∀ r ∈ log.snapshots, r.key = r.value.payload.id

structure WellKept (R : StateRepo ParticipantState) (w : World) : Prop where
  view_id : ∀ id s, R.view w.repo id = some s → s.id = id
  log_keyed : LogKeyed w.log
  log_consistent : w.log.Consistent

/-! ## Replay -/

theorem applyStateEvent_id {root : Option ParticipantState} {evt : ParticipantStateEvt}
    {s : ParticipantState} {id : String} (hroot : ∀ r, root = some r → r.id = id)
    (hevt : evt.msgKey = id) (h : applyStateEvent root evt = some s) : s.id = id := by
  cases evt with
  | participantCreatedStateEvt participant =>
    cases h
    exact hevt
  | participantPositionChangedStateEvt evt =>
    cases root with
    | none => cases h
    | some root =>
      rw [applyStateEvent, applyPositionChangedStateEvent] at h
      split at h
      · cases h
        exact hroot root rfl
      · cases h

theorem applyManyStateEvents_id {events : List ParticipantStateEvt} {root : Option ParticipantState}
    {s : ParticipantState} {id : String} (hroot : ∀ r, root = some r → r.id = id)
    (hevents : ∀ e ∈ events, e.msgKey = id)
    (h : applyManyStateEvents applyStateEvent root events = some s) : s.id = id := by
  induction events generalizing root with
  | nil => exact hroot s h
  | cons e events ih =>
    rw [applyManyStateEvents] at h
    cases he : applyStateEvent root e with
    | none => simp [he] at h
    | some s' =>
      simp only [he] at h
      refine ih (fun r hr => ?_) (fun e' he' => hevents e' (List.mem_cons_of_mem e he')) h
      obtain rfl := Option.some.inj hr
      exact applyStateEvent_id hroot (hevents e List.mem_cons_self) he

theorem LogKeyed.fetchAll {log : Log} (h : LogKeyed log) {id : String} {p o : Option Nat} :
    ∀ e ∈ log.stateEvents.fetchAll id p o, e.msgKey = id := by
  intro e he
  obtain ⟨r, hr, rfl⟩ := List.mem_map.mp he
  obtain ⟨hmem, hwanted⟩ := List.mem_filter.mp hr
  rw [← h.stateEvents r hmem]
  simp only [Topic.wanted, Bool.and_eq_true, beq_iff_eq] at hwanted
  exact hwanted.1.1

theorem LogKeyed.fetchLast {log : Log} (h : LogKeyed log) {id : String} {p o : Option Nat}
    {r : Record (StateSnapshotMsg ParticipantState)}
    (hr : log.snapshots.fetchLast id p o = some r) : r.value.payload.id = id := by
  rw [← h.snapshots r (List.mem_of_find?_eq_some hr)]
  have hwanted := List.find?_some hr
  simp only [Topic.wanted, Bool.and_eq_true, beq_iff_eq] at hwanted
  exact hwanted.1.1

theorem LogKeyed.rebuild_id {log : Log} (h : LogKeyed log) {id : String} {s : ParticipantState}
    (hs : rebuild applyStateEvent (log.sourced id) = .found s) : s.id = id := by
  have hsnap : ∀ r, log.fetchSnapshot id = some r → r.value.payload.id = id := by
    intro r hr
    simp only [EventStore.fetchSnapshot] at hr
    split at hr <;> exact h.fetchLast hr
  have key : ∀ es : TESourcingState ParticipantStateEvt ParticipantState,
      (∀ m, es.snapshot = some m → m.payload.id = id) → (∀ e ∈ es.events, e.msgKey = id) →
      rebuild applyStateEvent es = .found s → s.id = id := by
    intro es hsnapshot hevents hes
    have hroot : ∀ r, es.snapshot.map (·.payload) = some r → r.id = id := by
      intro r hr
      obtain ⟨m, hm, rfl⟩ := Option.map_eq_some_iff.mp hr
      exact hsnapshot m hm
    exact applyManyStateEvents_id hroot hevents (rebuild_found hes)
  refine key _ (fun m hm => ?_) (fun e he => ?_) hs
  · simp only [EventStore.sourced] at hm
    cases hr : log.fetchSnapshot id with
    | some r =>
      rw [hr] at hm
      cases hm
      exact hsnap r hr
    | none =>
      rw [hr] at hm
      dsimp only at hm
      split at hm <;> cases hm
  · simp only [EventStore.sourced] at he
    split at he
    · exact h.fetchAll e he
    · split at he <;> exact h.fetchAll e he

theorem WellKept.lookup_id (h : WellKept R w) {id : String} {s : ParticipantState}
    (hs : lookup R applyStateEvent w id = .found s) : s.id = id := by
  rw [lookup] at hs
  cases hv : R.view w.repo id with
  | some s' =>
    rw [hv] at hs
    obtain rfl := Loaded.found.inj hs
    exact h.view_id id s' hv
  | none =>
    rw [hv] at hs
    exact h.log_keyed.rebuild_id hs

/-! ## Publication -/

theorem LogKeyed.record {log : Log} (h : LogKeyed log) (m : Message) : LogKeyed (record log m) := by
  cases m with
  | stateEvt evt =>
    refine { stateEvents := fun r hr => ?_, snapshots := h.snapshots }
    rcases List.mem_append.mp hr with hr | hr
    · exact h.stateEvents r hr
    · obtain rfl := List.mem_singleton.mp hr
      rfl
  | participantStateSnapshotEvt state =>
    refine { stateEvents := h.stateEvents, snapshots := fun r hr => ?_ }
    rcases List.mem_append.mp hr with hr | hr
    · exact h.snapshots r hr
    · obtain rfl := List.mem_singleton.mp hr
      rfl
  | _ => exact h

theorem LogKeyed.recordAll {log : Log} (h : LogKeyed log) (msgs : List Message) :
    LogKeyed (recordAll log msgs) := by
  induction msgs generalizing log with
  | nil => exact h
  | cons m msgs ih => exact ih (h.record m)

theorem consistent_record {log : Log} (h : log.Consistent) (m : Message) :
    (record log m).Consistent := by
  cases m with
  | stateEvt evt => exact h.produceStateEvent _ _ _
  | participantStateSnapshotEvt state => exact h.produceSnapshot _ _
  | _ => exact h

theorem consistent_recordAll {log : Log} (h : log.Consistent) (msgs : List Message) :
    (recordAll log msgs).Consistent := by
  induction msgs generalizing log with
  | nil => exact h
  | cons m msgs ih => exact ih (consistent_record h m)

/-! ## Commands -/

theorem verdict_loaded {s : ParticipantState} (h : (verdict R B w cmd).loaded = some s) :
    lookup R applyStateEvent w cmd.rootId = .found s := by
  cases cmd with
  | createParticipantCmd participant =>
    rw [verdict] at h
    dsimp only [Command.rootId]
    split at h
    · cases h
    · cases h
    · rename_i root hroot
      rw [hroot, ← Option.some.inj h]
  | reservePayerFundsCmd payload =>
    rw [verdict] at h
    dsimp only [Command.rootId]
    split at h
    · cases h
    · cases h
    · rename_i payer hroot
      rw [Decision.verdict_loaded] at h
      rw [hroot, Option.some.inj h]
  | commitPayeeFundsCmd payload =>
    rw [verdict] at h
    dsimp only [Command.rootId]
    split at h
    · cases h
    · cases h
    · rename_i payee hroot
      split at h
      · rw [Decision.verdict_loaded] at h
        rw [hroot, Option.some.inj h]
      · rw [hroot, ← Option.some.inj h]
  | snapshotParticipantStateCmd participantId =>
    rw [verdict] at h
    dsimp only [Command.rootId]
    split at h
    · cases h
    · cases h
    · rename_i root hroot
      rw [hroot, ← Option.some.inj h]

theorem WellKept.keyed (h : WellKept R w) (cmd : Command) :
    ∀ s, lookup R applyStateEvent w cmd.rootId = .found s → s.id = cmd.rootId :=
  fun _ hs => h.lookup_id hs

theorem afterLoad_some {id : String} {root s : ParticipantState}
    (h : afterLoad R f w id root = some s) : s = root := by
  rw [afterLoad] at h
  split at h
  · exact (Option.some.inj h).symm
  · cases h

/-- What a load shows after a command is what it showed before, the entity the command
loaded, or the entity it accepted. -/
theorem finalView_cases (v : Verdict) {id : String} {s : ParticipantState}
    (h : v.finalView R f w id = some s) :
    R.view w.repo id = some s ∨ v.loaded = some s ∨ v.accepted = some s := by
  rw [Verdict.finalView] at h
  split at h
  · exact Or.inr (Or.inr h)
  · cases v with
    | reject => exact Or.inl h
    | create participant => exact Or.inl h
    | refuse root events =>
      cases root with
      | none => exact Or.inl h
      | some root => exact Or.inr (Or.inl (congrArg some (afterLoad_some h).symm))
    | move root root' events stateEvent =>
      rw [Verdict.handledView] at h
      split at h
      · exact Or.inr (Or.inr h)
      · exact Or.inr (Or.inl (congrArg some (afterLoad_some h).symm))
    | snapshot root => exact Or.inr (Or.inl (congrArg some (afterLoad_some h).symm))

theorem load_consistent (h : w.log.Consistent) (offsets : Bool) (id : String) :
    (load R applyStateEvent offsets w id).world.log.Consistent := by
  rcases load_log R applyStateEvent offsets w id with hl | hl
  · rwa [hl]
  · rw [hl]
    exact h.load offsets id

theorem load_keyed (h : LogKeyed w.log) (offsets : Bool) (id : String) :
    LogKeyed (load R applyStateEvent offsets w id).world.log := by
  rcases load_log R applyStateEvent offsets w id with hl | hl
  · rwa [hl]
  · rw [hl]
    exact { stateEvents := by rw [EventStore.load_stateEvents]; exact h.stateEvents,
            snapshots := by rw [EventStore.load_snapshots]; exact h.snapshots }

/-- Every command keeps the world well kept, whatever fails. -/
theorem WellKept.processCommand (hR : R.Lawful ParticipantState.id) (h : WellKept R w)
    (B : BigNumber) (f : Faults) (cmd : Command) :
    WellKept R (processCommand R B f w cmd).repo where
  view_id id s hs := by
    by_cases hid : id = cmd.rootId
    · subst hid
      rw [processCommand_view_root hR (h.keyed cmd)] at hs
      rcases finalView_cases _ hs with hv | hl | ha
      · exact h.view_id _ s hv
      · exact h.lookup_id (verdict_loaded hl)
      · exact verdict_accepted_id (h.keyed cmd) ha
    · rw [processCommand_view_ne hR (h.keyed cmd) hid] at hs
      exact h.view_id id s hs
  log_keyed := by
    rw [processCommand_log hR (h.keyed cmd)]
    exact (load_keyed h.log_keyed _ _).recordAll _
  log_consistent := by
    rw [processCommand_log hR (h.keyed cmd)]
    exact consistent_recordAll (load_consistent h.log_consistent _ _) _

/-! ## The start -/

/-- Nothing cached, nothing published. -/
def start (partitioner : String → Nat) : World :=
  { repo := RepoState.empty, log := EventStore.empty partitioner }

theorem wellKept_start (hR : R.Lawful ParticipantState.id) (partitioner : String → Nat) :
    WellKept R (start partitioner) where
  view_id id s hs := by
    rw [start, hR.view_empty] at hs
    cases hs
  log_keyed := { stateEvents := fun _ hr => absurd hr List.not_mem_nil
                 snapshots := fun _ hr => absurd hr List.not_mem_nil }
  log_consistent := EventStore.Consistent.empty partitioner

/-- The commands of a list, one after the other, with the same failures around each. -/
def processAll (R : StateRepo ParticipantState) (B : BigNumber) (f : Faults) (w : World)
    (cmds : List Command) : World :=
  Machine.run (fun w cmd => (processCommand R B f w cmd).repo) w cmds

theorem WellKept.processAll (hR : R.Lawful ParticipantState.id) (h : WellKept R w)
    (B : BigNumber) (f : Faults) (cmds : List Command) : WellKept R (processAll R B f w cmds) :=
  Machine.run_always (fun _ cmd hw => hw.processCommand hR B f cmd) h cmds

/-! ## A small example -/

/-- A participant with one dollar account at zero and a cap of one hundred. -/
def sampleParticipant (id : String) : ParticipantState :=
  { id := id, name := id
    accounts := [{ type := .position, currency := "USD", position := "0", initialPosition := "0",
                   limits := [{ type := .netDebitCap, value := "100" }] }]
    endpoints := [], partition := none }

def sampleTerms : TransferTerms :=
  { transferId := "t1", amount := "10", currency := "USD", payerId := "blue", payeeId := "green" }

/-- Two participants, just created. -/
def sampleWorld (R : StateRepo ParticipantState) : World :=
  processAll R wholeNumbers Faults.none (start fun _ => 0)
    [.createParticipantCmd (sampleParticipant "blue"),
      .createParticipantCmd (sampleParticipant "green")]

theorem sampleWorld_wellKept (hR : R.Lawful ParticipantState.id) : WellKept R (sampleWorld R) :=
  (wellKept_start hR _).processAll hR _ _ _

end ParticpantsAgg

end Participants
end PocArchitecture
