/-
Which snapshot and which events a participant is recovered from.

A recovery is meant to start from the last snapshot and to apply what was published
after it.  `fetchLast` returns the first snapshot it meets, and the snapshots say neither
where their events begin nor in which partition they are, so every state event is read
whatever snapshot was found.  A participant has been created before it can be asked for a
snapshot; so the two agree exactly as long as there is no snapshot at all.
-/
import PocArchitecture.Participants.Repos
import PocArchitecture.Participants.LaterLoads

namespace PocArchitecture
namespace Participants

open PublicMessages Infrastructure
open Domain (Loaded PublishOutcome Settled)
open Domain.BaseEventSourcingAggregate

/-- The state event a message carries for a participant. -/
def Message.stateEvtOf (id : String) : Message → Option ParticipantStateEvt
  | stateEvt evt => if evt.msgKey = id then some evt else none
  | _ => none

/-- The snapshot a message carries of a participant. -/
def Message.snapshotOf (id : String) : Message → Option ParticipantState
  | participantStateSnapshotEvt state => if state.id = id then some state else none
  | _ => none

namespace ParticpantsAgg

abbrev Sourcing := TESourcingState ParticipantStateEvt ParticipantState

def Sourcing.nothing : Sourcing := { snapshot := none, events := [] }

def snapshotMsg (state : ParticipantState) : StateSnapshotMsg ParticipantState :=
  { payload := state, lastEventOffset := none, eventsPartition := none }

/-! ## The last snapshot and what follows it -/

def followUp (id : String) (es : Sourcing) (m : Message) : Sourcing :=
  match m.snapshotOf id, m.stateEvtOf id with
  | some state, _ => { snapshot := some (snapshotMsg state), events := [] }
  | none, some evt => { es with events := es.events ++ [evt] }
  | none, none => es

/-- The last snapshot of a participant among the published messages, with the state events
published after it. -/
def sinceLastSnapshot (id : String) (msgs : List Message) : Sourcing :=
  msgs.foldl (followUp id) Sourcing.nothing

/-! ## What is fetched -/

section Fetched

variable {log : Log} {id : String}

/-- The first snapshot stays, and every state event is added. -/
theorem sourced_record (h : log.Consistent) (m : Message) :
    (record log m).sourced id =
      { snapshot := (log.sourced id).snapshot.or ((m.snapshotOf id).map snapshotMsg),
        events := (log.sourced id).events ++ (m.stateEvtOf id).toList } := by
  cases m with
  | stateEvt evt =>
    by_cases hkey : evt.msgKey = id
    · rw [sourced_record_self h evt hkey, Message.stateEvtOf, if_pos hkey]
      simp [Message.snapshotOf]
    · rw [sourced_record_ne h (by simpa [logKey] using hkey), Message.stateEvtOf, if_neg hkey]
      simp [Message.snapshotOf]
  | participantStateSnapshotEvt state =>
    by_cases hkey : state.id = id
    · have hevents := h.events_produceSnapshot state.id state id
      have hnone : (Message.participantStateSnapshotEvt state).stateEvtOf id = none := rfl
      rw [Message.snapshotOf, if_pos hkey, hnone, Option.toList_none, List.append_nil, record,
        ← hevents]
      have hsnapshot : ((log.produceSnapshot state.id state).sourced id).snapshot =
          (log.sourced id).snapshot.or (some (snapshotMsg state)) := by
        cases hs : (log.sourced id).snapshot with
        | none =>
          subst hkey
          rw [h.snapshot_produceSnapshot_of_none state hs]
          rfl
        | some m => exact log.snapshot_produceSnapshot state.id state hs
      rw [Option.map_some, ← hsnapshot]
    · rw [sourced_record_ne h (by simpa [logKey] using hkey), Message.snapshotOf, if_neg hkey]
      simp [Message.stateEvtOf]
  | _ =>
    rw [sourced_record_ne h (by simp [logKey])]
    simp [Message.snapshotOf, Message.stateEvtOf]

theorem events_recordAll (h : log.Consistent) (msgs : List Message) :
    ((recordAll log msgs).sourced id).events =
      (log.sourced id).events ++ msgs.filterMap (·.stateEvtOf id) := by
  induction msgs generalizing log with
  | nil => rw [recordAll, List.foldl_nil, List.filterMap_nil, List.append_nil]
  | cons m msgs ih =>
    rw [recordAll, List.foldl_cons]
    refine (ih (consistent_record h m)).trans ?_
    rw [sourced_record h, List.filterMap_cons]
    cases m.stateEvtOf id <;> simp

/-- A snapshot that is fetched afterwards was fetched before, or is among the new messages. -/
theorem snapshot_recordAll (h : log.Consistent) (msgs : List Message)
    (hs : ((recordAll log msgs).sourced id).snapshot.isSome = true) :
    (log.sourced id).snapshot.isSome = true ∨ ∃ m ∈ msgs, (m.snapshotOf id).isSome = true := by
  induction msgs generalizing log with
  | nil => exact Or.inl hs
  | cons m msgs ih =>
    rcases ih (consistent_record h m) hs with hs' | ⟨m', hm', hs'⟩
    · rw [sourced_record h, Option.isSome_or, Option.isSome_map, Bool.or_eq_true] at hs'
      exact hs'.imp_right fun hm => ⟨m, List.mem_cons_self, hm⟩
    · exact Or.inr ⟨m', List.mem_cons_of_mem m hm', hs'⟩

end Fetched

/-! ## Fetched and meant -/

/-- The messages hold a snapshot of the participant. -/
def HasSnapshot (id : String) (msgs : List Message) : Prop :=
  ∃ m ∈ msgs, (m.snapshotOf id).isSome = true

/-- Without a snapshot the log yields what it should; with one it yields too many events. -/
structure Told (id : String) (log : Log) (msgs : List Message) : Prop where
  agrees : ¬ HasSnapshot id msgs → log.sourced id = sinceLastSnapshot id msgs
  exceeds : HasSnapshot id msgs →
    (sinceLastSnapshot id msgs).events.length < (log.sourced id).events.length

section ToldLemmas

variable {log : Log} {id : String} {msgs : List Message}

theorem hasSnapshot_append_one (m : Message) :
    HasSnapshot id (msgs ++ [m]) ↔ HasSnapshot id msgs ∨ (m.snapshotOf id).isSome = true := by
  simp [HasSnapshot, or_and_right, exists_or]

theorem sinceLastSnapshot_append_one (m : Message) :
    sinceLastSnapshot id (msgs ++ [m]) = followUp id (sinceLastSnapshot id msgs) m := by
  rw [sinceLastSnapshot, List.foldl_append]
  rfl

theorem Told.one (h : Told id log msgs) (hc : log.Consistent) {m : Message}
    (hm : (m.snapshotOf id).isSome = true → (log.sourced id).events ≠ []) :
    Told id (record log m) (msgs ++ [m]) := by
  have hmono : (log.sourced id).events.length ≤ ((record log m).sourced id).events.length := by
    rw [sourced_record hc, List.length_append]
    exact Nat.le_add_right _ _
  cases hs : m.snapshotOf id with
  | some state =>
    have hsome : (m.snapshotOf id).isSome = true := by rw [hs]; rfl
    refine { agrees := fun hnot => ?_, exceeds := fun _ => ?_ }
    · exact absurd ((hasSnapshot_append_one m).mpr (Or.inr hsome)) hnot
    · rw [sinceLastSnapshot_append_one, followUp, hs]
      exact Nat.lt_of_lt_of_le (List.length_pos_iff.mpr (hm hsome)) hmono
  | none =>
    have hsame : HasSnapshot id (msgs ++ [m]) ↔ HasSnapshot id msgs := by
      rw [hasSnapshot_append_one, hs, Option.isSome_none, or_iff_left Bool.false_ne_true]
    have hfollow : followUp id (sinceLastSnapshot id msgs) m =
        { sinceLastSnapshot id msgs with
          events := (sinceLastSnapshot id msgs).events ++ (m.stateEvtOf id).toList } := by
      rw [followUp, hs]
      cases m.stateEvtOf id with
      | none => simp
      | some evt => rfl
    refine { agrees := fun hnot => ?_, exceeds := fun hhas => ?_ }
    · rw [sinceLastSnapshot_append_one, hfollow, ← h.agrees (mt hsame.mpr hnot), sourced_record hc,
        hs, Option.map_none, Option.or_none]
    · rw [sinceLastSnapshot_append_one, hfollow, sourced_record hc, List.length_append,
        List.length_append]
      exact Nat.add_lt_add_right (h.exceeds (hsame.mp hhas)) _

theorem Told.append (h : Told id log msgs) (hc : log.Consistent) {more : List Message}
    (hmore : ∀ m ∈ more, (m.snapshotOf id).isSome = true → (log.sourced id).events ≠ []) :
    Told id (recordAll log more) (msgs ++ more) := by
  induction more generalizing log msgs with
  | nil => rwa [List.append_nil]
  | cons m more ih =>
    have hone := h.one hc (hmore m List.mem_cons_self)
    rw [List.append_cons]
    refine ih hone (consistent_record hc m) fun m' hm' hs => ?_
    rw [sourced_record hc]
    exact List.append_ne_nil_of_left_ne_nil (hmore m' (List.mem_cons_of_mem m hm') hs) _

end ToldLemmas

/-! ## Runs -/

/-- A command, a cached state that is deleted, or a load of its own; each with what fails. -/
inductive SourcingLabel where
  | command (f : Faults) (cmd : Command)
  | evict (id : String)
  | load (offsetsOk : Bool) (id : String)

/-- The aggregate, and what it has published. -/
structure Publication where
  world : World
  published : List Message

def Publication.start (partitioner : String → Nat) : Publication :=
  { world := ParticpantsAgg.start partitioner, published := [] }

def sourcingStep (R : StateRepo ParticipantState) (B : BigNumber) (p : Publication) :
    SourcingLabel → Publication
  | .command f cmd =>
    let settled := processCommand R B f p.world cmd
    { world := settled.repo, published := p.published ++ settled.published }
  | .evict id => { p with world := { p.world with repo := R.remove p.world.repo id } }
  | .load offsetsOk id =>
    { p with world := { p.world with log := (p.world.log.load offsetsOk id).1 } }

/-- Who is cached or has a snapshot has been created in the log. -/
def InLog (R : StateRepo ParticipantState) (w : World) : Prop :=
  ∀ id, (R.view w.repo id).isSome = true ∨ (w.log.sourced id).snapshot.isSome = true →
    (w.log.sourced id).events ≠ []

structure Sourced (R : StateRepo ParticipantState) (p : Publication) : Prop where
  wellKept : WellKept R p.world
  inLog : InLog R p.world
  told : ∀ id, Told id p.world.log p.published

section

variable {R : StateRepo ParticipantState} {B : BigNumber} {f : Faults} {w : World} {cmd : Command}

theorem InLog.of_found (h : InLog R w) {id : String} {s : ParticipantState}
    (hs : lookup R applyStateEvent w id = .found s) : (w.log.sourced id).events ≠ [] := by
  intro hnil
  cases hv : R.view w.repo id with
  | some s' => exact h id (Or.inl (by rw [hv]; rfl)) hnil
  | none =>
    rw [lookup_of_view_none hv] at hs
    cases hsnap : (w.log.sourced id).snapshot with
    | some m => exact h id (Or.inr (by rw [hsnap]; rfl)) hnil
    | none =>
      rw [rebuild, hsnap, hnil] at hs
      cases hs

/-- Only a snapshot command publishes a snapshot, and it has found its participant. -/
theorem published_snapshot (hw : WellKept R w) {m : Message}
    (hm : m ∈ (verdict R B w cmd).published f) {id : String}
    (hs : (m.snapshotOf id).isSome = true) :
    ∃ root, lookup R applyStateEvent w id = .found root := by
  have hkey : logKey m = some id := by
    cases m with
    | participantStateSnapshotEvt state =>
      rw [Message.snapshotOf] at hs
      split at hs
      · exact congrArg some ‹_›
      · cases hs
    | _ => cases hs
  have hid : id = cmd.rootId := by
    by_contra hne
    exact logKey_published (hw.keyed cmd) (mem_published hm) hne hkey
  subst hid
  rcases List.mem_append.mp (mem_published hm) with hm | hm
  · rw [logKey_events hm] at hkey
    cases hkey
  · cases hv : verdict R B w cmd with
    | reject => rw [hv] at hm; cases hm
    | refuse root events => rw [hv] at hm; cases hm
    | create participant =>
      rw [hv, Verdict.stateEvents, List.mem_singleton] at hm
      rw [hm] at hs
      cases hs
    | move root root' events stateEvent =>
      obtain ⟨-, _, _, _, -, -, -, -, -, hst⟩ := verdict_move hv
      rw [hv, Verdict.stateEvents, List.mem_singleton] at hm
      rw [hm, hst] at hs
      cases hs
    | snapshot root => exact ⟨root, verdict_loaded (B := B) (by rw [hv]; rfl)⟩

/-- A state that is shown after a command was shown before, was found by its load, or is
that of a creation which is in the log. -/
theorem finalView_inLog (v : Verdict) {id : String} {s : ParticipantState}
    (h : v.finalView R f w id = some s) :
    R.view w.repo id = some s ∨ (∃ root, v.loaded = some root) ∨
      ∃ participant, v = .create participant ∧ f.publish₁.isOk = true := by
  rw [Verdict.finalView] at h
  split at h
  · rename_i hcond
    cases v with
    | reject => cases h
    | refuse root events => cases h
    | create participant =>
      simp only [Bool.and_eq_true] at hcond
      exact Or.inr (Or.inr ⟨participant, rfl, hcond.1.2⟩)
    | move root root' events stateEvent => exact Or.inr (Or.inl ⟨root, rfl⟩)
    | snapshot root => exact Or.inr (Or.inl ⟨root, rfl⟩)
  · cases v with
    | reject => exact Or.inl h
    | create participant => exact Or.inl h
    | refuse root events =>
      cases root with
      | none => exact Or.inl h
      | some root => exact Or.inr (Or.inl ⟨root, rfl⟩)
    | move root root' events stateEvent => exact Or.inr (Or.inl ⟨root, rfl⟩)
    | snapshot root => exact Or.inr (Or.inl ⟨root, rfl⟩)

variable (B f cmd) in
theorem sourced_processCommand (hR : R.Lawful ParticipantState.id) (hw : WellKept R w) :
    ∃ log : Log, (∀ id, log.sourced id = w.log.sourced id) ∧ log.Consistent ∧
      (processCommand R B f w cmd).repo.log =
        recordAll log (processCommand R B f w cmd).published := by
  refine ⟨_, sourced_load_log R applyStateEvent f.offsets w cmd.rootId,
    load_consistent hw.log_consistent _ _, ?_⟩
  rw [processCommand_published hR (hw.keyed cmd)]
  exact processCommand_log hR (hw.keyed cmd)

theorem InLog.processCommand (hR : R.Lawful ParticipantState.id) (hw : WellKept R w)
    (h : InLog R w) : InLog R (processCommand R B f w cmd).repo := by
  intro id hid
  obtain ⟨log, hlog, hc, hafter⟩ := sourced_processCommand B f cmd hR hw
  rw [hafter] at hid ⊢
  -- the log only grows, so it is enough that something was there before
  have hgrows : (w.log.sourced id).events ≠ [] →
      ((recordAll log (ParticpantsAgg.processCommand R B f w cmd).published).sourced id).events ≠ [] := by
    intro hne
    rw [events_recordAll hc, hlog]
    exact List.append_ne_nil_of_left_ne_nil hne _
  rcases hid with hview | hsnap
  · by_cases hroot : id = cmd.rootId
    · subst hroot
      obtain ⟨s, hs⟩ := Option.isSome_iff_exists.mp hview
      rw [processCommand_view_root hR (hw.keyed cmd)] at hs
      rcases finalView_inLog _ hs with hs | ⟨root, hroot⟩ | ⟨participant, hv, hok⟩
      · exact hgrows (h _ (Or.inl (by rw [hs]; rfl)))
      · exact hgrows (h.of_found (verdict_loaded hroot))
      · obtain ⟨rfl, -⟩ := verdict_create hv
        rw [events_recordAll hc, processCommand_published hR (hw.keyed _), hv, Verdict.published,
          if_pos hok]
        simp [Verdict.events, Verdict.stateEvents, Message.stateEvtOf, ParticipantStateEvt.msgKey,
          Command.rootId]
    · rw [processCommand_view_ne hR (hw.keyed cmd) hroot] at hview
      exact hgrows (h id (Or.inl hview))
  · rcases snapshot_recordAll hc _ hsnap with hsnap | ⟨m, hm, hs⟩
    · rw [hlog] at hsnap
      exact hgrows (h id (Or.inr hsnap))
    · rw [processCommand_published hR (hw.keyed cmd)] at hm
      obtain ⟨root, hroot⟩ := published_snapshot hw hm hs
      exact hgrows (h.of_found hroot)

theorem sourced_start (hR : R.Lawful ParticipantState.id) (partitioner : String → Nat) :
    Sourced R (Publication.start partitioner) where
  wellKept := wellKept_start hR partitioner
  inLog id hid := by
    rcases hid with hview | hsnap
    · rw [show R.view (Publication.start partitioner).world.repo id = none from hR.view_empty id]
        at hview
      cases hview
    · cases hsnap
  told id :=
    { agrees := fun _ => rfl
      exceeds := fun ⟨m, hm, _⟩ => (by cases hm) }

theorem Told.congr {id : String} {log log' : Log} {msgs : List Message} (h : Told id log msgs)
    (hlog : log'.sourced id = log.sourced id) : Told id log' msgs where
  agrees hnot := hlog.trans (h.agrees hnot)
  exceeds hhas := by
    rw [hlog]
    exact h.exceeds hhas

theorem Sourced.step (hR : R.Lawful ParticipantState.id) {p : Publication} (h : Sourced R p)
    (l : SourcingLabel) : Sourced R (sourcingStep R B p l) := by
  cases l with
  | command f cmd =>
    have hw := h.wellKept
    refine { wellKept := hw.processCommand hR B f cmd
             inLog := h.inLog.processCommand hR hw, told := fun id => ?_ }
    obtain ⟨log, hlog, hc, hafter⟩ := sourced_processCommand B f cmd hR hw
    show Told id (processCommand R B f p.world cmd).repo.log _
    rw [hafter]
    refine ((h.told id).congr (hlog id)).append hc fun m hm hs => ?_
    rw [hlog]
    rw [processCommand_published hR (hw.keyed cmd)] at hm
    obtain ⟨root, hroot⟩ := published_snapshot hw hm hs
    exact h.inLog.of_found hroot
  | evict id =>
    have hview : ∀ id', R.view (R.remove p.world.repo id) id' =
        if id' = id then none else R.view p.world.repo id' := hR.view_remove p.world.repo id
    refine { wellKept :=
              { view_id := fun id' s hs => ?_, log_keyed := h.wellKept.log_keyed
                log_consistent := h.wellKept.log_consistent }
             inLog := fun id' hid' => ?_, told := h.told }
    · change R.view (R.remove p.world.repo id) id' = some s at hs
      rw [hview] at hs
      split at hs
      · cases hs
      · exact h.wellKept.view_id id' s hs
    · change (R.view (R.remove p.world.repo id) id').isSome = true ∨ _ at hid'
      rw [hview] at hid'
      refine h.inLog id' (hid'.imp_left fun hs => ?_)
      split at hs
      · cases hs
      · exact hs
  | load offsetsOk id =>
    have hsame := p.world.log.sourced_load offsetsOk id
    refine { wellKept :=
              { view_id := h.wellKept.view_id
                log_keyed :=
                  { stateEvents := fun r hr => ?_, snapshots := fun r hr => ?_ }
                log_consistent := h.wellKept.log_consistent.load offsetsOk id }
             inLog := fun id' hid' => ?_, told := fun id' => (h.told id').congr (hsame id') }
    · rw [sourcingStep, EventStore.load_stateEvents] at hr
      exact h.wellKept.log_keyed.stateEvents r hr
    · rw [sourcingStep, EventStore.load_snapshots] at hr
      exact h.wellKept.log_keyed.snapshots r hr
    · change (R.view p.world.repo id').isSome = true ∨
        ((p.world.log.load offsetsOk id).1.sourced id').snapshot.isSome = true at hid'
      rw [hsame] at hid'
      show ((p.world.log.load offsetsOk id).1.sourced id').events ≠ []
      rw [hsame]
      exact h.inLog id' hid'

end

/-- After any run, a load returns the last snapshot of a participant and the state events
after it exactly when no snapshot of the participant has been published. -/
theorem load_since_last_snapshot_iff (kind : RepoInfraTypes) (B : BigNumber)
    (partitioner : String → Nat) (ls : List SourcingLabel) (offsetsOk : Bool) (id : String) :
    let p := Machine.run (sourcingStep kind.repo B) (Publication.start partitioner) ls
    (p.world.log.load offsetsOk id).2 = sinceLastSnapshot id p.published ↔
      ∀ state, .participantStateSnapshotEvt state ∈ p.published → state.id ≠ id := by
  intro p
  have h : Sourced kind.repo p :=
    Machine.run_always (fun _ l hp => hp.step kind.repo_lawful l)
      (sourced_start kind.repo_lawful partitioner) ls
  have hnone : ¬ HasSnapshot id p.published ↔
      ∀ state, .participantStateSnapshotEvt state ∈ p.published → state.id ≠ id := by
    constructor
    · intro hnot state hstate hid
      exact hnot ⟨_, hstate, by rw [Message.snapshotOf, if_pos hid]; rfl⟩
    · rintro hall ⟨m, hm, hs⟩
      cases m with
      | participantStateSnapshotEvt state =>
        rw [Message.snapshotOf, if_neg (hall state hm)] at hs
        cases hs
      | _ => cases hs
  rw [← hnone]
  show p.world.log.sourced id = _ ↔ _
  constructor
  · intro heq hhas
    have hlt := (h.told id).exceeds hhas
    rw [heq] at hlt
    exact Nat.lt_irrefl _ hlt
  · exact (h.told id).agrees

/-- Two snapshots, at 0 and after a reserve of 10: the load returns the first one, and all
state events. -/
theorem first_snapshot_fetched :
    let p := Machine.run (sourcingStep redisParticipantStateRepo wholeNumbers)
      (Publication.start fun _ => 0)
      [.command Faults.none (.createParticipantCmd (sampleParticipant "blue")),
        .command Faults.none (.createParticipantCmd (sampleParticipant "green")),
        .command Faults.none (.snapshotParticipantStateCmd "blue"),
        .command Faults.none (.reservePayerFundsCmd sampleTerms),
        .command Faults.none (.snapshotParticipantStateCmd "blue")]
    let blue := sampleParticipant "blue"
    let fetched := (p.world.log.load true "blue").2
    fetched.snapshot.map (·.payload) = some blue ∧ fetched.events.length = 2 ∧
    (sinceLastSnapshot "blue" p.published).snapshot.map (·.payload) =
      some (blue.setPosition "USD" "10") ∧
    (sinceLastSnapshot "blue" p.published).events = [] ∧
    fetched ≠ sinceLastSnapshot "blue" p.published := by
  intro p blue fetched
  have hlength : fetched.events.length = 2 := by decide +kernel
  have hevents : (sinceLastSnapshot "blue" p.published).events = [] := by decide +kernel
  refine ⟨by decide +kernel, hlength, by decide +kernel, hevents, fun he => ?_⟩
  rw [he, hevents] at hlength
  cases hlength

end ParticpantsAgg

end Participants
end PocArchitecture
