/-
What later loads return.

`lookup` is the state a load returns, from the cache or from the log.  The theorems here
say what a command does to it, verdict by verdict: nothing at any other participant,
nothing at all when the command was rejected, refused or asked for a snapshot, and for a
creation or a movement what got out of the publish and the store.
-/
import PocArchitecture.Participants.WorldInvariant

namespace PocArchitecture
namespace Participants

open PublicMessages Infrastructure
open Domain (Loaded PublishOutcome Settled)
open Domain.BaseEventSourcingAggregate

namespace ParticpantsAgg

variable {R : StateRepo ParticipantState} {B : BigNumber} {f : Faults} {w : World} {cmd : Command}

/-! ## What a publish adds to the log -/

theorem record_of_isRefusal {m : Message} (h : m.isRefusal = true) (log : Log) :
    record log m = log := by
  cases m <;> first | rfl | cases h

theorem record_of_movement {m : Message} {mv : String × CurrencyTypes × String}
    (h : m.movement = some mv) (log : Log) : record log m = log := by
  cases m <;> first | rfl | cases h

/-- Domain events leave no trace in the log. -/
theorem record_events {m : Message} (h : m ∈ (verdict R B w cmd).events) (log : Log) :
    record log m = log := by
  cases hv : verdict R B w cmd with
  | reject =>
    rw [hv] at h
    cases h
  | refuse root events =>
    obtain ⟨m', rfl, hm'⟩ := verdict_refuse hv
    rw [hv, Verdict.events, List.mem_singleton] at h
    rw [h]
    exact record_of_isRefusal hm' log
  | create participant =>
    rw [hv, Verdict.events, List.mem_singleton] at h
    rw [h]
    rfl
  | move root root' events stateEvent =>
    obtain ⟨-, _, _, m', -, -, -, rfl, hm', -⟩ := verdict_move hv
    rw [hv, Verdict.events, List.mem_singleton] at h
    rw [h]
    exact record_of_movement hm' log
  | snapshot root =>
    rw [hv] at h
    cases h

theorem recordAll_silent {msgs : List Message} (h : ∀ m ∈ msgs, ∀ log, record log m = log)
    (log : Log) : recordAll log msgs = log := by
  induction msgs with
  | nil => rfl
  | cons m msgs ih =>
    rw [recordAll, List.foldl_cons, h m List.mem_cons_self]
    exact ih fun m' hm' => h m' (List.mem_cons_of_mem m hm')

theorem recordAll_append (log : Log) (msgs msgs' : List Message) :
    recordAll log (msgs ++ msgs') = recordAll (recordAll log msgs) msgs' :=
  List.foldl_append

/-- Of a publish with one last message, the log gets that message or nothing. -/
theorem recordAll_delivered {msgs : List Message} (h : ∀ m ∈ msgs, ∀ log, record log m = log)
    (last : Message) (o : PublishOutcome) (log : Log) :
    recordAll log (o.delivered (msgs ++ [last])) =
      if o.deliversAt msgs.length then record log last else log := by
  cases o with
  | ok =>
    rw [PublishOutcome.delivered_ok, recordAll_append, recordAll_silent h]
    rfl
  | failed marks =>
    induction msgs generalizing marks with
    | nil =>
      cases marks with
      | nil => rfl
      | cons mark marks => cases mark <;> cases marks <;> rfl
    | cons m msgs ih =>
      cases marks with
      | nil =>
        rw [PublishOutcome.delivered_failed_nil]
        rfl
      | cons mark marks =>
        have hm : recordAll log (if mark then [m] else []) = log := by
          cases mark with
          | false => rfl
          | true => exact h m List.mem_cons_self log
        rw [List.cons_append, PublishOutcome.delivered_failed_cons, recordAll_append, hm,
          ih fun m' hm' => h m' (List.mem_cons_of_mem m hm')]
        rfl

theorem recordAll_published_none (h : (verdict R B w cmd).stateEvents = []) (log : Log) :
    recordAll log ((verdict R B w cmd).published f) = log := by
  refine recordAll_silent (fun m hm => ?_) log
  have hmem : m ∈ (verdict R B w cmd).events := by
    rw [Verdict.published, h, List.append_nil] at hm
    split at hm
    · exact hm
    · rcases List.mem_append.mp hm with hm | hm <;> exact PublishOutcome.mem_of_mem_delivered hm
  exact record_events hmem

theorem recordAll_published_one {last : Message}
    (h : (verdict R B w cmd).stateEvents = [last]) (log : Log) :
    recordAll log ((verdict R B w cmd).published f) =
      if f.publish₁.deliversAt (verdict R B w cmd).events.length then record log last else log := by
  have hsilent : ∀ m ∈ (verdict R B w cmd).events, ∀ log, record log m = log :=
    fun m hm => record_events hm
  rw [Verdict.published, h]
  split
  · rename_i hok
    rw [PublishOutcome.deliversAt_of_isOk hok, if_pos rfl, recordAll_append,
      recordAll_silent hsilent]
    rfl
  · rw [recordAll_append, recordAll_delivered hsilent]
    exact recordAll_silent (fun m hm => hsilent m (PublishOutcome.mem_of_mem_delivered hm)) _

/-- The key a message is filed under in the log. -/
def logKey : Message → Option String
  | .stateEvt evt => some evt.msgKey
  | .participantStateSnapshotEvt state => some state.id
  | _ => none

theorem sourced_record_ne {log : Log} (h : log.Consistent) {m : Message} {id : String}
    (hkey : logKey m ≠ some id) : (record log m).sourced id = log.sourced id := by
  cases m with
  | stateEvt evt =>
    have hne : evt.msgKey ≠ id := fun e => hkey (congrArg some e)
    rw [record, h.sourced_produceStateEvent, if_neg hne, List.append_nil]
  | participantStateSnapshotEvt state =>
    exact log.sourced_produceSnapshot_ne state fun e => hkey (congrArg some e)
  | _ => rfl

theorem sourced_record_self {log : Log} (h : log.Consistent) (evt : ParticipantStateEvt)
    {id : String} (hkey : evt.msgKey = id) :
    (record log (.stateEvt evt)).sourced id =
      { snapshot := (log.sourced id).snapshot, events := (log.sourced id).events ++ [evt] } := by
  rw [record, h.sourced_produceStateEvent, if_pos hkey]

theorem sourced_recordAll_ne {log : Log} (h : log.Consistent) {msgs : List Message} {id : String}
    (hkey : ∀ m ∈ msgs, logKey m ≠ some id) : (recordAll log msgs).sourced id = log.sourced id := by
  induction msgs generalizing log with
  | nil => rfl
  | cons m msgs ih =>
    rw [recordAll, List.foldl_cons]
    refine (ih (consistent_record h m) fun m' hm' => hkey m' (List.mem_cons_of_mem m hm')).trans ?_
    exact sourced_record_ne h (hkey m List.mem_cons_self)

/-- Domain events are not filed. -/
theorem logKey_events {m : Message} (hm : m ∈ (verdict R B w cmd).events) : logKey m = none := by
  cases hv : verdict R B w cmd with
  | reject => rw [hv] at hm; cases hm
  | refuse root events =>
    obtain ⟨m', rfl, hm'⟩ := verdict_refuse hv
    rw [hv, Verdict.events, List.mem_singleton] at hm
    subst hm
    cases m <;> first | rfl | cases hm'
  | create participant =>
    rw [hv, Verdict.events, List.mem_singleton] at hm
    rw [hm]
    rfl
  | move root root' events stateEvent =>
    obtain ⟨-, _, _, m', -, -, -, rfl, hm', -⟩ := verdict_move hv
    rw [hv, Verdict.events, List.mem_singleton] at hm
    subst hm
    cases m <;> first | rfl | cases hm'
  | snapshot root => rw [hv] at hm; cases hm

/-- What a command puts into the log is about the participant it is addressed to. -/
theorem logKey_published
    (hkeyed : ∀ s, lookup R applyStateEvent w cmd.rootId = .found s → s.id = cmd.rootId)
    {m : Message} (hm : m ∈ (verdict R B w cmd).events ++ (verdict R B w cmd).stateEvents)
    {id : String} (hne : id ≠ cmd.rootId) : logKey m ≠ some id := by
  rcases List.mem_append.mp hm with hm | hm
  · rw [logKey_events hm]
    simp
  · have hself : logKey m = some cmd.rootId := by
      cases hv : verdict R B w cmd with
      | reject => rw [hv] at hm; cases hm
      | refuse root events => rw [hv] at hm; cases hm
      | create participant =>
        have hid := verdict_accepted_id (B := B) hkeyed (s := participant) (by rw [hv]; rfl)
        rw [hv, Verdict.stateEvents, List.mem_singleton] at hm
        rw [hm, ← hid]
        rfl
      | move root root' events stateEvent =>
        have hid := verdict_accepted_id (B := B) hkeyed (s := root') (by rw [hv]; rfl)
        obtain ⟨-, _, _, _, -, -, -, -, -, hst⟩ := verdict_move hv
        rw [hv, Verdict.stateEvents, List.mem_singleton] at hm
        rw [hm, hst, ← hid]
        rfl
      | snapshot root =>
        have hid := verdict_accepted_id (B := B) hkeyed (s := root) (by rw [hv]; rfl)
        rw [hv, Verdict.stateEvents, List.mem_singleton] at hm
        rw [hm, ← hid]
        rfl
    rw [hself]
    exact fun e => hne (Option.some.inj e).symm

/-! ## What later loads return -/

theorem sourced_processCommand_ne (hR : R.Lawful ParticipantState.id) (hw : WellKept R w)
    {id : String} (hne : id ≠ cmd.rootId) :
    (processCommand R B f w cmd).repo.log.sourced id = w.log.sourced id := by
  rw [processCommand_log hR (hw.keyed cmd), sourced_recordAll_ne
    (load_consistent hw.log_consistent _ _)
    fun m hm => logKey_published (hw.keyed cmd) (mem_published hm) hne]
  exact sourced_load_log _ _ _ _ _ id

/-- A command concerns no participant but the one it is addressed to. -/
theorem lookup_processCommand_ne (hR : R.Lawful ParticipantState.id) (hw : WellKept R w)
    {id : String} (hne : id ≠ cmd.rootId) :
    lookup R applyStateEvent (processCommand R B f w cmd).repo id =
      lookup R applyStateEvent w id := by
  exact lookup_congr (processCommand_view_ne hR (hw.keyed cmd) hne)
    (sourced_processCommand_ne hR hw hne)

/-- A participant that is not in the cache is rebuilt from the log. -/
theorem lookup_of_view_none {id : String} (h : R.view w.repo id = none) :
    lookup R applyStateEvent w id = rebuild applyStateEvent (w.log.sourced id) := by
  rw [lookup, h]

/-- An additional snapshot does not matter: the log of a participant without one begins
with its creation, and that overrides whatever was there. -/
theorem rebuild_with_snapshot {es : TESourcingState ParticipantStateEvt ParticipantState}
    {s : ParticipantState} (hnone : es.snapshot = none) (h : rebuild applyStateEvent es = .found s)
    (snapshot : Option (StateSnapshotMsg ParticipantState)) :
    rebuild applyStateEvent { snapshot := snapshot, events := es.events } = .found s := by
  have hmany := rebuild_found h
  rw [hnone, Option.map_none] at hmany
  cases hes : es.events with
  | nil =>
    rw [hes] at hmany
    cases hmany
  | cons e events =>
    rw [hes, applyManyStateEvents] at hmany
    have hfirst : ∀ root, applyStateEvent root e = applyStateEvent none e := by
      intro root
      cases e with
      | participantCreatedStateEvt participant => rfl
      | participantPositionChangedStateEvt evt => cases hmany
    unfold rebuild
    split
    · rename_i hnil
      cases hnil
    · rw [applyManyStateEvents, hfirst, hmany]
      rfl

theorem rebuild_produceSnapshot {log : Log} (h : log.Consistent) {id : String}
    {s : ParticipantState} (hs : rebuild applyStateEvent (log.sourced id) = .found s)
    (key : String) (state : ParticipantState) :
    rebuild applyStateEvent ((log.produceSnapshot key state).sourced id) = .found s := by
  have hevents := h.events_produceSnapshot key state id
  have heta : (log.produceSnapshot key state).sourced id =
      { snapshot := ((log.produceSnapshot key state).sourced id).snapshot,
        events := (log.sourced id).events } := by
    rw [← hevents]
  rw [heta]
  cases hsnap : (log.sourced id).snapshot with
  | none => exact rebuild_with_snapshot hsnap hs _
  | some m =>
    rw [log.snapshot_produceSnapshot key state hsnap, ← hsnap]
    exact hs

/-- The root entity stays what the load found, shown by the cache or rebuilt. -/
theorem lookup_of_loaded {root : ParticipantState} {w' : World} {id : String}
    (hview : R.view w'.repo id = afterLoad R f w id root)
    (hlog : R.view w.repo id = none → rebuild applyStateEvent (w'.log.sourced id) = .found root) :
    lookup R applyStateEvent w' id = .found root := by
  rw [afterLoad] at hview
  split at hview
  · exact lookup_of_view hview
  · rename_i hn
    rw [lookup_of_view_none hview]
    refine hlog ?_
    cases hv : R.view w.repo id with
    | none => rfl
    | some s => simp [hv] at hn

section

variable (hR : R.Lawful ParticipantState.id) (hw : WellKept R w)

include hR hw

theorem sourced_unmoved (h : (verdict R B w cmd).stateEvents = []) (id : String) :
    (processCommand R B f w cmd).repo.log.sourced id = w.log.sourced id := by
  rw [processCommand_log hR (hw.keyed cmd), recordAll_published_none h]
  exact sourced_load_log _ _ _ _ _ id

theorem lookup_of_reject (hv : verdict R B w cmd = .reject) :
    lookup R applyStateEvent (processCommand R B f w cmd).repo cmd.rootId =
      lookup R applyStateEvent w cmd.rootId := by
  refine lookup_congr ?_ (sourced_unmoved hR hw (by rw [hv]; rfl) _)
  rw [processCommand_view_root hR (hw.keyed cmd), hv]
  rfl

theorem lookup_of_refuse {root : Option ParticipantState} {events : List Message}
    (hv : verdict R B w cmd = .refuse root events) :
    lookup R applyStateEvent (processCommand R B f w cmd).repo cmd.rootId =
      lookup R applyStateEvent w cmd.rootId := by
  have hview := processCommand_view_root (B := B) (f := f) hR (hw.keyed cmd)
  have hlog := sourced_unmoved (f := f) hR hw (show (verdict R B w cmd).stateEvents = [] by
    rw [hv]; rfl) cmd.rootId
  rw [hv] at hview
  cases root with
  | none => exact lookup_congr hview hlog
  | some root =>
    have hroot := verdict_loaded (B := B) (s := root) (by rw [hv]; rfl)
    rw [hroot]
    refine lookup_of_loaded hview fun hnone => ?_
    rw [hlog, ← lookup_of_view_none hnone, hroot]

/-- What the log rebuilds after a snapshot was asked for. -/
theorem rebuild_of_snapshot {root : ParticipantState} (hv : verdict R B w cmd = .snapshot root)
    (hbefore : rebuild applyStateEvent (w.log.sourced cmd.rootId) = .found root) :
    rebuild applyStateEvent ((processCommand R B f w cmd).repo.log.sourced cmd.rootId) =
      .found root := by
  rw [← sourced_load_log R applyStateEvent f.offsets w cmd.rootId] at hbefore
  rw [processCommand_log hR (hw.keyed cmd), recordAll_published_one (by rw [hv]; rfl)]
  split
  · exact rebuild_produceSnapshot (load_consistent hw.log_consistent _ _) hbefore _ _
  · exact hbefore

theorem lookup_of_snapshot {root : ParticipantState} (hv : verdict R B w cmd = .snapshot root) :
    lookup R applyStateEvent (processCommand R B f w cmd).repo cmd.rootId =
      lookup R applyStateEvent w cmd.rootId := by
  have hview := processCommand_view_root (B := B) (f := f) hR (hw.keyed cmd)
  have hroot := verdict_loaded (B := B) (s := root) (by rw [hv]; rfl)
  rw [hv, Verdict.finalView] at hview
  rw [hroot]
  split at hview
  · exact lookup_of_view hview
  · refine lookup_of_loaded hview fun hnone => rebuild_of_snapshot hR hw hv ?_
    rw [← lookup_of_view_none hnone, hroot]

/-- What the log rebuilds after a creation. -/
theorem rebuild_of_create {participant : ParticipantState}
    (hv : verdict R B w cmd = .create participant)
    (hbefore : rebuild applyStateEvent (w.log.sourced cmd.rootId) = .notFound) :
    rebuild applyStateEvent ((processCommand R B f w cmd).repo.log.sourced cmd.rootId) =
      if f.publish₁.deliversAt 1 then .found participant else .notFound := by
  have hid := verdict_accepted_id (B := B) (hw.keyed cmd) (s := participant) (by rw [hv]; rfl)
  have hlen : (Verdict.create participant).events.length = 1 := rfl
  obtain ⟨hsnap, hevents⟩ := rebuild_notFound hbefore
  rw [processCommand_log hR (hw.keyed cmd), recordAll_published_one (by rw [hv]; rfl), hv, hlen]
  cases f.publish₁.deliversAt 1 with
  | true =>
    rw [if_pos rfl, if_pos rfl, sourced_record_self (load_consistent hw.log_consistent _ _)
      (.participantCreatedStateEvt participant) hid, sourced_load_log, hsnap, hevents]
    rfl
  | false => rw [if_neg Bool.false_ne_true, if_neg Bool.false_ne_true, sourced_load_log, hbefore]

/-- A new participant is found once its state event is in the log. -/
theorem lookup_of_create {participant : ParticipantState}
    (hv : verdict R B w cmd = .create participant) :
    lookup R applyStateEvent (processCommand R B f w cmd).repo cmd.rootId =
      if f.publish₁.deliversAt 1 then .found participant else .notFound := by
  have hview := processCommand_view_root (B := B) (f := f) hR (hw.keyed cmd)
  have hbefore : lookup R applyStateEvent w cmd.rootId = .notFound := by
    obtain ⟨rfl, hnot⟩ := verdict_create hv
    exact hnot
  have hnone : R.view w.repo cmd.rootId = none := view_none_of_lookup (by rw [hbefore]; rfl)
  rw [hv, Verdict.finalView, Verdict.accepted, Verdict.handledView, hnone, Option.isSome_some,
    Bool.true_and] at hview
  split at hview
  · rename_i hstored
    rw [Bool.and_eq_true] at hstored
    rw [PublishOutcome.deliversAt_of_isOk hstored.1, if_pos rfl]
    exact lookup_of_view hview
  · rw [lookup_of_view_none hview]
    exact rebuild_of_create hR hw hv ((lookup_of_view_none hnone).symm.trans hbefore)

/-- What the log rebuilds after a movement. -/
theorem rebuild_of_move {root root' : ParticipantState} {events : List Message}
    {evt : ParticipantStateEvt} (hv : verdict R B w cmd = .move root root' events (.stateEvt evt))
    (hbefore : rebuild applyStateEvent (w.log.sourced cmd.rootId) = .found root) :
    rebuild applyStateEvent ((processCommand R B f w cmd).repo.log.sourced cmd.rootId) =
      if f.publish₁.deliversAt 1 then .ofReplay (applyStateEvent (some root) evt)
      else .found root := by
  have hid := verdict_accepted_id (B := B) (hw.keyed cmd) (s := root') (by rw [hv]; rfl)
  obtain ⟨-, terms, position, m, -, -, -, hev, -, hst⟩ := verdict_move hv
  have hkey : evt.msgKey = cmd.rootId := by
    rw [Message.stateEvt.inj hst]
    exact hid
  have hlen : (verdict R B w cmd).events.length = 1 := by
    rw [hv, Verdict.events, hev, List.length_singleton]
  rw [← sourced_load_log R applyStateEvent f.offsets w cmd.rootId] at hbefore
  rw [processCommand_log hR (hw.keyed cmd), recordAll_published_one (by rw [hv]; rfl), hlen]
  cases f.publish₁.deliversAt 1 with
  | true =>
    rw [if_pos rfl, if_pos rfl, sourced_record_self (load_consistent hw.log_consistent _ _) evt hkey]
    exact rebuild_append hbefore evt
  | false =>
    rw [if_neg Bool.false_ne_true, if_neg Bool.false_ne_true]
    exact hbefore

/-- A moved participant is found at its new position when the cache shows it, at its old
one when the cache shows that, and otherwise as the log replays it. -/
theorem lookup_of_move {root root' : ParticipantState} {events : List Message}
    {evt : ParticipantStateEvt} (hv : verdict R B w cmd = .move root root' events (.stateEvt evt)) :
    lookup R applyStateEvent (processCommand R B f w cmd).repo cmd.rootId =
      if f.publish₁.isOk && f.store || R.aliased then .found root'
      else if (R.view w.repo cmd.rootId).isSome || f.refill then .found root
      else if f.publish₁.deliversAt 1 then .ofReplay (applyStateEvent (some root) evt)
      else .found root := by
  have hview := processCommand_view_root (B := B) (f := f) hR (hw.keyed cmd)
  have hroot := verdict_loaded (B := B) (s := root) (by rw [hv]; rfl)
  rw [hv, Verdict.finalView, Verdict.accepted, Verdict.handledView, Option.isSome_some,
    Bool.true_and] at hview
  cases hal : R.aliased with
  | true =>
    rw [hal, Bool.or_true, Bool.and_true, if_pos rfl, ite_self] at hview
    rw [Bool.or_true, if_pos rfl]
    exact lookup_of_view hview
  | false =>
    rw [hal, Bool.or_false, if_neg Bool.false_ne_true, afterLoad, hal, Bool.or_false] at hview
    rw [Bool.or_false]
    split
    · rename_i hstored
      rw [if_pos hstored] at hview
      exact lookup_of_view hview
    · rename_i hstored
      rw [if_neg hstored] at hview
      split
      · rename_i hshown
        rw [if_pos hshown] at hview
        exact lookup_of_view hview
      · rename_i hshown
        rw [if_neg hshown] at hview
        have hnone : R.view w.repo cmd.rootId = none := by
          cases hs : R.view w.repo cmd.rootId with
          | none => rfl
          | some s => simp [hs] at hshown
        rw [lookup_of_view_none hview]
        exact rebuild_of_move hR hw hv (by rw [← lookup_of_view_none hnone, hroot])

end

end ParticpantsAgg

end Participants
end PocArchitecture
