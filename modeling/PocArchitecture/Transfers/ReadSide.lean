/-
The transfer read side: `TransferStateEvtHandler` over `MongoDbReadsideTransferRepo`.

The handler folds the published state events into a collection of documents.  A prepared
event inserts a document whose internal state and timestamp are the handler's own, the
other two update the document of their transfer.  Each command publishes at most one
state event, and one event on the read side does what the command did on the write side.
-/
import PocArchitecture.Lib.Collection
import PocArchitecture.Transfers.LifeCycle

namespace PocArchitecture
namespace Transfers

open PublicMessages Infrastructure
open Collection (findKey)

def stateEvents (msgs : List Message) : List Message := msgs.filter (·.isStateEvent)

@[simp] theorem stateEvents_append (msgs more : List Message) :
    stateEvents (msgs ++ more) = stateEvents msgs ++ stateEvents more :=
  List.filter_append _ _

namespace MongoDbReadsideTransferRepo

def insertTransferState (c : Collection TransferState) (transfer : TransferState) :
    Collection TransferState × Bool :=
  let result := c.insertOne transfer
  (result.1, result.2.insertedCount == 1)

def updateFulfil (c : Collection TransferState) (transfer : TransferFulfiledStateEvtPayload) :
    Collection TransferState × Bool :=
  let result := c.updateOne (fun doc => doc.id == transfer.id) fun doc =>
    { doc with
      id := transfer.id
      fulfilment := transfer.fulfilment
      completedTimestamp := transfer.completedTimestamp
      fulfil := transfer.fulfil
      transferInternalState := transfer.transferInternalState }
  (result.1, result.2.nModified == 1 && result.2.ok == 1)

def updateState (c : Collection TransferState) (id : String)
    (transferInternalState : TransferInternalStates) : Collection TransferState × Bool :=
  let result := c.updateOne (fun doc => doc.id == id) fun doc =>
    { doc with transferInternalState := transferInternalState }
  (result.1, result.2.nModified == 1 && result.2.ok == 1)

end MongoDbReadsideTransferRepo

namespace TransferStateEvtHandler

open MongoDbReadsideTransferRepo

def handleTransferPreparedStateEvt (c : Collection TransferState) (transfer : TransferState) :
    Collection TransferState × Bool :=
  insertTransferState c
    { id := transfer.id
      amount := transfer.amount
      currency := transfer.currency
      transferInternalState := .receivedPrepare
      payerId := transfer.payerId
      payeeId := transfer.payeeId
      expiration := transfer.expiration
      condition := transfer.condition
      prepare := transfer.prepare
      fulfilment := transfer.fulfilment
      completedTimestamp := some ""
      fulfil := transfer.fulfil }

def handleTransferFulfiledStateEvt (c : Collection TransferState)
    (transfer : TransferFulfiledStateEvtPayload) : Collection TransferState × Bool :=
  updateFulfil c
    { id := transfer.id
      fulfilment := transfer.fulfilment
      completedTimestamp := transfer.completedTimestamp
      fulfil := transfer.fulfil
      transferInternalState := .receivedFulfil }

def handleTransferStateChangedStateEvt (c : Collection TransferState) (id : String)
    (transferInternalState : TransferInternalStates) : Collection TransferState × Bool :=
  updateState c id transferInternalState

/-- `_messageHandler`: the collection afterwards, and whether the event was handled.  A
refused update is thrown, caught and logged. -/
def messageHandler (c : Collection TransferState) : Message → Collection TransferState × Bool
  | .transferPreparedStateEvt transfer => handleTransferPreparedStateEvt c transfer
  | .transferFulfiledStateEvt transfer => handleTransferFulfiledStateEvt c transfer
  | .transferStateChangedStateEvt id state => handleTransferStateChangedStateEvt c id state
  -- skipped as unknown
  | _ => (c, true)

end TransferStateEvtHandler

/-- The documents, and what the handler reported for each event so far. -/
structure ReadSide where
  transfers : Collection TransferState
  reports : List Bool

namespace ReadSide

def start : ReadSide := { transfers := [], reports := [] }

def receive (r : ReadSide) (m : Message) : ReadSide :=
  let handled := TransferStateEvtHandler.messageHandler r.transfers m
  { transfers := handled.1, reports := r.reports ++ [handled.2] }

/-- The read side after the state events among these messages. -/
def follow (msgs : List Message) : ReadSide := Machine.run receive start (stateEvents msgs)

theorem follow_append (msgs more : List Message) :
    follow (msgs ++ more) = Machine.run receive (follow msgs) (stateEvents more) := by
  rw [follow, stateEvents_append, Machine.run_append]
  rfl

def find (r : ReadSide) (id : String) : Option TransferState :=
  findKey TransferState.id r.transfers id

end ReadSide

/-- A document shows a stored transfer.  Absent, null and the empty string are the same. -/
structure TransferState.Shows (doc s : TransferState) : Prop where
  prepareData : doc.prepareData = s.prepareData
  transferInternalState : doc.transferInternalState = s.transferInternalState
  fulfilment : doc.fulfilment.getD "" = s.fulfilment.getD ""
  completedTimestamp : doc.completedTimestamp.getD "" = s.completedTimestamp.getD ""
  fulfil : doc.fulfil = s.fulfil

theorem TransferState.Shows.id_eq {doc s : TransferState} (h : doc.Shows s) : doc.id = s.id :=
  congrArg PrepareTransferData.id h.prepareData

namespace TransfersAgg

variable {R : StateRepo TransferState} {C : Crypto} {f : Faults} {w w' : World} {cmd : Command}
  {r : ReadSide}

/-! ## What a command publishes for the read side -/

/-- A refused command changes no state and publishes no state event. -/
theorem verdict_refuse_stateEvents {root : Option TransferState} {events : List Message}
    (h : verdict R C f w cmd = .refuse root events) : stateEvents events = [] := by
  cases hd : decision C cmd with
  | none =>
    obtain ⟨payload, rfl⟩ : ∃ payload, cmd = .prepareTransferCmd payload := by
      cases cmd with
      | prepareTransferCmd payload => exact ⟨payload, rfl⟩
      | _ => cases hd
    rw [verdict] at h
    split at h
    · split at h <;> cases h
      rfl
    · cases h
  | some decide =>
    rw [verdict_of_decision hd] at h
    cases hv : R.view w.repo cmd.transferId with
    | none =>
      rw [hv] at h
      cases h
      rfl
    | some s =>
      rw [hv, verdictOn] at h
      rcases decision_cases hd s with ⟨s', events, hs, hadv⟩ | ⟨s', reason, hs, hspoils⟩
      · rw [hs] at h
        cases h
      · rw [hs] at h
        cases h
        rfl

/-- An event that comes alone is no state event. -/
theorem stateEvents_of_alone (hR : R.Lawful TransferState.id) {m : Message}
    (h : (processCommand R C Faults.none w cmd).published = [m]) : stateEvents [m] = [] := by
  rw [processCommand_published hR] at h
  change (verdict R C Faults.none w cmd).events = [m] at h
  rcases verdict_cases R C Faults.none w cmd with
    ⟨-, hv⟩ | ⟨payload, -, -, hv⟩ | ⟨root, m', hv, -, -⟩ | ⟨s, s', events, hv, -, hadv⟩
  · rw [hv] at h
    cases h
  · rw [hv] at h
    cases h
  · rw [hv] at h
    obtain rfl := List.singleton_inj.mp h
    exact verdict_refuse_stateEvents hv
  · rw [hv] at h
    obtain rfl : events = [m] := h
    cases hadv

/-! ## One command -/

/-- The documents are the stored transfers, and every event so far was handled. -/
structure InStep (r : ReadSide) (w : World) : Prop where
  nodup : (r.transfers.map TransferState.id).Nodup
  shows : ∀ id, Option.Rel TransferState.Shows (r.find id) (stored w id)
  reports : ∀ report ∈ r.reports, report = true

theorem inStep_start : InStep ReadSide.start World.start where
  nodup := List.nodup_nil
  shows _ := .none
  reports := by
    intro report hreport
    cases hreport

theorem InStep.same (h : InStep r w) (hsame : ∀ id, stored w' id = stored w id) :
    InStep r w' where
  nodup := h.nodup
  shows id := by
    rw [hsame id]
    exact h.shows id
  reports := h.reports

theorem mem_reports (h : InStep r w) {b : Bool} (hb : b = true) :
    ∀ report ∈ r.reports ++ [b], report = true := by
  intro report hreport
  rcases List.mem_append.mp hreport with hr | hr
  · exact h.reports report hr
  · exact (List.mem_singleton.mp hr).trans hb

/-- A prepared event inserts the document of its transfer. -/
theorem InStep.prepared (h : InStep r w) {s : TransferState}
    (hstate : s.transferInternalState = .receivedPrepare) (hcompleted : s.completedTimestamp = none)
    (hnew : stored w s.id = none) (hself : stored w' s.id = some s)
    (hother : ∀ id, id ≠ s.id → stored w' id = stored w id) :
    InStep (r.receive (.transferPreparedStateEvt s)) w' := by
  have hfind : r.find s.id = none := by
    have hrel := h.shows s.id
    rw [hnew] at hrel
    cases hf : r.find s.id with
    | none => rfl
    | some doc =>
      rw [hf] at hrel
      cases hrel
  refine { nodup := ?_, shows := fun id => ?_, reports := mem_reports h rfl }
  · exact Collection.nodup_insertOne h.nodup hfind
  · by_cases hid : id = s.id
    · subst hid
      have hdoc : (r.receive (.transferPreparedStateEvt s)).find s.id =
          some { s with transferInternalState := .receivedPrepare, completedTimestamp := some "" } :=
        @Collection.findKey_insertOne_self _ _ _ TransferState.id _ { s with
          transferInternalState := .receivedPrepare, completedTimestamp := some "" } hfind
      rw [hself, hdoc]
      refine .some
        { prepareData := rfl
          transferInternalState := hstate.symm
          fulfilment := rfl
          completedTimestamp := ?_
          fulfil := rfl }
      rw [hcompleted]
      rfl
    · rw [hother id hid]
      have hkeep : (r.receive (.transferPreparedStateEvt s)).find id = r.find id :=
        Collection.findKey_insertOne_ne hid
      rw [hkeep]
      exact h.shows id

/-- An update that takes the document of one transfer to the next state. -/
theorem InStep.updated (h : InStep r w) {s s' : TransferState} {m : Message}
    {set : TransferState → TransferState}
    (hhandle : TransferStateEvtHandler.messageHandler r.transfers m =
      ((r.transfers.updateOne (fun doc => doc.id == s.id) set).1,
        (r.transfers.updateOne (fun doc => doc.id == s.id) set).2.nModified == 1 &&
          (r.transfers.updateOne (fun doc => doc.id == s.id) set).2.ok == 1))
    (hid : ∀ doc, doc.id = s.id → (set doc).id = doc.id)
    (hset : ∀ doc, doc.Shows s → (set doc).Shows s')
    (hmoved : s'.transferInternalState ≠ s.transferInternalState)
    (hbefore : stored w s.id = some s) (hself : stored w' s.id = some s')
    (hother : ∀ id, id ≠ s.id → stored w' id = stored w id) :
    InStep (r.receive m) w' := by
  have hquery : ∀ doc : TransferState, (doc.id == s.id) = true → doc.id = s.id :=
    fun doc hdoc => beq_iff_eq.mp hdoc
  have hkey : ∀ doc : TransferState, (doc.id == s.id) = true → (set doc).id = doc.id :=
    fun doc hdoc => hid doc (hquery doc hdoc)
  obtain ⟨doc, hdoc, hshows⟩ : ∃ doc, r.find s.id = some doc ∧ doc.Shows s := by
    have hrel := h.shows s.id
    rw [hbefore] at hrel
    cases hf : r.find s.id with
    | none =>
      rw [hf] at hrel
      cases hrel
    | some doc =>
      rw [hf] at hrel
      cases hrel with
      | some hshows => exact ⟨doc, rfl, hshows⟩
  have hmatches : (doc.id == s.id) = true := beq_iff_eq.mpr hshows.id_eq
  have hchanged : set doc ≠ doc := by
    intro heq
    have hshows' := hset doc hshows
    rw [heq] at hshows'
    exact hmoved (hshows'.transferInternalState.symm.trans hshows.transferInternalState)
  have hreceive : r.receive m =
      { transfers := (r.transfers.updateOne (fun doc => doc.id == s.id) set).1,
        reports := r.reports ++
          [(r.transfers.updateOne (fun doc => doc.id == s.id) set).2.nModified == 1 &&
            (r.transfers.updateOne (fun doc => doc.id == s.id) set).2.ok == 1] } := by
    rw [ReadSide.receive, hhandle]
  rw [hreceive]
  refine { nodup := ?_, shows := fun id => ?_, reports := mem_reports h ?_ }
  · rw [Collection.keys_updateOne hkey]
    exact h.nodup
  · by_cases hne : id = s.id
    · subst hne
      rw [hself, ReadSide.find, Collection.findKey_updateOne_self hquery hkey]
      change Option.Rel _ ((r.find s.id).map _) _
      rw [hdoc, Option.map_some, if_pos hmatches]
      exact .some (hset doc hshows)
    · rw [hother id hne, ReadSide.find, Collection.findKey_updateOne_ne hquery hkey hne]
      exact h.shows id
  · exact (Collection.updateOne_modifies h.nodup hquery).mpr ⟨doc, hdoc, hmatches, hchanged⟩

/-- The state event of a step does to the document what the step does to the transfer. -/
theorem InStep.advanced (h : InStep r w) {s s' : TransferState} {events : List Message}
    (hadv : Advances C s cmd s' events) (hbefore : stored w s.id = some s)
    (hself : stored w' s.id = some s') (hother : ∀ id, id ≠ s.id → stored w' id = stored w id) :
    InStep (Machine.run ReadSide.receive r (stateEvents events)) w' := by
  cases hadv with
  | reserve payload hstate =>
    refine h.updated (s := s) rfl (fun _ _ => rfl) (fun doc hdoc => ?_) ?_ hbefore hself hother
    · exact { hdoc with prepareData := hdoc.prepareData, transferInternalState := rfl }
    · rw [hstate]
      intro heq
      cases heq
  | fulfil payload hstate hfulfils =>
    refine h.updated (s := s) rfl (fun _ hdoc => hdoc.symm) (fun doc hdoc => ?_) ?_ hbefore hself
      hother
    · have hid : s.id = doc.id := hdoc.id_eq.symm
      exact
        { prepareData := (congrArg (fun id => { doc.prepareData with id := id }) hid).trans
            hdoc.prepareData
          transferInternalState := rfl
          fulfilment := rfl
          completedTimestamp := rfl
          fulfil := rfl }
    · rw [hstate]
      intro heq
      cases heq
  | commit payload hstate =>
    refine h.updated (s := s) rfl (fun _ _ => rfl) (fun doc hdoc => ?_) ?_ hbefore hself hother
    · exact { hdoc with prepareData := hdoc.prepareData, transferInternalState := rfl }
    · rw [hstate]
      intro heq
      cases heq

theorem InStep.processCommand (hw : WellKept redisTransferStateRepo w) (h : InStep r w)
    (C : Crypto) (cmd : Command) :
    InStep (Machine.run ReadSide.receive r
        (stateEvents (processCommand redisTransferStateRepo C Faults.none w cmd).published))
      (processCommand redisTransferStateRepo C Faults.none w cmd).repo := by
  have heff := processCommand_effect (C := C) redis_lawful hw cmd
  have halone := @stateEvents_of_alone _ C w cmd redis_lawful
  have hother : ∀ id, id ≠ cmd.transferId →
      stored (TransfersAgg.processCommand redisTransferStateRepo C Faults.none w cmd).repo id =
        stored w id := fun id hid => processCommand_view_other redis_lawful hw hid
  generalize hafter : redisTransferStateRepo.view
    (TransfersAgg.processCommand redisTransferStateRepo C Faults.none w cmd).repo.repo
    cmd.transferId = after at heff
  generalize (TransfersAgg.processCommand redisTransferStateRepo C Faults.none w cmd).published =
    msgs at heff halone ⊢
  generalize (TransfersAgg.processCommand redisTransferStateRepo C Faults.none w cmd).repo = w'
    at hother hafter ⊢
  have hquiet : stored w' cmd.transferId = stored w cmd.transferId → InStep r w' := by
    intro hsame
    refine h.same fun id => ?_
    by_cases hid : id = cmd.transferId
    · rw [hid, hsame]
    · exact hother id hid
  cases heff with
  | prepare payload hcmd hnew =>
    have hnone : stored w cmd.transferId = none := hw.view_of_unseen hnew
    subst hcmd
    exact h.prepared rfl rfl hnone hafter hother
  | refuse m hm =>
    rw [halone rfl]
    exact hquiet hafter
  | spoil m hm s hs haliased hmismatch => cases haliased
  | advance s s' events hs hadv =>
    have hid : s.id = cmd.transferId := hw.keyed cmd s hs
    rw [← hid] at hs hafter hother
    exact h.advanced hadv hs hafter hother

/-! ## Every history -/

theorem inStep_history (C : Crypto) (cmds : List Command) :
    InStep (ReadSide.follow (history redisTransferStateRepo C cmds).published)
      (history redisTransferStateRepo C cmds).world := by
  induction cmds using List.reverseRecOn with
  | nil => exact inStep_start
  | append_singleton cmds cmd ih =>
    have hw := history_wellKept (C := C) redis_lawful cmds
    rw [history_append_one, History.published, History.next, List.flatMap_append,
      List.flatMap_singleton, ReadSide.follow_append]
    exact ih.processCommand hw C cmd

/-- For every history the documents are the stored transfers, one for each, and no update
was refused. -/
theorem read_side_shows_write_side (C : Crypto) (cmds : List Command) :
    (∀ id, Option.Rel TransferState.Shows
      ((ReadSide.follow (history redisTransferStateRepo C cmds).published).find id)
      (stored (history redisTransferStateRepo C cmds).world id)) ∧
    ((ReadSide.follow (history redisTransferStateRepo C cmds).published).transfers.map
      TransferState.id).Nodup ∧
    ∀ report ∈ (ReadSide.follow (history redisTransferStateRepo C cmds).published).reports,
      report = true := by
  have h := inStep_history C cmds
  exact ⟨h.shows, h.nodup, h.reports⟩

end TransfersAgg

end Transfers
end PocArchitecture
