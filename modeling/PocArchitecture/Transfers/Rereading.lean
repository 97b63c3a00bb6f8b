/-
The transfer read side, set back.

The consumer of `TransferStateEvtHandler` starts again from the last offset it committed, and
is handed events that the handler has been through.  The handler asks no questions: a
prepared event inserts one more document, and an update goes to the first document of its
transfer, forward or back.  At the end of the events that document is again what it would be
if each of them had come once.
-/
import PocArchitecture.Lib.Rereading
import PocArchitecture.Transfers.ReadSide

namespace PocArchitecture
namespace Transfers

open PublicMessages Infrastructure
open Collection (findKey)
open Rereading (Documents Turn)

/-- The transfer whose document a state event updates. -/
def Message.updates : Message → Option String
  | transferStateChangedStateEvt id _ => some id
  | transferFulfiledStateEvt payload => some payload.id
  | _ => none

namespace TransferStateEvtHandler

/-- A document after `_handleTransferFulfiledStateEvt`. -/
def fulfilled (transfer : TransferFulfiledStateEvtPayload) (doc : TransferState) : TransferState :=
  { doc with
    id := transfer.id
    fulfilment := transfer.fulfilment
    completedTimestamp := transfer.completedTimestamp
    fulfil := transfer.fulfil
    transferInternalState := .receivedFulfil }

/-- What `_messageHandler` does to the first document with this id. -/
def documents (id : String) : Documents Message TransferState where
  create
    | .transferPreparedStateEvt transfer =>
      if transfer.id = id then
        some { transfer with
          transferInternalState := .receivedPrepare, completedTimestamp := some "" }
      else none
    | _ => none
  update
    | .transferFulfiledStateEvt transfer, doc =>
      if transfer.id = id then fulfilled transfer doc else doc
    | .transferStateChangedStateEvt transferId state, doc =>
      if transferId = id then { doc with transferInternalState := state } else doc
    | _, doc => doc

end TransferStateEvtHandler

open TransferStateEvtHandler (documents fulfilled)

/-- An update of one transfer, seen from the documents of any. -/
theorem find_updateOne {c : Collection TransferState} {transferId id : String}
    {set : TransferState → TransferState} (hset : ∀ doc, doc.id = transferId → (set doc).id = transferId) :
    findKey TransferState.id (c.updateOne (fun doc => doc.id == transferId) set).1 id =
      (findKey TransferState.id c id).map fun doc => if transferId = id then set doc else doc := by
  have hquery : ∀ doc : TransferState, (doc.id == transferId) = true → doc.id = transferId :=
    fun doc hdoc => beq_iff_eq.mp hdoc
  have hkey : ∀ doc : TransferState, (doc.id == transferId) = true → (set doc).id = doc.id :=
    fun doc hdoc => (hset doc (hquery doc hdoc)).trans (hquery doc hdoc).symm
  by_cases hid : transferId = id
  · subst hid
    rw [Collection.findKey_updateOne_self hquery hkey]
    refine Option.map_congr fun doc hdoc => ?_
    rw [if_pos (List.find?_some hdoc), if_pos rfl]
  · rw [Collection.findKey_updateOne_ne hquery hkey fun he => hid he.symm]
    simp [hid]

/-- The events act on the documents of one transfer by themselves. -/
theorem find_receive (r : ReadSide) (m : Message) (id : String) :
    (r.receive m).find id = (documents id).apply (r.find id) m := by
  have hkeep : ∀ o : Option TransferState, (documents id).create m = none →
      (∀ doc, (documents id).update m doc = doc) → (documents id).apply o m = o := by
    intro o hcreate hupdate
    cases o with
    | none => exact hcreate
    | some doc => exact congrArg some (hupdate doc)
  cases m with
  | transferPreparedStateEvt transfer =>
    show findKey TransferState.id (Collection.insertOne _ _).1 id = _
    rw [Collection.findKey_insertOne]
    show (r.find id).or _ = _
    cases r.find id with
    | none => rfl
    | some doc => rfl
  | transferFulfiledStateEvt transfer =>
    have hset : ∀ doc : TransferState, doc.id = transfer.id →
        (fulfilled transfer doc).id = transfer.id := fun _ _ => rfl
    show findKey TransferState.id (Collection.updateOne r.transfers (fun doc => doc.id == transfer.id)
      (fulfilled transfer)).1 id = _
    rw [find_updateOne hset]
    show (r.find id).map _ = _
    cases r.find id with
    | none => rfl
    | some doc => rfl
  | transferStateChangedStateEvt transferId state =>
    show findKey TransferState.id (Collection.updateOne _ _ _).1 id = _
    have hset : ∀ doc : TransferState, doc.id = transferId →
        ({ doc with transferInternalState := state } : TransferState).id = transferId :=
      fun _ hdoc => hdoc
    rw [find_updateOne hset]
    show (r.find id).map _ = _
    cases r.find id with
    | none => rfl
    | some doc => rfl
  | _ => exact (hkeep (r.find id) rfl fun _ => rfl).symm

/-! ## The log of the state events -/

/-- A state event comes after the prepared event of its transfer, and that is the one of the
stored transfer. -/
structure Journal (log : List Message) (w : World) : Prop where
  prepared : ∀ s, .transferPreparedStateEvt s ∈ log → s.fulfilment = none ∧ s.fulfil = none ∧
    ∃ t, TransfersAgg.stored w s.id = some t ∧ t.prepareData = s.prepareData
  known : ∀ id t, TransfersAgg.stored w id = some t →
    ∃ s, .transferPreparedStateEvt s ∈ log ∧ s.id = id
  order : Timeline.Each (fun past m => ∀ id, m.updates = some id →
    ∃ s, .transferPreparedStateEvt s ∈ past ∧ s.id = id) log

namespace Journal

variable {log : List Message} {w w' : World} {C : Crypto} {cmd : Command}

theorem start : Journal [] World.start where
  prepared s hs := absurd hs List.not_mem_nil
  known id t ht := by cases ht
  order := Timeline.each_nil _

theorem same (h : Journal log w)
    (hsame : ∀ id, TransfersAgg.stored w' id = TransfersAgg.stored w id) : Journal log w' where
  prepared s hs := by
    rw [hsame]
    exact h.prepared s hs
  known id t ht := h.known id t ((hsame id).symm.trans ht)
  order := h.order

/-- The first event of a transfer. -/
theorem create (h : Journal log w) {s : TransferState} (hfulfilment : s.fulfilment = none)
    (hfulfil : s.fulfil = none) (hnew : TransfersAgg.stored w s.id = none)
    (hself : TransfersAgg.stored w' s.id = some s)
    (hother : ∀ id, id ≠ s.id → TransfersAgg.stored w' id = TransfersAgg.stored w id) :
    Journal (log ++ [.transferPreparedStateEvt s]) w' where
  prepared s' hs' := by
    rcases List.mem_append.mp hs' with hs' | hs'
    · obtain ⟨hfulfilment', hfulfil', t, ht, hdata⟩ := h.prepared s' hs'
      refine ⟨hfulfilment', hfulfil', t, ?_, hdata⟩
      rw [hother, ht]
      intro hid
      rw [hid, hnew] at ht
      cases ht
    · cases List.mem_singleton.mp hs'
      exact ⟨hfulfilment, hfulfil, s, hself, rfl⟩
  known id t ht := by
    by_cases hid : id = s.id
    · exact ⟨s, List.mem_append_right _ List.mem_cons_self, hid.symm⟩
    · obtain ⟨s', hs', hid'⟩ := h.known id t ((hother id hid).symm.trans ht)
      exact ⟨s', List.mem_append_left _ hs', hid'⟩
  order := Timeline.each_append_one.mpr ⟨h.order, fun id hid => by cases hid⟩

/-- A later event of a stored transfer. -/
theorem update (h : Journal log w) {m : Message} {s s' : TransferState}
    (hm : ∀ t, m ≠ .transferPreparedStateEvt t) (hupdates : m.updates = some s.id)
    (hdata : s'.prepareData = s.prepareData) (hbefore : TransfersAgg.stored w s.id = some s)
    (hself : TransfersAgg.stored w' s.id = some s')
    (hother : ∀ id, id ≠ s.id → TransfersAgg.stored w' id = TransfersAgg.stored w id) :
    Journal (log ++ [m]) w' where
  prepared t ht := by
    rcases List.mem_append.mp ht with ht | ht
    · obtain ⟨hfulfilment, hfulfil, t', ht', hdata'⟩ := h.prepared t ht
      refine ⟨hfulfilment, hfulfil, ?_⟩
      by_cases hid : t.id = s.id
      · rw [hid] at ht' ⊢
        obtain rfl := Option.some.inj (hbefore.symm.trans ht')
        exact ⟨s', hself, hdata.trans hdata'⟩
      · exact ⟨t', (hother t.id hid).trans ht', hdata'⟩
    · exact absurd (List.mem_singleton.mp ht).symm (hm t)
  known id t ht := by
    by_cases hid : id = s.id
    · subst hid
      obtain ⟨s', hs', hid'⟩ := h.known s.id s hbefore
      exact ⟨s', List.mem_append_left _ hs', hid'⟩
    · obtain ⟨s', hs', hid'⟩ := h.known id t ((hother id hid).symm.trans ht)
      exact ⟨s', List.mem_append_left _ hs', hid'⟩
  order := by
    refine Timeline.each_append_one.mpr ⟨h.order, fun id hid => ?_⟩
    obtain rfl := Option.some.inj (hupdates.symm.trans hid)
    exact h.known s.id s hbefore

end Journal

/-! ## The cells of a document -/

section Cells

variable {log : List Message} {w : World} {id : String}

theorem create_eq_some {m : Message} {doc : TransferState}
    (h : (documents id).create m = some doc) :
    ∃ s, m = .transferPreparedStateEvt s ∧ s.id = id ∧
      doc = { s with transferInternalState := .receivedPrepare, completedTimestamp := some "" } := by
  cases m with
  | transferPreparedStateEvt s =>
    by_cases hid : s.id = id
    · refine ⟨s, rfl, hid, ?_⟩
      have hcreate := (if_pos hid).symm.trans h
      exact (Option.some.inj hcreate).symm
    · have hcreate := (if_neg hid).symm.trans h
      cases hcreate
  | _ => cases h

theorem isSome_create {s : TransferState} (hid : s.id = id) :
    ((documents id).create (.transferPreparedStateEvt s)).isSome = true := by
  show (if s.id = id then some _ else none).isSome = true
  rw [if_pos hid]
  rfl

/-- Two creations of a document are of one stored transfer. -/
theorem Journal.create_agree (h : Journal log w) {m m' : Message} (hm : m ∈ log) (hm' : m' ∈ log)
    {doc doc' : TransferState} (hdoc : (documents id).create m = some doc)
    (hdoc' : (documents id).create m' = some doc') :
    doc.prepareData = doc'.prepareData ∧ doc.transferInternalState = doc'.transferInternalState ∧
      (doc.fulfilment, doc.completedTimestamp, doc.fulfil) =
        (doc'.fulfilment, doc'.completedTimestamp, doc'.fulfil) := by
  obtain ⟨s, rfl, hid, rfl⟩ := create_eq_some hdoc
  obtain ⟨s', rfl, hid', rfl⟩ := create_eq_some hdoc'
  obtain ⟨hfulfilment, hfulfil, t, ht, hdata⟩ := h.prepared s hm
  obtain ⟨hfulfilment', hfulfil', t', ht', hdata'⟩ := h.prepared s' hm'
  rw [hid] at ht
  rw [hid', ht] at ht'
  obtain rfl := Option.some.inj ht'
  refine ⟨hdata.symm.trans hdata', rfl, ?_⟩
  simp only [hfulfilment, hfulfil, hfulfilment', hfulfil']

theorem lasting_id (log : List Message) (id : String) :
    (documents id).Lasting log fun doc => doc.id = id where
  create m _ doc hdoc := by
    obtain ⟨s, -, hid, rfl⟩ := create_eq_some hdoc
    exact hid
  update m _ doc hdoc := by
    cases m with
    | transferFulfiledStateEvt transfer =>
      show (if transfer.id = id then fulfilled transfer doc else doc).id = id
      split
      · assumption
      · exact hdoc
    | transferStateChangedStateEvt transferId state =>
      show (if transferId = id then { doc with transferInternalState := state } else doc).id = id
      split
      · exact hdoc
      · exact hdoc
    | _ => exact hdoc

/-- An update comes after the creation. -/
theorem Journal.order_of {V : Type} (h : Journal log w) {writes : Message → Option V}
    (hwrites : ∀ m, writes m ≠ none → m.updates = some id) :
    Timeline.Each
      (fun past m => writes m ≠ none → ∃ m' ∈ past, ((documents id).create m').isSome = true) log :=
  h.order.mono fun past m hpast hm => by
    obtain ⟨s, hs, hid⟩ := hpast id (hwrites m hm)
    exact ⟨_, hs, isSome_create hid⟩

theorem Journal.cell_prepareData (h : Journal log w) (id : String) :
    Documents.Cell (documents id) log (fun doc => doc.id = id) TransferState.prepareData
      fun _ => none where
  update m _ doc hdoc := by
    show _ = doc.prepareData
    cases m with
    | transferFulfiledStateEvt transfer =>
      show (if transfer.id = id then fulfilled transfer doc else doc).prepareData = _
      split
      · rename_i hid
        simp only [fulfilled, TransferState.prepareData, hid, hdoc]
      · rfl
    | transferStateChangedStateEvt transferId state =>
      show (if transferId = id then { doc with transferInternalState := state }
        else doc).prepareData = _
      split
      · rfl
      · rfl
    | _ => rfl
  create m hm m' hm' doc doc' hdoc hdoc' := (h.create_agree hm hm' hdoc hdoc').1
  order := h.order_of fun m hm => absurd rfl hm

/-- The internal state an event writes. -/
def writesState (id : String) : Message → Option TransferInternalStates
  | .transferFulfiledStateEvt transfer => if transfer.id = id then some .receivedFulfil else none
  | .transferStateChangedStateEvt transferId state => if transferId = id then some state else none
  | _ => none

theorem Journal.cell_state (h : Journal log w) (id : String) :
    Documents.Cell (documents id) log (fun doc => doc.id = id) TransferState.transferInternalState
      (writesState id) where
  update m _ doc hdoc := by
    cases m with
    | transferFulfiledStateEvt transfer =>
      show (if transfer.id = id then fulfilled transfer doc else doc).transferInternalState =
        (if transfer.id = id then some TransferInternalStates.receivedFulfil else none).getD _
      split
      · rfl
      · rfl
    | transferStateChangedStateEvt transferId state =>
      show (if transferId = id then { doc with transferInternalState := state }
        else doc).transferInternalState = (if transferId = id then some state else none).getD _
      split
      · rfl
      · rfl
    | _ => rfl
  create m hm m' hm' doc doc' hdoc hdoc' := (h.create_agree hm hm' hdoc hdoc').2.1
  order := h.order_of fun m hm => by
    cases m with
    | transferFulfiledStateEvt transfer =>
      by_cases hid : transfer.id = id
      · exact congrArg some hid
      · exact absurd (if_neg hid) hm
    | transferStateChangedStateEvt transferId state =>
      by_cases hid : transferId = id
      · exact congrArg some hid
      · exact absurd (if_neg hid) hm
    | _ => exact absurd rfl hm

/-- What a fulfil is about, as an event writes it. -/
def writesFulfil (id : String) :
    Message → Option (Option String × Option String × Option TransferRawPayload)
  | .transferFulfiledStateEvt transfer =>
    if transfer.id = id then some (transfer.fulfilment, transfer.completedTimestamp, transfer.fulfil)
    else none
  | _ => none

theorem Journal.cell_fulfil (h : Journal log w) (id : String) :
    Documents.Cell (documents id) log (fun doc => doc.id = id)
      (fun doc => (doc.fulfilment, doc.completedTimestamp, doc.fulfil)) (writesFulfil id) where
  update m _ doc hdoc := by
    cases m with
    | transferFulfiledStateEvt transfer =>
      by_cases hid : transfer.id = id
      · simp only [documents, writesFulfil, if_pos hid, fulfilled, Option.getD_some]
      · simp only [documents, writesFulfil, if_neg hid, Option.getD_none]
    | transferStateChangedStateEvt transferId state =>
      by_cases hid : transferId = id
      · simp only [documents, writesFulfil, if_pos hid, Option.getD_none]
      · simp only [documents, writesFulfil, if_neg hid, Option.getD_none]
    | _ => rfl
  create m hm m' hm' doc doc' hdoc hdoc' := (h.create_agree hm hm' hdoc hdoc').2.2
  order := h.order_of fun m hm => by
    cases m with
    | transferFulfiledStateEvt transfer =>
      by_cases hid : transfer.id = id
      · exact congrArg some hid
      · exact absurd (if_neg hid) hm
    | _ => exact absurd rfl hm

/-- Two readings that have got to the end have the same first document of the transfer. -/
theorem Journal.read_eq (h : Journal log w) (id : String) {turns turns' : List Turn}
    (hend : (Rereading.read (documents id).apply log none turns).position = log.length)
    (hend' : (Rereading.read (documents id).apply log none turns').position = log.length) :
    (Rereading.read (documents id).apply log none turns).state =
      (Rereading.read (documents id).apply log none turns').state := by
  have hlasting := lasting_id log id
  refine Documents.read_eq hlasting hend hend' fun doc doc' _ _ hdoc hdoc' => ?_
  have hdata := (h.cell_prepareData id).value_eq hlasting hend hend' hdoc hdoc'
  have hstate := (h.cell_state id).value_eq hlasting hend hend' hdoc hdoc'
  have hfulfil := (h.cell_fulfil id).value_eq hlasting hend hend' hdoc hdoc'
  simp only [TransferState.prepareData, PrepareTransferData.mk.injEq] at hdata
  simp only [Prod.mk.injEq] at hfulfil
  rw [TransferState.mk.injEq]
  obtain ⟨hid, hamount, hcurrency, hpayer, hpayee, hexpiration, hcondition, hprepare⟩ := hdata
  exact ⟨hid, hamount, hcurrency, hstate, hpayer, hpayee, hexpiration, hcondition, hprepare,
    hfulfil⟩

end Cells

/-! ## Every history -/

namespace TransfersAgg

variable {C : Crypto} {w : World} {cmd : Command}

theorem journal_processCommand {log : List Message} (h : Journal log w)
    (hw : WellKept redisTransferStateRepo w) :
    Journal (log ++ stateEvents (processCommand redisTransferStateRepo C Faults.none w cmd).published)
      (processCommand redisTransferStateRepo C Faults.none w cmd).repo := by
  have heff := processCommand_effect (C := C) redis_lawful hw cmd
  have halone := @stateEvents_of_alone _ C w cmd redis_lawful
  have hother : ∀ id, id ≠ cmd.transferId →
      stored (processCommand redisTransferStateRepo C Faults.none w cmd).repo id = stored w id :=
    fun id hid => processCommand_view_other redis_lawful hw hid
  generalize hafter : redisTransferStateRepo.view
    (processCommand redisTransferStateRepo C Faults.none w cmd).repo.repo cmd.transferId = after
    at heff
  generalize (processCommand redisTransferStateRepo C Faults.none w cmd).published = msgs
    at heff halone ⊢
  generalize (processCommand redisTransferStateRepo C Faults.none w cmd).repo = w' at hother hafter ⊢
  cases heff with
  | prepare payload hcmd hnew =>
    have hnone : stored w cmd.transferId = none := hw.view_of_unseen hnew
    subst hcmd
    exact h.create rfl rfl hnone hafter hother
  | refuse m hm =>
    rw [halone rfl]
    show Journal (log ++ []) w'
    rw [List.append_nil]
    apply h.same
    intro id
    by_cases hid : id = cmd.transferId
    · subst hid
      exact hafter
    · exact hother id hid
  | spoil m hm s hs haliased hmismatch => cases haliased
  | advance s s' events hs hadv =>
    have hid : s.id = cmd.transferId := hw.keyed cmd s hs
    have hdata := hadv.prepareData_eq
    rw [← hid] at hs hafter hother
    cases hadv with
    | reserve payload hstate => exact h.update (fun t ht => by cases ht) rfl hdata hs hafter hother
    | fulfil payload hstate hfulfils =>
      exact h.update (fun t ht => by cases ht) rfl hdata hs hafter hother
    | commit payload hstate => exact h.update (fun t ht => by cases ht) rfl hdata hs hafter hother

theorem journal_history (C : Crypto) (cmds : List Command) :
    Journal (stateEvents (history redisTransferStateRepo C cmds).published)
      (history redisTransferStateRepo C cmds).world := by
  induction cmds using List.reverseRecOn with
  | nil => exact Journal.start
  | append_singleton cmds cmd ih =>
    have hw := history_wellKept (C := C) redis_lawful cmds
    rw [history_append_one, History.published, History.next, List.flatMap_append,
      List.flatMap_singleton, stateEvents_append]
    exact journal_processCommand ih hw

/-- The read side of a history, whose consumer is set back at will. -/
def reread (C : Crypto) (cmds : List Command) (turns : List Turn) : Rereading.Reader ReadSide :=
  Rereading.read ReadSide.receive (stateEvents (history redisTransferStateRepo C cmds).published)
    ReadSide.start turns

/-- A read side that has got to the end of the events shows every stored transfer, however often
it was set back on the way. -/
theorem reread_shows (C : Crypto) (cmds : List Command) (turns : List Turn)
    (hend : (reread C cmds turns).position =
      (stateEvents (history redisTransferStateRepo C cmds).published).length) (id : String) :
    Option.Rel TransferState.Shows ((reread C cmds turns).state.find id)
      (stored (history redisTransferStateRepo C cmds).world id) := by
  have hjournal := journal_history C cmds
  have hshows := (inStep_history C cmds).shows id
  rw [ReadSide.follow] at hshows
  rw [reread] at hend ⊢
  generalize stateEvents (history redisTransferStateRepo C cmds).published = log
    at hend hjournal hshows ⊢
  have hfind : ∀ turns, (Rereading.read (documents id).apply log none turns).position =
        (Rereading.read ReadSide.receive log ReadSide.start turns).position ∧
      (Rereading.read (documents id).apply log none turns).state =
        (Rereading.read ReadSide.receive log ReadSide.start turns).state.find id :=
    Rereading.read_map (g := fun r : ReadSide => r.find id) (fun r m => find_receive r m id) log
      ReadSide.start
  have honce := hfind (List.replicate log.length .next)
  rw [Rereading.read_once ReadSide.receive log ReadSide.start] at honce
  have hsame := hjournal.read_eq id ((hfind turns).1.trans hend) honce.1
  rw [(hfind turns).2, honce.2] at hsame
  rw [hsame]
  exact hshows

/-- A prepared transfer that comes twice. -/
theorem reread_shows_sample :
    Option.Rel TransferState.Shows
      ((reread sampleCrypto [.prepareTransferCmd samplePrepare]
        [.next, .restart 0, .next]).state.find samplePrepare.transferId)
      (stored (history redisTransferStateRepo sampleCrypto
        [.prepareTransferCmd samplePrepare]).world samplePrepare.transferId) :=
  reread_shows sampleCrypto [.prepareTransferCmd samplePrepare] [.next, .restart 0, .next]
    (by decide +kernel) samplePrepare.transferId

/-- The document that came of the second delivery stays, as an older one. -/
example : ((reread sampleCrypto
      [.prepareTransferCmd samplePrepare, .ackPayerFundsReservedCmd sampleAck]
      [.next, .restart 0, .next, .next]).state.transfers.map (·.transferInternalState)) =
    [.reserved, .receivedPrepare] := by
  decide +kernel

end TransfersAgg

end Transfers
end PocArchitecture
