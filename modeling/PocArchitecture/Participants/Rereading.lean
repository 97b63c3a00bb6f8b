/-
The participant read side, set back.

A position event assigns a text and says nothing of the one before, so an event that comes
again moves a document back, and the events after it move it forward again.  The positional
operator picks its account by the currencies of the document, and no event writes those: each
delivery of an event assigns to the same account.
-/
import PocArchitecture.Lib.Rereading
import PocArchitecture.Participants.ReadSide

namespace PocArchitecture
namespace Participants

open PublicMessages Infrastructure
open Domain.BaseEventSourcingAggregate
open Collection (findKey)
open Rereading (Documents Turn)
open MongoDbReadsideParticipantRepo (hasCurrency setPositional)

/-- The participant whose document a state event updates. -/
def Message.updates : Message → Option String
  | stateEvt (.participantPositionChangedStateEvt participant) => some participant.id
  | _ => none

namespace ParticipantStateEvtHandler

/-- What `_messageHandler` does to the first document with this id. -/
def documents (id : String) : Documents Message ParticipantState where
  create
    | .stateEvt (.participantCreatedStateEvt participant) =>
      if participant.id = id then some participant else none
    | _ => none
  update
    | .stateEvt (.participantPositionChangedStateEvt participant), doc =>
      if participant.id = id then
        setPositional doc participant.currency participant.currentPosition
      else doc
    | _, doc => doc

end ParticipantStateEvtHandler

open ParticipantStateEvtHandler (documents)

theorem setPositional_of_absent {doc : ParticipantState} {currency : CurrencyTypes}
    (h : doc.accounts.any (hasCurrency currency) = false) (position : String) :
    setPositional doc currency position = doc := by
  rw [setPositional, FirstMatch.updateFirst_of_any_false h]

/-- A position event of one participant, seen from the documents of any. -/
theorem find_setPositional {c : Collection ParticipantState} {participantId id : String}
    (currency : CurrencyTypes) (position : String) :
    findKey ParticipantState.id
        (MongoDbReadsideParticipantRepo.updatePosition c participantId currency position).1 id =
      (findKey ParticipantState.id c id).map fun doc =>
        if participantId = id then setPositional doc currency position else doc := by
  have hquery : ∀ doc : ParticipantState,
      (doc.id == participantId && doc.accounts.any (hasCurrency currency)) = true →
      doc.id = participantId := by
    intro doc hdoc
    rw [Bool.and_eq_true] at hdoc
    exact beq_iff_eq.mp hdoc.1
  have hkey : ∀ doc : ParticipantState,
      (doc.id == participantId && doc.accounts.any (hasCurrency currency)) = true →
      (setPositional doc currency position).id = doc.id := fun _ _ => rfl
  show findKey ParticipantState.id (Collection.updateOne _ _ _).1 id = _
  by_cases hid : participantId = id
  · subst hid
    rw [Collection.findKey_updateOne_self hquery hkey]
    refine Option.map_congr fun doc hdoc => ?_
    have hdoc' : (doc.id == participantId) = true :=
      List.find?_some (p := fun doc : ParticipantState => doc.id == participantId) hdoc
    rw [hdoc', Bool.true_and, if_pos rfl]
    split
    · rfl
    · rename_i hany
      exact (setPositional_of_absent (by simpa using hany) position).symm
  · rw [Collection.findKey_updateOne_ne hquery hkey fun he => hid he.symm]
    simp [hid]

/-- The events act on the documents of one participant by themselves. -/
theorem find_receive (r : ReadSide) (m : Message) (id : String) :
    (r.receive m).find id = (documents id).apply (r.find id) m := by
  have hkeep : ∀ o : Option ParticipantState, (documents id).create m = none →
      (∀ doc, (documents id).update m doc = doc) → (documents id).apply o m = o := by
    intro o hcreate hupdate
    cases o with
    | none => exact hcreate
    | some doc => exact congrArg some (hupdate doc)
  cases m with
  | stateEvt evt =>
    cases evt with
    | participantCreatedStateEvt participant =>
      show findKey ParticipantState.id (Collection.insertOne _ _).1 id = _
      rw [Collection.findKey_insertOne]
      show (r.find id).or _ = _
      cases r.find id with
      | none => rfl
      | some doc => rfl
    | participantPositionChangedStateEvt participant =>
      show findKey ParticipantState.id (MongoDbReadsideParticipantRepo.updatePosition
        r.participants participant.id participant.currency participant.currentPosition).1 id = _
      rw [find_setPositional]
      show (r.find id).map _ = _
      cases r.find id with
      | none => rfl
      | some doc => rfl
  | _ => exact (hkeep (r.find id) rfl fun _ => rfl).symm

/-! ## The log of the state events -/

/-- A participant is created once, and no position of it changes before. -/
structure Journal (log : List Message) (w : World) : Prop where
  once : ∀ p q, .stateEvt (.participantCreatedStateEvt p) ∈ log →
    .stateEvt (.participantCreatedStateEvt q) ∈ log → p.id = q.id → p = q
  known : ∀ id, (ParticpantsAgg.stored w id).isSome = true ↔
    ∃ p, .stateEvt (.participantCreatedStateEvt p) ∈ log ∧ p.id = id
  order : Timeline.Each (fun past m => ∀ id, m.updates = some id →
    ∃ p, .stateEvt (.participantCreatedStateEvt p) ∈ past ∧ p.id = id) log

namespace Journal

variable {log : List Message} {w w' : World}

theorem start (partitioner : String → Nat) : Journal [] (ParticpantsAgg.start partitioner) where
  once p q hp := absurd hp List.not_mem_nil
  known id := by
    constructor
    · intro h
      cases h
    · rintro ⟨p, hp, -⟩
      cases hp
  order := Timeline.each_nil _

theorem same (h : Journal log w)
    (hsame : ∀ id, ParticpantsAgg.stored w' id = ParticpantsAgg.stored w id) :
    Journal log w' where
  once := h.once
  known id := by
    rw [hsame]
    exact h.known id
  order := h.order

/-- The created event of a participant that is not stored. -/
theorem create (h : Journal log w) {participant : ParticipantState}
    (hnew : ParticpantsAgg.stored w participant.id = none)
    (hself : ParticpantsAgg.stored w' participant.id = some participant)
    (hother : ∀ id, id ≠ participant.id →
      ParticpantsAgg.stored w' id = ParticpantsAgg.stored w id) :
    Journal (log ++ [.stateEvt (.participantCreatedStateEvt participant)]) w' where
  once p q hp hq hid := by
    have hold : ∀ p, .stateEvt (.participantCreatedStateEvt p) ∈ log → p.id ≠ participant.id := by
      intro p hp he
      have hsome := (h.known p.id).mpr ⟨p, hp, rfl⟩
      rw [he, hnew] at hsome
      cases hsome
    have hlast : ∀ p, .stateEvt (.participantCreatedStateEvt p) ∈
        [Message.stateEvt (.participantCreatedStateEvt participant)] → p = participant := by
      intro p hp
      cases List.mem_singleton.mp hp
      rfl
    rcases List.mem_append.mp hp with hp | hp
    · rcases List.mem_append.mp hq with hq | hq
      · exact h.once p q hp hq hid
      · rw [hlast q hq] at hid
        exact absurd hid (hold p hp)
    · rcases List.mem_append.mp hq with hq | hq
      · rw [hlast p hp] at hid
        exact absurd hid.symm (hold q hq)
      · exact (hlast p hp).trans (hlast q hq).symm
  known id := by
    simp only [List.mem_append, List.mem_singleton, Message.stateEvt.injEq,
      ParticipantStateEvt.participantCreatedStateEvt.injEq]
    by_cases hid : id = participant.id
    · subst hid
      rw [hself]
      exact iff_of_true rfl ⟨participant, Or.inr rfl, rfl⟩
    · rw [hother id hid, h.known id]
      constructor
      · rintro ⟨p, hp, hpid⟩
        exact ⟨p, Or.inl hp, hpid⟩
      · rintro ⟨p, hp | rfl, hpid⟩
        · exact ⟨p, hp, hpid⟩
        · exact absurd hpid.symm hid
  order := Timeline.each_append_one.mpr ⟨h.order, fun id hid => by cases hid⟩

/-- A position event of a stored participant. -/
theorem move (h : Journal log w) {root root' : ParticipantState} {currency : CurrencyTypes}
    {position : String} (hbefore : ParticpantsAgg.stored w root.id = some root)
    (hid : root'.id = root.id) (hself : ParticpantsAgg.stored w' root.id = some root')
    (hother : ∀ id, id ≠ root.id → ParticpantsAgg.stored w' id = ParticpantsAgg.stored w id) :
    Journal (log ++ [ParticpantsAgg.positionChanged root' currency position]) w' where
  once p q hp hq := by
    have hold : ∀ p, .stateEvt (.participantCreatedStateEvt p) ∈
        log ++ [ParticpantsAgg.positionChanged root' currency position] →
          .stateEvt (.participantCreatedStateEvt p) ∈ log := by
      intro p hp
      rcases List.mem_append.mp hp with hp | hp
      · exact hp
      · cases List.mem_singleton.mp hp
    exact h.once p q (hold p hp) (hold q hq)
  known id := by
    have hsome : (ParticpantsAgg.stored w' id).isSome = (ParticpantsAgg.stored w id).isSome := by
      by_cases he : id = root.id
      · rw [he, hself, hbefore]
        rfl
      · rw [hother id he]
    rw [hsome, h.known id]
    constructor
    · rintro ⟨p, hp, hpid⟩
      exact ⟨p, List.mem_append_left _ hp, hpid⟩
    · rintro ⟨p, hp, hpid⟩
      rcases List.mem_append.mp hp with hp | hp
      · exact ⟨p, hp, hpid⟩
      · cases List.mem_singleton.mp hp
  order := by
    refine Timeline.each_append_one.mpr ⟨h.order, fun id hupdates => ?_⟩
    obtain rfl : root'.id = id := Option.some.inj hupdates
    rw [hid]
    exact (h.known root.id).mp (by rw [hbefore]; rfl)

end Journal

/-! ## The cells of a document -/

section Cells

variable {log : List Message} {w : World} {id : String} {participant : ParticipantState}

theorem create_eq_some {m : Message} {doc : ParticipantState}
    (h : (documents id).create m = some doc) :
    m = .stateEvt (.participantCreatedStateEvt doc) ∧ doc.id = id := by
  cases m with
  | stateEvt evt =>
    cases evt with
    | participantCreatedStateEvt p =>
      by_cases hid : p.id = id
      · have hcreate := (if_pos hid).symm.trans h
        obtain rfl := Option.some.inj hcreate
        exact ⟨rfl, hid⟩
      · have hcreate := (if_neg hid).symm.trans h
        cases hcreate
    | participantPositionChangedStateEvt p => cases h
  | _ => cases h

/-- The document without its positions. -/
def frame (doc : ParticipantState) : ParticipantState :=
  { doc with accounts := doc.accounts.map (.withPosition "") }

theorem frame_setPositional (doc : ParticipantState) (currency : CurrencyTypes) (position : String) :
    frame (setPositional doc currency position) = frame doc := by
  have hmap := FirstMatch.map_updateFirst (p := hasCurrency currency) (f := .withPosition position)
    (g := ParticipantAccountState.withPosition "") (fun _ _ => rfl) doc.accounts
  exact congrArg (fun accounts => { doc with accounts := accounts }) hmap

/-- No event writes anything but positions. -/
theorem frame_update (m : Message) (doc : ParticipantState) :
    frame ((documents id).update m doc) = frame doc := by
  cases m with
  | stateEvt evt =>
    cases evt with
    | participantCreatedStateEvt p => rfl
    | participantPositionChangedStateEvt p =>
      show frame (if p.id = id then setPositional doc p.currency p.currentPosition else doc) = _
      split
      · exact frame_setPositional doc _ _
      · rfl
  | _ => rfl

/-- The element of the account array the operator takes. -/
theorem findIdx?_of_frame {doc doc' : ParticipantState} (h : frame doc = frame doc')
    (currency : CurrencyTypes) :
    doc.accounts.findIdx? (hasCurrency currency) =
      doc'.accounts.findIdx? (hasCurrency currency) := by
  have hframe : ∀ doc : ParticipantState,
      (frame doc).accounts.findIdx? (hasCurrency currency) =
        doc.accounts.findIdx? (hasCurrency currency) := by
    intro doc
    show (doc.accounts.map _).findIdx? _ = _
    rw [List.findIdx?_map]
    rfl
  rw [← hframe doc, ← hframe doc', h]

theorem getElem?_setPositional (doc : ParticipantState) (currency : CurrencyTypes)
    (position : String) (i : Nat) :
    (setPositional doc currency position).accounts[i]?.map (·.position) =
      if doc.accounts.findIdx? (hasCurrency currency) = some i then some position
      else doc.accounts[i]?.map (·.position) := by
  rw [setPositional, FirstMatch.getElem?_updateFirst]
  split
  · rename_i hi
    obtain ⟨hlt, -⟩ := List.findIdx?_eq_some_iff_getElem.mp hi
    rw [List.getElem?_eq_getElem hlt]
    rfl
  · rfl

theorem eq_of_cells {doc doc' : ParticipantState} (hframe : frame doc = frame doc')
    (hpositions : ∀ i : Nat,
      doc.accounts[i]?.map (·.position) = doc'.accounts[i]?.map (·.position)) :
    doc = doc' := by
  have haccounts : doc.accounts = doc'.accounts := by
    apply List.ext_getElem?
    intro i
    have hmap := congrArg (fun d : ParticipantState => d.accounts[i]?) hframe
    simp only [frame, List.getElem?_map] at hmap
    have hposition := hpositions i
    revert hmap hposition
    cases doc.accounts[i]? with
    | none =>
      cases doc'.accounts[i]? with
      | none => exact fun _ _ => rfl
      | some a' => exact fun _ hposition => by cases hposition
    | some a =>
      cases doc'.accounts[i]? with
      | none => exact fun _ hposition => by cases hposition
      | some a' =>
        intro hmap hposition
        simp only [Option.map_some, Option.some.injEq, ParticipantAccountState.withPosition,
          ParticipantAccountState.mk.injEq] at hmap hposition
        rw [Option.some.injEq, ParticipantAccountState.mk.injEq]
        exact ⟨hmap.1, hmap.2.1, hposition, hmap.2.2.2⟩
  have hrest := (ParticipantState.mk.injEq ..).mp hframe
  exact (ParticipantState.mk.injEq ..).mpr
    ⟨hrest.1, hrest.2.1, haccounts, hrest.2.2.2⟩

/-- What the log creates under the id of this participant is this participant. -/
structure Journal.Creates (log : List Message) (participant : ParticipantState) : Prop where
  only : ∀ p, .stateEvt (.participantCreatedStateEvt p) ∈ log → p.id = participant.id →
    p = participant

theorem Journal.Creates.create_eq (h : Journal.Creates log participant) {m : Message}
    {doc : ParticipantState} (hm : m ∈ log)
    (hdoc : (documents participant.id).create m = some doc) : doc = participant := by
  obtain ⟨rfl, hid⟩ := create_eq_some hdoc
  exact h.only doc hm hid

theorem Journal.Creates.lasting (h : Journal.Creates log participant) :
    (documents participant.id).Lasting log fun doc => frame doc = frame participant where
  create _ hm _ hdoc := congrArg frame (h.create_eq hm hdoc)
  update _ _ _ hdoc := (frame_update _ _).trans hdoc

/-- The text an event writes to the i-th account. -/
def writesPosition (participant : ParticipantState) (i : Nat) : Message → Option (Option String)
  | .stateEvt (.participantPositionChangedStateEvt p) =>
    if p.id = participant.id ∧
        participant.accounts.findIdx? (hasCurrency p.currency) = some i then
      some (some p.currentPosition)
    else none
  | _ => none

theorem Journal.cell_position (h : Journal log w) (honly : Journal.Creates log participant)
    (i : Nat) :
    Documents.Cell (documents participant.id) log (fun doc => frame doc = frame participant)
      (fun doc => doc.accounts[i]?.map (·.position)) (writesPosition participant i) where
  update m _ doc hdoc := by
    cases m with
    | stateEvt evt =>
      cases evt with
      | participantCreatedStateEvt p => rfl
      | participantPositionChangedStateEvt p =>
        simp only [documents, writesPosition]
        by_cases hid : p.id = participant.id
        · rw [if_pos hid, getElem?_setPositional, findIdx?_of_frame hdoc]
          by_cases hi : participant.accounts.findIdx? (hasCurrency p.currency) = some i
          · rw [if_pos hi, if_pos ⟨hid, hi⟩, Option.getD_some]
          · rw [if_neg hi, if_neg fun hboth => hi hboth.2, Option.getD_none]
        · rw [if_neg hid, if_neg fun hboth => hid hboth.1, Option.getD_none]
    | _ => rfl
  create m hm m' hm' doc doc' hdoc hdoc' := by
    rw [honly.create_eq hm hdoc, honly.create_eq hm' hdoc']
  order := h.order.mono fun past m hpast hm => by
    have hupdates : m.updates = some participant.id := by
      cases m with
      | stateEvt evt =>
        cases evt with
        | participantCreatedStateEvt p => exact absurd rfl hm
        | participantPositionChangedStateEvt p =>
          by_cases hid : p.id = participant.id
          · exact congrArg some hid
          · exact absurd (if_neg fun hboth => hid hboth.1) hm
      | _ => exact absurd rfl hm
    obtain ⟨p, hp, hid⟩ := hpast participant.id hupdates
    refine ⟨_, hp, ?_⟩
    show (if p.id = participant.id then some p else none).isSome = true
    rw [if_pos hid]
    rfl

/-- Two readings that have got to the end have the same first document of the participant. -/
theorem Journal.read_eq (h : Journal log w) (id : String) {turns turns' : List Turn}
    (hend : (Rereading.read (documents id).apply log none turns).position = log.length)
    (hend' : (Rereading.read (documents id).apply log none turns').position = log.length) :
    (Rereading.read (documents id).apply log none turns).state =
      (Rereading.read (documents id).apply log none turns').state := by
  have hany : (documents id).Lasting log fun _ => True :=
    { create := fun _ _ _ _ => trivial, update := fun _ _ _ _ => trivial }
  refine Documents.read_eq hany hend hend' fun doc doc' _ _ hdoc hdoc' => ?_
  obtain ⟨m, hm, hcreate⟩ := (Documents.isSome_read_iff turns hend).mp (by rw [hdoc]; rfl)
  obtain ⟨participant, hparticipant⟩ := Option.isSome_iff_exists.mp hcreate
  obtain ⟨rfl, rfl⟩ := create_eq_some hparticipant
  have honly : Journal.Creates log participant :=
    { only := fun p hp hid => h.once p participant hp hm hid }
  have hlasting := honly.lasting
  refine eq_of_cells ?_ fun i => (h.cell_position honly i).value_eq hlasting hend hend' hdoc hdoc'
  rw [hlasting.static_read turns doc hdoc, hlasting.static_read turns' doc' hdoc']

end Cells

/-! ## Every history -/

namespace ParticpantsAgg

variable {B : BigNumber} {w : World} {cmd : Command}

theorem journal_process {log : List Message} (h : Journal log w)
    (hw : WellKept redisParticipantStateRepo w) (hall : AllStored w) (B : BigNumber)
    (cmd : Command) :
    Journal (log ++ stateEvents (process B w cmd).published) (process B w cmd).repo := by
  have hself := stored_process_root (hw.keyed cmd) hall B
  have hsame := stored_process_same (hw.keyed cmd) hall B
  have hother : ∀ id, id ≠ cmd.rootId →
      stored (ParticpantsAgg.process B w cmd).repo id = stored w id :=
    fun _ hne => stored_process_ne (hw.keyed cmd) hne
  have hpub : (ParticpantsAgg.process B w cmd).published =
      (verdict redisParticipantStateRepo B w cmd).published Faults.none :=
    processCommand_published redis_lawful (hw.keyed cmd)
  have hquiet : ∀ {w' : World}, Journal log w' → Journal (log ++ []) w' := by
    intro w' h'
    rwa [List.append_nil]
  rw [hpub]
  cases hv : verdict redisParticipantStateRepo B w cmd with
  | reject =>
    rw [hv] at hsame
    exact hquiet (h.same (hsame fun s hs => by cases hs))
  | refuse root events =>
    obtain ⟨m, rfl, hm⟩ := verdict_refuse hv
    rw [hv] at hsame
    have hnone : stateEvents (Verdict.published Faults.none (.refuse root [m])) = [] := by
      cases m <;> first | rfl | cases hm
    rw [hnone]
    exact hquiet (h.same (hsame fun s hs => by cases hs))
  | snapshot root =>
    rw [hv] at hsame
    exact hquiet (h.same (hsame fun s hs => hall.loaded (by rw [hv]; exact hs)))
  | create participant =>
    obtain ⟨rfl, hunknown⟩ := verdict_create hv
    rw [hv] at hself
    exact h.create (view_none_of_lookup (by rw [hunknown]; rfl)) hself hother
  | move root root' events stateEvent =>
    obtain ⟨hmoves, terms, position, m, hterms, hposition, -, rfl, hm, rfl⟩ := verdict_move hv
    have hroot : stored w cmd.rootId = some root := hall.loaded (by rw [hv]; rfl)
    have hid : root.id = cmd.rootId := hw.view_id _ _ hroot
    rw [hv] at hself
    have hevents : stateEvents (Verdict.published Faults.none
        (.move root root' [m] (positionChanged root' terms.currency position))) =
        [positionChanged root' terms.currency position] := by
      cases m <;> first | rfl | cases hm
    rw [hevents]
    obtain ⟨_, -, hto⟩ := hmoves.movesTo
    rw [← hid] at hroot hself hother
    exact h.move hroot hto.id_eq hself hother

theorem journal_history (B : BigNumber) (partitioner : String → Nat) (cmds : List Command) :
    Journal (stateEvents (history B partitioner cmds).published)
      (history B partitioner cmds).world := by
  induction cmds using List.reverseRecOn with
  | nil => exact Journal.start partitioner
  | append_singleton cmds cmd ih =>
    obtain ⟨hw, hall⟩ := history_invariant B partitioner cmds
    rw [history_append_one, History.next, stateEvents_append]
    exact journal_process ih hw hall B cmd

/-- The read side of a history, whose consumer is set back at will. -/
def reread (B : BigNumber) (partitioner : String → Nat) (cmds : List Command)
    (turns : List Turn) : Rereading.Reader ReadSide :=
  Rereading.read ReadSide.receive (stateEvents (history B partitioner cmds).published)
    ReadSide.start turns

/-- A read side that has got to the end of the events has the documents of one that was never
set back. -/
theorem reread_same (B : BigNumber) (partitioner : String → Nat) (cmds : List Command)
    (turns : List Turn) (hend : (reread B partitioner cmds turns).position =
      (stateEvents (history B partitioner cmds).published).length) (id : String) :
    (reread B partitioner cmds turns).state.find id =
      (readSide (history B partitioner cmds)).find id := by
  have hjournal := journal_history B partitioner cmds
  rw [reread] at hend ⊢
  rw [readSide, ReadSide.follow]
  generalize stateEvents (history B partitioner cmds).published = log at hend hjournal ⊢
  have hfind : ∀ turns, (Rereading.read (documents id).apply log none turns).position =
        (Rereading.read ReadSide.receive log ReadSide.start turns).position ∧
      (Rereading.read (documents id).apply log none turns).state =
        (Rereading.read ReadSide.receive log ReadSide.start turns).state.find id :=
    Rereading.read_map (g := fun r : ReadSide => r.find id) (fun r m => find_receive r m id) log
      ReadSide.start
  have honce := hfind (List.replicate log.length .next)
  rw [Rereading.read_once ReadSide.receive log ReadSide.start] at honce
  have hsame := hjournal.read_eq id ((hfind turns).1.trans hend) honce.1
  rwa [(hfind turns).2, honce.2] at hsame

/-- A reserve that comes twice. -/
theorem reread_same_sample :
    (reread wholeNumbers (fun _ => 0)
        [.createParticipantCmd (sampleParticipant "blue"),
          .createParticipantCmd (sampleParticipant "green"), .reservePayerFundsCmd sampleTerms]
        [.next, .next, .next, .restart 1, .next, .next]).state.find "blue" =
      (readSide (history wholeNumbers (fun _ => 0)
        [.createParticipantCmd (sampleParticipant "blue"),
          .createParticipantCmd (sampleParticipant "green"),
          .reservePayerFundsCmd sampleTerms])).find "blue" :=
  reread_same wholeNumbers (fun _ => 0) _ [.next, .next, .next, .restart 1, .next, .next]
    (by decide +kernel) "blue"

end ParticpantsAgg

end Participants
end PocArchitecture
