/-
The participant read side: `ParticipantStateEvtHandler` over
`MongoDbReadsideParticipantRepo`.

A created event inserts the participant, a position event assigns to one element of an
account array.  The write side picks the account by type and currency, and so does
replay; the query of the read side asks for the currency alone, so the positional
operator takes the first account of the currency, whatever its type.  The service counts
an update that assigns what was there before as no modification, and the handler reports
it as a failure.  `Tracked` says when neither happens.
-/
import PocArchitecture.Lib.Collection
import PocArchitecture.Lib.Machine
import PocArchitecture.Participants.FailureFree

namespace PocArchitecture
namespace Participants

open PublicMessages Infrastructure
open Domain (Loaded PublishOutcome Settled)
open Domain.BaseEventSourcingAggregate
open Collection (findKey)

/-- The messages of `ParticipantsTopics.StateEvents`. -/
def Message.isStateEvent : Message → Bool
  | stateEvt _ => true
  | _ => false

def stateEvents (msgs : List Message) : List Message := msgs.filter (·.isStateEvent)

@[simp] theorem stateEvents_append (msgs more : List Message) :
    stateEvents (msgs ++ more) = stateEvents msgs ++ stateEvents more :=
  List.filter_append _ _

/-- An account as far as the two sides are compared. -/
def ParticipantAccountState.shown (a : ParticipantAccountState) :
    ParticipantAccountTypes × CurrencyTypes × String × List ParticipantLimitState :=
  (a.type, a.currency, a.position, a.limits)

namespace MongoDbReadsideParticipantRepo

def insert (c : Collection ParticipantState) (participant : ParticipantState) :
    Collection ParticipantState × Bool :=
  let result := c.insertOne participant
  (result.1, result.2.insertedCount == 1)

/-- `{ 'accounts.currency': currency }` on one element of the array. -/
def hasCurrency (currency : CurrencyTypes) (account : ParticipantAccountState) : Bool :=
  account.currency == currency

/-- `{ $set: { 'accounts.$.position': position } }` -/
def setPositional (doc : ParticipantState) (currency : CurrencyTypes) (position : String) :
    ParticipantState :=
  { doc with
    accounts := FirstMatch.updateFirst (hasCurrency currency) (.withPosition position)
      doc.accounts }

def updatePosition (c : Collection ParticipantState) (participantId : String)
    (currency : CurrencyTypes) (position : String) : Collection ParticipantState × Bool :=
  let result := c.updateOne
    (fun doc => doc.id == participantId && doc.accounts.any (hasCurrency currency))
    fun doc => setPositional doc currency position
  (result.1, result.2.nModified == 1 && result.2.ok == 1)

end MongoDbReadsideParticipantRepo

namespace ParticipantStateEvtHandler

open MongoDbReadsideParticipantRepo

def handleParticipantCreatedStateEvt (c : Collection ParticipantState)
    (participant : ParticipantState) : Collection ParticipantState × Bool :=
  insert c
    { id := participant.id
      name := participant.name
      accounts := participant.accounts
      endpoints := participant.endpoints
      partition := participant.partition }

def handleParticipantPositionChangedStateEvt (c : Collection ParticipantState)
    (participant : ParticipantPositionChangedStateEvtPayload) : Collection ParticipantState × Bool :=
  updatePosition c participant.id participant.currency participant.currentPosition

/-- `_messageHandler`: the collection afterwards, and whether the event was handled.  A
refused update is thrown, caught and logged. -/
def messageHandler (c : Collection ParticipantState) :
    Message → Collection ParticipantState × Bool
  | .stateEvt (.participantCreatedStateEvt participant) =>
    handleParticipantCreatedStateEvt c participant
  | .stateEvt (.participantPositionChangedStateEvt participant) =>
    handleParticipantPositionChangedStateEvt c participant
  -- skipped as unknown
  | _ => (c, true)

end ParticipantStateEvtHandler

/-- The documents, and what the handler reported for each event so far. -/
structure ReadSide where
  participants : Collection ParticipantState
  reports : List Bool

namespace ReadSide

def start : ReadSide := { participants := [], reports := [] }

def receive (r : ReadSide) (m : Message) : ReadSide :=
  let handled := ParticipantStateEvtHandler.messageHandler r.participants m
  { participants := handled.1, reports := r.reports ++ [handled.2] }

/-- The read side after the state events among these messages. -/
def follow (msgs : List Message) : ReadSide := Machine.run receive start (stateEvents msgs)

theorem follow_append (msgs more : List Message) :
    follow (msgs ++ more) = Machine.run receive (follow msgs) (stateEvents more) := by
  rw [follow, stateEvents_append, Machine.run_append]
  rfl

def find (r : ReadSide) (id : String) : Option ParticipantState :=
  findKey ParticipantState.id r.participants id

end ReadSide

namespace ParticipantState

/-- Every account has the same type, currency, position and limits. -/
def Shows (doc s : ParticipantState) : Prop :=
  doc.accounts.map (·.shown) = s.accounts.map (·.shown)

end ParticipantState

/-! ## The account the positional operator takes -/

section Positional

open MongoDbReadsideParticipantRepo

variable {s : ParticipantState} {currency : CurrencyTypes} {account : ParticipantAccountState}
  {position : String}

theorem hasCurrency_of_isAccount (a : ParticipantAccountState)
    (h : isAccount .position currency a = true) : hasCurrency currency a = true := by
  rw [isAccount, Bool.and_eq_true] at h
  exact h.2

theorem isAccount_of_first (hfirst : s.accounts.find? (hasCurrency currency) = some account) :
    isAccount .position currency account = decide (account.type = .position) := by
  have hcurrency : hasCurrency currency account = true := List.find?_some hfirst
  rw [hasCurrency] at hcurrency
  rw [isAccount, hcurrency, Bool.and_true, beq_eq_decide]

/-- A position account comes no later than the first account of its currency. -/
theorem exists_first (hacc : s.getAccount .position currency = some account) :
    ∃ first, s.accounts.find? (hasCurrency currency) = some first := by
  rw [← Option.isSome_iff_exists, List.find?_isSome]
  refine ⟨account, List.mem_of_find?_eq_some hacc, ?_⟩
  exact hasCurrency_of_isAccount account (List.find?_some hacc)

theorem getAccount_of_first (hfirst : s.accounts.find? (hasCurrency currency) = some account)
    (htype : account.type = .position) : s.getAccount .position currency = some account := by
  have hown : isAccount .position currency account = true := by
    rw [isAccount_of_first hfirst, htype]
    rfl
  rw [ParticipantState.getAccount]
  generalize s.accounts = accounts at hfirst
  induction accounts with
  | nil => cases hfirst
  | cons a accounts ih =>
    by_cases ha : hasCurrency currency a = true
    · rw [List.find?_cons_of_pos ha] at hfirst
      obtain rfl := Option.some.inj hfirst
      exact List.find?_cons_of_pos hown
    · rw [List.find?_cons_of_neg ha] at hfirst
      rw [List.find?_cons_of_neg fun h => ha (hasCurrency_of_isAccount a h)]
      exact ih hfirst

theorem setPositional_eq_self (hfirst : s.accounts.find? (hasCurrency currency) = some account) :
    setPositional s currency position = s ↔ position = account.position := by
  have hlist := FirstMatch.updateFirst_eq_self_iff (f := .withPosition position) hfirst
  have hdoc : setPositional s currency position = s ↔
      FirstMatch.updateFirst (hasCurrency currency) (.withPosition position) s.accounts =
        s.accounts :=
    ⟨fun h => congrArg ParticipantState.accounts h,
      fun h => congrArg (fun accounts => { s with accounts := accounts }) h⟩
  rw [hdoc, hlist]
  constructor
  · intro h
    exact congrArg ParticipantAccountState.position h
  · intro h
    rw [ParticipantAccountState.withPosition, h]

/-- Where the first account of the currency is the position account, both sides assign to
the same one. -/
theorem setPositional_eq_setPosition
    (hfirst : s.accounts.find? (hasCurrency currency) = some account)
    (htype : account.type = .position) (position : String) :
    setPositional s currency position = s.setPosition currency position := by
  have hown : isAccount .position currency account = true := by
    rw [isAccount_of_first hfirst, htype]
    rfl
  exact congrArg (fun accounts => { s with accounts := accounts })
    (FirstMatch.updateFirst_of_narrower _ hasCurrency_of_isAccount hfirst hown)

theorem shown_find? (accounts : List ParticipantAccountState) (currency : CurrencyTypes) :
    (accounts.map (·.shown)).find? (fun a => a.2.1 == currency) =
      (accounts.find? (hasCurrency currency)).map (·.shown) := by
  rw [List.find?_map]
  rfl

/-- Where it is another account, the two sides part as soon as the document changes. -/
theorem not_shows_of_other {s' : ParticipantState}
    (hfirst : s.accounts.find? (hasCurrency currency) = some account)
    (htype : account.type ≠ .position) (hto : s.MovesTo currency s')
    (hchanged : setPositional s currency position ≠ s) :
    ¬ (setPositional s currency position).Shows s' := by
  intro hshows
  have hother : isAccount .position currency account = false := by
    rw [isAccount_of_first hfirst, decide_eq_false htype]
  have hdoc : (setPositional s currency position).accounts.find? (hasCurrency currency) =
      some (account.withPosition position) := by
    have hfind := FirstMatch.find?_updateFirst (p := hasCurrency currency)
      (f := .withPosition position) (fun _ ha => ha) s.accounts
    rw [hfirst] at hfind
    exact hfind
  have hstored : s'.accounts.find? (hasCurrency currency) = some account := by
    rcases hto with rfl | ⟨p, rfl⟩
    · exact hfirst
    · exact FirstMatch.find?_updateFirst_of_narrower _ hasCurrency_of_isAccount hfirst hother
  have hsame : some (account.withPosition position).shown = some account.shown := by
    have h := congrArg (List.find? fun a => a.2.1 == currency) hshows
    rw [shown_find?, shown_find?, hdoc, hstored] at h
    exact h
  have hposition : position = account.position :=
    congrArg (fun a => a.2.2.1) (Option.some.inj hsame)
  exact hchanged ((setPositional_eq_self hfirst).mpr hposition)

end Positional

namespace ParticpantsAgg

open MongoDbReadsideParticipantRepo

variable {B : BigNumber} {w w' : World} {cmd : Command} {r : ReadSide}

/-! ## Two copies of one participant -/

/-- The documents agree with the stored participants, and every event so far was handled. -/
structure Agrees (r : ReadSide) (w : World) : Prop where
  shows : ∀ id, Option.Rel ParticipantState.Shows (r.find id) (stored w id)
  reports : ∀ report ∈ r.reports, report = true

/-- The documents are the stored participants. -/
structure InStep (r : ReadSide) (w : World) : Prop where
  nodup : (r.participants.map ParticipantState.id).Nodup
  same : ∀ id, r.find id = stored w id
  reports : ∀ report ∈ r.reports, report = true

theorem inStep_start (partitioner : String → Nat) : InStep ReadSide.start (start partitioner) where
  nodup := List.nodup_nil
  same _ := rfl
  reports := by
    intro report hreport
    cases hreport

theorem InStep.agrees (h : InStep r w) : Agrees r w where
  shows id := by
    rw [h.same id]
    cases stored w id with
    | none => exact .none
    | some s => exact .some rfl
  reports := h.reports

theorem InStep.still (h : InStep r w) (hsame : ∀ id, stored w' id = stored w id) :
    InStep r w' where
  nodup := h.nodup
  same id := (h.same id).trans (hsame id).symm
  reports := h.reports

theorem reports_append {reports : List Bool} {b : Bool} :
    (∀ report ∈ reports ++ [b], report = true) ↔ (∀ report ∈ reports, report = true) ∧ b = true := by
  simp only [List.mem_append, List.mem_singleton]
  constructor
  · intro h
    exact ⟨fun report hr => h report (Or.inl hr), h b (Or.inr rfl)⟩
  · rintro ⟨h, hb⟩ report (hr | rfl)
    · exact h report hr
    · exact hb

/-- A created event inserts the participant as it was created. -/
theorem InStep.created (h : InStep r w) {participant : ParticipantState}
    (hnew : stored w participant.id = none) (hself : stored w' participant.id = some participant)
    (hother : ∀ id, id ≠ participant.id → stored w' id = stored w id) :
    InStep (r.receive (.stateEvt (.participantCreatedStateEvt participant))) w' := by
  have hfind : r.find participant.id = none := (h.same participant.id).trans hnew
  refine { nodup := ?_, same := fun id => ?_, reports := reports_append.mpr ⟨h.reports, rfl⟩ }
  · exact Collection.nodup_insertOne h.nodup hfind
  · by_cases hid : id = participant.id
    · subst hid
      rw [hself]
      exact Collection.findKey_insertOne_self hfind
    · rw [hother id hid, ← h.same id]
      exact Collection.findKey_insertOne_ne hid

section Position

variable {root root' : ParticipantState} {currency : CurrencyTypes} {position : String}

/-- What a position event does to the read side. -/
theorem InStep.receive_position (position : String) (h : InStep r w) (hroot : stored w root.id = some root)
    (hacc : root.hasAccount .position currency = true) :
    (r.receive (positionChanged root currency position)).find root.id =
        some (setPositional root currency position) ∧
      (∀ id, id ≠ root.id → (r.receive (positionChanged root currency position)).find id =
        r.find id) ∧
      ((r.receive (positionChanged root currency position)).participants.map
        ParticipantState.id).Nodup ∧
      ((∀ report ∈ (r.receive (positionChanged root currency position)).reports, report = true) ↔
        setPositional root currency position ≠ root) := by
  have hquery : ∀ doc : ParticipantState,
      (doc.id == root.id && doc.accounts.any (hasCurrency currency)) = true → doc.id = root.id := by
    intro doc hdoc
    rw [Bool.and_eq_true] at hdoc
    exact beq_iff_eq.mp hdoc.1
  have hkey : ∀ doc : ParticipantState,
      (doc.id == root.id && doc.accounts.any (hasCurrency currency)) = true →
      (setPositional doc currency position).id = doc.id := fun _ _ => rfl
  have hfind : findKey ParticipantState.id r.participants root.id = some root :=
    (h.same root.id).trans hroot
  have hmatches : (root.id == root.id && root.accounts.any (hasCurrency currency)) = true := by
    obtain ⟨account, hget⟩ := Option.isSome_iff_exists.mp hacc
    rw [beq_self_eq_true, Bool.true_and, List.any_eq_true]
    exact ⟨account, List.mem_of_find?_eq_some hget,
      hasCurrency_of_isAccount account (List.find?_some hget)⟩
  refine ⟨?_, fun id hid => Collection.findKey_updateOne_ne hquery hkey hid, ?_, ?_⟩
  · refine (Collection.findKey_updateOne_self hquery hkey).trans ?_
    rw [hfind, Option.map_some, if_pos hmatches]
  · exact (Collection.keys_updateOne hkey).symm ▸ h.nodup
  · refine reports_append.trans ((and_iff_right h.reports).trans ?_)
    refine (Collection.updateOne_modifies h.nodup hquery).trans
      ⟨?_, fun hne => ⟨root, hfind, hmatches, hne⟩⟩
    rintro ⟨doc, hdoc, -, hne⟩
    rw [hfind] at hdoc
    obtain rfl := Option.some.inj hdoc
    exact hne

/-- After a position event the two sides agree exactly when the document is the entity and
has changed. -/
theorem InStep.moved (position : String) (h : InStep r w) (hroot : stored w root.id = some root)
    (hself : stored w' root.id = some root')
    (hother : ∀ id, id ≠ root.id → stored w' id = stored w id)
    (hacc : root.hasAccount .position currency = true) :
    (Agrees (r.receive (positionChanged root currency position)) w' ↔
      (setPositional root currency position).Shows root' ∧
        setPositional root currency position ≠ root) ∧
    (setPositional root currency position = root' → root' ≠ root →
      InStep (r.receive (positionChanged root currency position)) w') := by
  obtain ⟨hfind, hne, hnodup, hreports⟩ :=
    h.receive_position position hroot hacc
  refine ⟨⟨fun hagrees => ⟨?_, hreports.mp hagrees.reports⟩, ?_⟩, fun hdoc hchanged => ?_⟩
  · have hrel := hagrees.shows root.id
    rw [hfind, hself] at hrel
    cases hrel with
    | some hshows => exact hshows
  · rintro ⟨hshows, hchanged⟩
    refine { shows := fun id => ?_, reports := hreports.mpr hchanged }
    by_cases hid : id = root.id
    · subst hid
      rw [hfind, hself]
      exact .some hshows
    · rw [hne id hid, hother id hid]
      exact h.agrees.shows id
  · refine { nodup := hnodup, same := fun id => ?_, reports := ?_ }
    · by_cases hid : id = root.id
      · subst hid
        rw [hfind, hself, hdoc]
      · rw [hne id hid, hother id hid, h.same id]
    · rw [hreports, hdoc]
      exact hchanged

end Position

/-! ## Which movements the read side follows -/

/-- The text a movement leaves as the position, if it leaves one. -/
def nextPosition (B : BigNumber) (cmd : Command) (position : String) : Option String :=
  match cmd with
  | .reservePayerFundsCmd payload =>
    some (B.toString (B.plus (B.ofString position) (B.ofString payload.amount)))
  | .commitPayeeFundsCmd payload =>
    let result := B.minus (B.ofString position) (B.ofString payload.amount)
    if B.isNaN result then none else some (B.toString result)
  | _ => none

theorem Moves.nextPosition_eq {R : StateRepo ParticipantState} {root root' : ParticipantState}
    (h : Moves R B w cmd root root') {terms : TransferTerms} (hterms : cmd.terms = some terms) :
    ∃ account, root.getAccount .position terms.currency = some account ∧
      root' = match nextPosition B cmd account.position with
        | some position => root.setPosition terms.currency position
        | none => root := by
  cases cmd with
  | createParticipantCmd participant => exact h.elim
  | snapshotParticipantStateCmd participantId => exact h.elim
  | reservePayerFundsCmd payload =>
    obtain rfl := Option.some.inj hterms
    obtain ⟨account, limit, hacc, -, -, -, -, hroot'⟩ := ParticipantState.reserveFunds_ok h.2.2
    exact ⟨account, hacc, hroot'⟩
  | commitPayeeFundsCmd payload =>
    obtain rfl := Option.some.inj hterms
    obtain ⟨account, hacc, hroot'⟩ := ParticipantState.commitFunds_ok h.2.2
    refine ⟨account, hacc, ?_⟩
    rw [nextPosition]
    by_cases hnan : B.isNaN (B.minus (B.ofString account.position) (B.ofString payload.amount)) = true
    · rw [if_pos hnan] at hroot' ⊢
      exact hroot'
    · rw [if_neg hnan] at hroot' ⊢
      exact hroot'

/-- If the checks let the command move a position, then the first account of the currency is
the POSITION account, and the movement gives it another text. -/
def Tracked (B : BigNumber) (w : World) (cmd : Command) : Prop :=
  Admits redisParticipantStateRepo B w cmd →
    ∃ root terms account position, stored w cmd.rootId = some root ∧ cmd.terms = some terms ∧
      root.accounts.find? (hasCurrency terms.currency) = some account ∧
      account.type = .position ∧ nextPosition B cmd account.position = some position ∧
      position ≠ account.position

theorem tracked_iff {root : ParticipantState} {terms : TransferTerms}
    {first : ParticipantAccountState} (hadmits : Admits redisParticipantStateRepo B w cmd)
    (hroot : stored w cmd.rootId = some root) (hterms : cmd.terms = some terms)
    (hfirst : root.accounts.find? (hasCurrency terms.currency) = some first) :
    Tracked B w cmd ↔ first.type = .position ∧
      ∃ position, nextPosition B cmd first.position = some position ∧
        position ≠ first.position := by
  constructor
  · intro htracked
    obtain ⟨root₁, terms₁, first₁, position, hroot₁, hterms₁, hfirst₁, htype, hnext, hne⟩ :=
      htracked hadmits
    rw [hroot] at hroot₁
    rw [hterms] at hterms₁
    obtain rfl := Option.some.inj hroot₁
    obtain rfl := Option.some.inj hterms₁
    rw [hfirst] at hfirst₁
    obtain rfl := Option.some.inj hfirst₁
    exact ⟨htype, position, hnext, hne⟩
  · rintro ⟨htype, position, hnext, hne⟩ -
    exact ⟨root, terms, first, position, hroot, hterms, hfirst, htype, hnext, hne⟩

/-- The announced position is the text the movement left, or the one it found. -/
theorem announced_position {root root' : ParticipantState} {currency : CurrencyTypes}
    {account : ParticipantAccountState} {next : Option String} {position : String}
    (hacc : root.getAccount .position currency = some account)
    (hroot' : root' = match next with
      | some p => root.setPosition currency p
      | none => root)
    (hposition : root'.getCurrentPosition currency = .ok position) :
    position = next.getD account.position := by
  obtain ⟨account', hacc', rfl⟩ := ParticipantState.getCurrentPosition_ok hposition
  cases next with
  | none =>
    subst hroot'
    rw [hacc] at hacc'
    obtain rfl := Option.some.inj hacc'
    rfl
  | some p =>
    subst hroot'
    rw [ParticipantState.getAccount_setPosition_self, hacc] at hacc'
    obtain rfl := Option.some.inj hacc'
    rfl

/-- One movement: the two sides agree afterwards exactly when the movement is tracked. -/
theorem InStep.move (h : InStep r w) {root root' : ParticipantState} {terms : TransferTerms}
    {position : String} (hmoves : Moves redisParticipantStateRepo B w cmd root root')
    (hterms : cmd.terms = some terms)
    (hposition : root'.getCurrentPosition terms.currency = .ok position)
    (hkeyed : root.id = cmd.rootId) (hroot : stored w cmd.rootId = some root)
    (hself : stored w' cmd.rootId = some root')
    (hother : ∀ id, id ≠ cmd.rootId → stored w' id = stored w id) :
    (Agrees (r.receive (positionChanged root' terms.currency position)) w' ↔ Tracked B w cmd) ∧
      (Tracked B w cmd →
        InStep (r.receive (positionChanged root' terms.currency position)) w') := by
  obtain ⟨account, hacc, hroot'⟩ := hmoves.nextPosition_eq hterms
  have hadmits : Admits redisParticipantStateRepo B w cmd := admits_iff.mpr ⟨root, root', hmoves⟩
  have hto : root.MovesTo terms.currency root' := by
    obtain ⟨terms', hterms', hto⟩ := hmoves.movesTo
    rw [hterms] at hterms'
    obtain rfl := Option.some.inj hterms'
    exact hto
  have hevent : positionChanged root' terms.currency position =
      positionChanged root terms.currency position := by
    rw [positionChanged, positionChanged, hto.id_eq, hto.partition_eq]
  have hhas : root.hasAccount .position terms.currency = true := by
    rw [ParticipantState.hasAccount, hacc]
    rfl
  obtain ⟨first, hfirst⟩ := exists_first hacc
  have htracked := tracked_iff hadmits hroot hterms hfirst
  have hpos := announced_position hacc hroot' hposition
  rw [← hkeyed] at hroot hself hother
  obtain ⟨hagrees, hinStep⟩ := h.moved position hroot hself hother hhas
  have hchanged : setPositional root terms.currency position ≠ root ↔
      position ≠ first.position := not_congr (setPositional_eq_self hfirst)
  rw [hevent, hagrees, htracked]
  by_cases htype : first.type = .position
  · -- both sides assign to this account
    have heq : account = first := by
      rw [getAccount_of_first hfirst htype] at hacc
      exact (Option.some.inj hacc).symm
    rw [heq] at hroot' hpos
    cases hnext : nextPosition B cmd first.position with
    | none =>
      rw [hnext] at hpos
      have hsame : ¬ setPositional root terms.currency position ≠ root := by
        rw [hchanged]
        exact fun hne => hne hpos
      refine ⟨⟨fun hs => absurd hs.2 hsame, ?_⟩, ?_⟩ <;> rintro ⟨-, p, hp, -⟩ <;> cases hp
    | some p =>
      rw [hnext] at hpos hroot'
      obtain rfl : position = p := hpos
      have hdoc : setPositional root terms.currency position = root' :=
        (setPositional_eq_setPosition hfirst htype position).trans hroot'.symm
      rw [hdoc] at hchanged hinStep ⊢
      constructor
      · rw [hchanged]
        refine ⟨fun hs => ⟨htype, position, rfl, hs.2⟩, ?_⟩
        rintro ⟨-, p, hp, hne⟩
        exact ⟨rfl, Option.some.inj hp ▸ hne⟩
      · rintro ⟨-, p, hp, hne⟩
        obtain rfl := Option.some.inj hp
        exact hinStep rfl (hchanged.mpr hne)
  · -- the read side assigns to an account the write side does not touch
    refine ⟨⟨fun hs => ?_, fun ht => absurd ht.1 htype⟩, fun ht => absurd ht.1 htype⟩
    exact absurd hs.1 (not_shows_of_other hfirst htype hto hs.2)

/-! ## One command -/

theorem InStep.process (hw : WellKept redisParticipantStateRepo w) (hall : AllStored w)
    (h : InStep r w) (B : BigNumber) (cmd : Command) :
    (Agrees (Machine.run ReadSide.receive r (stateEvents (process B w cmd).published))
        (process B w cmd).repo ↔ Tracked B w cmd) ∧
      (Tracked B w cmd →
        InStep (Machine.run ReadSide.receive r (stateEvents (process B w cmd).published))
          (process B w cmd).repo) := by
  have hself := stored_process_root (hw.keyed cmd) hall B
  have hsame := stored_process_same (hw.keyed cmd) hall B
  have hother : ∀ id, id ≠ cmd.rootId →
      stored (ParticpantsAgg.process B w cmd).repo id = stored w id :=
    fun _ hne => stored_process_ne (hw.keyed cmd) hne
  have hpub : (ParticpantsAgg.process B w cmd).published =
      (verdict redisParticipantStateRepo B w cmd).published Faults.none :=
    processCommand_published redis_lawful (hw.keyed cmd)
  -- a command that moves nothing has nothing to track
  have hidle : (∀ root root' events stateEvent,
        verdict redisParticipantStateRepo B w cmd ≠ .move root root' events stateEvent) →
      ∀ r' : ReadSide, InStep r' (ParticpantsAgg.process B w cmd).repo →
      (Agrees r' (ParticpantsAgg.process B w cmd).repo ↔ Tracked B w cmd) ∧
        (Tracked B w cmd → InStep r' (ParticpantsAgg.process B w cmd).repo) := by
    intro hv r' hr'
    have htracked : Tracked B w cmd := fun hadmits => absurd hadmits (not_admits_of_verdict hv)
    exact ⟨iff_of_true hr'.agrees htracked, fun _ => hr'⟩
  rw [hpub]
  cases hv : verdict redisParticipantStateRepo B w cmd with
  | reject =>
    rw [hv] at hsame
    refine hidle (by simp [hv]) _ (h.still (hsame fun s hs => ?_))
    cases hs
  | refuse root events =>
    obtain ⟨m, rfl, hm⟩ := verdict_refuse hv
    rw [hv] at hsame
    have hquiet : stateEvents (Verdict.published Faults.none (.refuse root [m])) = [] := by
      cases m <;> first | rfl | cases hm
    rw [hquiet]
    refine hidle (by simp [hv]) _ (h.still (hsame fun s hs => ?_))
    cases hs
  | snapshot root =>
    rw [hv] at hsame
    refine hidle (by simp [hv]) _ (h.still (hsame fun s hs => ?_))
    exact hall.loaded (by rw [hv]; exact hs)
  | create participant =>
    obtain ⟨rfl, hunknown⟩ := verdict_create hv
    rw [hv] at hself
    refine hidle (by simp [hv]) _ (h.created ?_ hself hother)
    exact view_none_of_lookup (by rw [hunknown]; rfl)
  | move root root' events stateEvent =>
    obtain ⟨hmoves, terms, position, m, hterms, hposition, -, rfl, hm, rfl⟩ := verdict_move hv
    have hroot : stored w cmd.rootId = some root := hall.loaded (by rw [hv]; rfl)
    rw [hv] at hself
    have hevents : stateEvents (Verdict.published Faults.none
        (.move root root' [m] (positionChanged root' terms.currency position))) =
        [positionChanged root' terms.currency position] := by
      cases m <;> first | rfl | cases hm
    rw [hevents]
    exact h.move hmoves hterms hposition (hw.view_id _ _ hroot) hroot hself hother

/-! ## Every history -/

/-- The aggregate, and what it has published so far. -/
structure History where
  world : World
  published : List Message

namespace History

def start (partitioner : String → Nat) : History :=
  { world := ParticpantsAgg.start partitioner, published := [] }

/-- One more command, without failures. -/
def next (B : BigNumber) (h : History) (cmd : Command) : History :=
  let settled := ParticpantsAgg.process B h.world cmd
  { world := settled.repo, published := h.published ++ settled.published }

end History

/-- The history of a list of commands. -/
def history (B : BigNumber) (partitioner : String → Nat) (cmds : List Command) : History :=
  Machine.run (History.next B) (History.start partitioner) cmds

@[simp] theorem history_append_one (B : BigNumber) (partitioner : String → Nat)
    (cmds : List Command) (cmd : Command) :
    history B partitioner (cmds ++ [cmd]) = (history B partitioner cmds).next B cmd :=
  Machine.run_append _ _ _ _

theorem history_invariant (B : BigNumber) (partitioner : String → Nat) (cmds : List Command) :
    WellKept redisParticipantStateRepo (history B partitioner cmds).world ∧
      AllStored (history B partitioner cmds).world := by
  refine Machine.run_always (I := fun h : History =>
    WellKept redisParticipantStateRepo h.world ∧ AllStored h.world) ?_ ?_ cmds
  · rintro h cmd ⟨hw, hall⟩
    exact ⟨hw.processCommand redis_lawful B Faults.none cmd, hall.process hw B cmd⟩
  · exact ⟨wellKept_start redis_lawful partitioner, allStored_start partitioner⟩

/-- The read side of a history. -/
def readSide (h : History) : ReadSide := ReadSide.follow h.published

theorem inStep_next {h : History} (hw : WellKept redisParticipantStateRepo h.world)
    (hall : AllStored h.world) (hstep : InStep (readSide h) h.world) (B : BigNumber)
    (cmd : Command) :
    (Agrees (readSide (h.next B cmd)) (h.next B cmd).world ↔ Tracked B h.world cmd) ∧
      (Tracked B h.world cmd → InStep (readSide (h.next B cmd)) (h.next B cmd).world) := by
  rw [readSide, History.next, ReadSide.follow_append]
  exact hstep.process hw hall B cmd

theorem inStep_history (B : BigNumber) (partitioner : String → Nat) {cmds : List Command}
    (h : Machine.Along (History.next B) (fun h cmd => Tracked B h.world cmd)
      (History.start partitioner) cmds) :
    InStep (readSide (history B partitioner cmds)) (history B partitioner cmds).world := by
  induction cmds using List.reverseRecOn with
  | nil => exact inStep_start partitioner
  | append_singleton cmds cmd ih =>
    rw [Machine.along_append_one] at h
    obtain ⟨hw, hall⟩ := history_invariant B partitioner cmds
    rw [history_append_one]
    exact (inStep_next hw hall (ih h.1) B cmd).2 h.2

/-- The read side agrees with the write side after every command of a history exactly when
every movement of it was tracked. -/
theorem agrees_throughout_iff (B : BigNumber) (partitioner : String → Nat)
    (cmds : List Command) :
    (∀ done, done <+: cmds →
      Agrees (readSide (history B partitioner done)) (history B partitioner done).world) ↔
      Machine.Along (History.next B) (fun h cmd => Tracked B h.world cmd)
        (History.start partitioner) cmds := by
  induction cmds using List.reverseRecOn with
  | nil =>
    refine iff_of_true (fun done hdone => ?_) trivial
    rw [List.prefix_nil.mp hdone]
    exact (inStep_start partitioner).agrees
  | append_singleton cmds cmd ih =>
    rw [Machine.along_append_one, ← ih]
    obtain ⟨hw, hall⟩ := history_invariant B partitioner cmds
    constructor
    · intro h
      have hbefore : ∀ done, done <+: cmds →
          Agrees (readSide (history B partitioner done)) (history B partitioner done).world :=
        fun done hdone => h done (hdone.trans (List.prefix_append cmds [cmd]))
      have hstep := inStep_next hw hall (inStep_history B partitioner (ih.mp hbefore)) B cmd
      have hlast := h (cmds ++ [cmd]) (List.prefix_refl _)
      rw [history_append_one] at hlast
      exact ⟨hbefore, hstep.1.mp hlast⟩
    · rintro ⟨hbefore, htracked⟩ done hdone
      rcases List.prefix_concat_iff.mp hdone with rfl | hdone
      · have hstep := inStep_next hw hall (inStep_history B partitioner (ih.mp hbefore)) B cmd
        rw [history_append_one]
        exact hstep.1.mpr htracked
      · exact hbefore done hdone

/-- A participant whose settlement account comes before its position account. -/
def settlementFirst (id : String) : ParticipantState :=
  { sampleParticipant id with
    accounts :=
      { type := .settlement, currency := "USD", position := "0", initialPosition := "0",
        limits := [] } :: (sampleParticipant id).accounts }

/-- One reserve later the ten dollars stand on the settlement account of the document. -/
theorem settlement_account_moved :
    let h := history wholeNumbers (fun _ => 0)
      [.createParticipantCmd (settlementFirst "blue"),
        .createParticipantCmd (sampleParticipant "green"), .reservePayerFundsCmd sampleTerms]
    (readSide h).reports = [true, true, true] ∧
      ((stored h.world "blue").map fun s => s.accounts.map (·.position)) = some ["0", "10"] ∧
      (((readSide h).find "blue").map fun s => s.accounts.map (·.position)) = some ["10", "0"] ∧
      ¬ Agrees (readSide h) h.world := by
  intro h
  have hstored : ((stored h.world "blue").map fun s => s.accounts.map (·.position)) =
      some ["0", "10"] := by decide +kernel
  have hfound : (((readSide h).find "blue").map fun s => s.accounts.map (·.position)) =
      some ["10", "0"] := by decide +kernel
  refine ⟨by decide +kernel, hstored, hfound, fun hagrees => ?_⟩
  have hrel := hagrees.shows "blue"
  cases hdoc : (readSide h).find "blue" with
  | none =>
    rw [hdoc] at hfound
    cases hfound
  | some doc =>
    cases hs : stored h.world "blue" with
    | none =>
      rw [hs] at hstored
      cases hstored
    | some s =>
      rw [hdoc] at hfound hrel
      rw [hs] at hstored hrel
      cases hrel with
      | some hshows =>
        have hpositions := congrArg (List.map fun a => a.2.2.1) hshows
        rw [List.map_map, List.map_map] at hpositions
        have hleft : doc.accounts.map (·.position) = ["10", "0"] := Option.some.inj hfound
        have hright : s.accounts.map (·.position) = ["0", "10"] := Option.some.inj hstored
        have habsurd : (["10", "0"] : List String) = ["0", "10"] :=
          hleft.symm.trans (Eq.trans hpositions hright)
        exact absurd habsurd (by decide)

end ParticpantsAgg

end Participants
end PocArchitecture
