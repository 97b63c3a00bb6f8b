/-
What one command can do.

`verdict` is the outcome of a command as a function of what the loads return: it is
rejected, refused with some events, or accepted with a new root entity.  The two results
below say everything else there is to know about `processCommand`: `handle_follows`
gives the events, the result and the states a handler leaves behind, and
`processCommand_view_root` what publishing and storing do to the states.  The invariants
of the later modules are derived from these and do not unfold the handlers again.
-/
import PocArchitecture.Participants.Aggregate

namespace PocArchitecture
namespace Participants

open PublicMessages Infrastructure
open Domain (Loaded PublishOutcome Settled)
open Domain.BaseEventSourcingAggregate

/-- The participant a command is addressed to. -/
def Command.rootId : Command → String
  | createParticipantCmd participant => participant.id
  | reservePayerFundsCmd payload => payload.payerId
  | commitPayeeFundsCmd payload => payload.payeeId
  | snapshotParticipantStateCmd participantId => participantId

namespace ParticpantsAgg

inductive Verdict where
  | reject
  | refuse (root : Option ParticipantState) (events : List Message)
  | create (participant : ParticipantState)
  | move (root root' : ParticipantState) (events : List Message) (stateEvent : Message)
  | snapshot (root : ParticipantState)

def Decision.verdict (root : ParticipantState) : Decision → Verdict
  | refuse events => .refuse (some root) events
  | accept root' events stateEvent => .move root root' events stateEvent

namespace Verdict

def events : Verdict → List Message
  | reject | snapshot _ => []
  | refuse _ events | move _ _ events _ => events
  | create participant => [.participantCreatedEvt participant.id participant.name]

def result : Verdict → Option (TCommandResult Message)
  | reject => none
  | refuse _ _ => some ⟨false, none⟩
  | create participant => some ⟨true, some (.stateEvt (.participantCreatedStateEvt participant))⟩
  | move _ _ _ stateEvent => some ⟨true, some stateEvent⟩
  | snapshot root => some ⟨true, some (.participantStateSnapshotEvt root)⟩

/-- The root entity the verdict was reached on, if it was found. -/
def loaded : Verdict → Option ParticipantState
  | reject | create _ => none
  | refuse root _ => root
  | move root _ _ _ | snapshot root => some root

/-- The root entity when the handler returns. -/
def root : Verdict → Option ParticipantState
  | reject => none
  | refuse root _ => root
  | create participant => some participant
  | move _ root' _ _ => some root'
  | snapshot root => some root

end Verdict

theorem Decision.verdict_loaded (root : ParticipantState) (d : Decision) :
    (d.verdict root).loaded = some root := by
  cases d <;> rfl

def verdict (R : StateRepo ParticipantState) (B : BigNumber) (w : World) : Command → Verdict
  | .createParticipantCmd participant =>
    match lookup R applyStateEvent w participant.id with
    | .failed => .reject
    | .notFound => .create participant
    | .found root => .refuse (some root) [.duplicateParticipantDetectedEvt participant.id]
  | .reservePayerFundsCmd payload =>
    match lookup R applyStateEvent w payload.payerId with
    | .failed => .reject
    | .notFound => .refuse none [.invalidParticipantEvt payload.payerId payload.transferId none]
    | .found payer => (decideReserve B payload payer (R.view w.repo payload.payeeId)).verdict payer
  | .commitPayeeFundsCmd payload =>
    match lookup R applyStateEvent w payload.payeeId with
    | .failed => .reject
    | .notFound => .refuse none [.invalidParticipantEvt payload.payeeId payload.transferId none]
    | .found payee =>
      if payee.hasAccount .position payload.currency then
        (decideCommit B payload payee (R.view w.repo payload.payerId)).verdict payee
      else
        .refuse (some payee) [.invalidParticipantEvt payload.payeeId payload.transferId none]
  | .snapshotParticipantStateCmd participantId =>
    match lookup R applyStateEvent w participantId with
    | .failed | .notFound => .reject
    | .found root => .snapshot root

/-! ## Views through a refill -/

section Refill

variable {R : StateRepo ParticipantState} {w : World} {s : ParticipantState}

theorem refill_view_self (hR : R.Lawful ParticipantState.id) (ok due : Bool) :
    R.view (refill R ok due w s).repo s.id =
      if due && (ok || R.aliased) then some s else R.view w.repo s.id := by
  cases due with
  | false => rfl
  | true =>
    rw [Bool.true_and]
    exact hR.view_store_self ok w.repo s

theorem refill_view_ne (hR : R.Lawful ParticipantState.id) (ok due : Bool) {id : String}
    (h : id ≠ s.id) : R.view (refill R ok due w s).repo id = R.view w.repo id := by
  cases due with
  | false => rfl
  | true => exact hR.view_store_ne ok w.repo s id h

end Refill

/-! ## The end of a handler -/

/-- The cache when a handler has its root entity in hand.  `shown` is what a load of the
root shows once the refill has run on the root as it was loaded. -/
structure Ready (R : StateRepo ParticipantState) (f : Faults) (root : ParticipantState)
    (shown : Option ParticipantState) (w : World) (due : Bool) : Prop where
  done : due = false → R.view w.repo root.id = shown ∧ R.holds w.repo root.id = R.aliased
  pending : due = true → R.view w.repo root.id = none ∧
    shown = if f.refill || R.aliased then some root else none

section Conclude

variable {R : StateRepo ParticipantState} {f : Faults} {root root' : ParticipantState}
  {shown : Option ParticipantState} {w : World} {due : Bool} {events : List Message}
  {stateEvent : Message}

theorem Ready.refuse_view (hR : R.Lawful ParticipantState.id) (h : Ready R f root shown w due) :
    R.view (refill R f.refill due w root).repo root.id = shown := by
  rw [refill_view_self hR]
  cases due with
  | false => exact (h.done rfl).1
  | true =>
    obtain ⟨hview, hshown⟩ := h.pending rfl
    rw [Bool.true_and, hview, hshown]

theorem Ready.refuse_holds (hR : R.Lawful ParticipantState.id) (h : Ready R f root shown w due) :
    R.holds (refill R f.refill due w root).repo root.id = R.aliased := by
  cases due with
  | false => exact (h.done rfl).2
  | true => exact hR.holds_store_self _ _ _

theorem Ready.move_holds (hR : R.Lawful ParticipantState.id) (h : Ready R f root shown w due)
    (hid : root'.id = root.id) :
    R.holds (refill R f.refill due { w with repo := R.write w.repo root.id root' } root').repo
      root.id = R.aliased := by
  cases due with
  | false => exact (hR.holds_write _ _ _ _).trans (h.done rfl).2
  | true =>
    rw [← hid]
    exact hR.holds_store_self _ _ _

theorem Ready.move_view (hR : R.Lawful ParticipantState.id) (h : Ready R f root shown w due)
    (hid : root'.id = root.id) (hlate : due = true → R.aliased = true) :
    R.view (refill R f.refill due { w with repo := R.write w.repo root.id root' } root').repo
      root.id = if R.aliased then some root' else shown := by
  rw [← hid, refill_view_self hR, hid]
  cases due with
  | false =>
    obtain ⟨hview, hholds⟩ := h.done rfl
    rw [Bool.false_and, if_neg Bool.false_ne_true, hR.view_write_self, hholds, hview]
  | true =>
    rw [hlate rfl, Bool.or_true, Bool.true_and, if_pos rfl, if_pos rfl]

theorem move_view_ne (hR : R.Lawful ParticipantState.id) (hid : root'.id = root.id) {id : String}
    (hne : id ≠ root.id) :
    R.view (refill R f.refill due { w with repo := R.write w.repo root.id root' } root').repo id =
      R.view w.repo id := by
  rw [refill_view_ne hR _ _ (by rwa [hid]), hR.view_write_ne _ _ _ _ hne]

/-- Asking for the counterpart, and the early refill, keep the cache ready. -/
theorem Ready.counterpart (hR : R.Lawful ParticipantState.id) (h : Ready R f root shown w due)
    (counterpartId : String) :
    Ready R f root shown
      (refill R f.refill (due && !R.answersLocally w.repo counterpartId)
        { w with repo := (R.load w.repo counterpartId).1 } root)
      (due && !(due && !R.answersLocally w.repo counterpartId)) := by
  have hholds : R.holds w.repo root.id = R.aliased → (R.view w.repo root.id).isSome = true →
      R.holds (R.load w.repo counterpartId).1 root.id = R.aliased := by
    intro hh hv
    by_cases hc : root.id = counterpartId
    · rw [← hc, hR.holds_load_self, hv, Bool.and_true]
    · rw [hR.holds_load_ne _ _ _ hc, hh]
  cases due with
  | false =>
    refine { done := fun _ => ?_, pending := fun hd => Bool.noConfusion hd }
    obtain ⟨hview, hh⟩ := h.done rfl
    refine ⟨by rw [Bool.false_and, refill, if_neg Bool.false_ne_true, hR.view_load, hview], ?_⟩
    change R.holds (R.load w.repo counterpartId).1 root.id = R.aliased
    cases hs : shown with
    | some s => exact hholds hh (by rw [hview, hs]; rfl)
    | none =>
      -- nothing is shown, so nothing is held, before or after
      have ha : R.aliased = false := by
        cases hal : R.aliased with
        | false => rfl
        | true =>
          have := hR.view_of_holds w.repo root.id (by rw [hh, hal])
          rw [hview, hs] at this
          cases this
      rw [ha]
      cases hl : R.holds (R.load w.repo counterpartId).1 root.id with
      | false => rfl
      | true =>
        have := hR.aliased_of_holds _ _ hl
        rw [ha] at this
        cases this
  | true =>
    obtain ⟨hview, hshown⟩ := h.pending rfl
    cases hl : R.answersLocally w.repo counterpartId with
    | true =>
      refine { done := fun hd => Bool.noConfusion hd, pending := fun _ => ⟨?_, hshown⟩ }
      exact (hR.view_load _ _ _).trans hview
    | false =>
      refine { done := fun _ => ⟨?_, ?_⟩, pending := fun hd => Bool.noConfusion hd }
      · rw [refill_view_self hR, hR.view_load, hview, hshown]
        rfl
      · exact hR.holds_store_self _ _ _

theorem counterpart_view_ne (hR : R.Lawful ParticipantState.id) (counterpartId : String)
    (early : Bool) {id : String} (hne : id ≠ root.id) :
    R.view (refill R f.refill early { w with repo := (R.load w.repo counterpartId).1 } root).repo id =
      R.view w.repo id := by
  rw [refill_view_ne hR _ _ hne, hR.view_load]

/-- A load leaves the cache ready for the handler. -/
theorem Ready.of_load (hR : R.Lawful ParticipantState.id) {apply : Option ParticipantState →
      ParticipantStateEvt → Option ParticipantState} {id : String}
    (hroot : lookup R apply w id = .found root) (hid : root.id = id) :
    Ready R f root (if (R.view w.repo id).isSome || f.refill || R.aliased then some root else none)
      (load R apply f.offsets w id).world (load R apply f.offsets w id).refillDue := by
  have hdue : (load R apply f.offsets w id).refillDue = (R.view w.repo id).isNone := by
    rw [load_refillDue, hroot, Loaded.isFound, Bool.and_true]
  rw [hdue]
  cases hv : R.view w.repo id with
  | some s =>
    have hs : s = root := by
      rw [lookup_of_view hv] at hroot
      exact Loaded.found.inj hroot
    refine { done := fun _ => ⟨?_, ?_⟩, pending := fun hd => Bool.noConfusion hd }
    · rw [load_repo, hid, hR.view_load, hv, hs]
      rfl
    · rw [load_repo, hid, hR.holds_load_self, hv, Option.isSome_some, Bool.and_true]
  | none =>
    refine { done := fun hd => Bool.noConfusion hd, pending := fun _ => ⟨?_, ?_⟩ }
    · rw [load_repo, hid, hR.view_load, hv]
    · rw [Option.isSome_none, Bool.false_or]

end Conclude

/-! ## Decisions -/

section Decisions

variable {B : BigNumber} {payload : TransferTerms} {root root' : ParticipantState}
  {counterpart : Option ParticipantState} {events : List Message} {stateEvent : Message}

/-- An accepted reserve: what was checked, what moved, what is announced. -/
theorem decideReserve_accept
    (h : decideReserve B payload root counterpart = .accept root' events stateEvent) :
    ∃ payee position, counterpart = some payee ∧
      payee.hasAccount .position payload.currency = true ∧
      root.reserveFunds B payload.currency payload.amount = .ok root' ∧
      root'.getCurrentPosition payload.currency = .ok position ∧
      events = [.payerFundsReservedEvt
        { transferId := payload.transferId, payerId := payload.payerId,
          currency := payload.currency, currentPosition := position,
          payerEndPoints := root'.endpoints, payeeEndPoints := payee.endpoints }] ∧
      stateEvent = positionChanged root' payload.currency position := by
  cases counterpart with
  | none => cases h
  | some payee =>
    rw [decideReserve] at h
    split at h
    · rename_i hacc
      split at h
      · rename_i e _
        cases e <;> cases h
      · rename_i payer' hres
        split at h
        · rename_i e _
          cases e <;> cases h
        · rename_i position hpos
          cases h
          exact ⟨payee, position, rfl, hacc, hres, hpos, rfl, rfl⟩
    · cases h

theorem decideCommit_accept
    (h : decideCommit B payload root counterpart = .accept root' events stateEvent) :
    ∃ payer position, counterpart = some payer ∧
      payer.hasAccount .position payload.currency = true ∧
      root.commitFunds B payload.currency payload.amount = .ok root' ∧
      root'.getCurrentPosition payload.currency = .ok position ∧
      events = [.payeeFundsCommittedEvt
        { transferId := payload.transferId, payerId := payload.payerId,
          payeeId := payload.payeeId, currency := payload.currency,
          currentPosition := position, payerEndPoints := payer.endpoints,
          payeeEndPoints := root'.endpoints }] ∧
      stateEvent = positionChanged root' payload.currency position := by
  cases counterpart with
  | none => cases h
  | some payer =>
    rw [decideCommit] at h
    split at h
    · rename_i hacc
      split at h
      · rename_i e _
        cases e <;> cases h
      · rename_i payee' hcom
        split at h
        · rename_i e _
          cases e <;> cases h
        · rename_i position hpos
          cases h
          exact ⟨payer, position, rfl, hacc, hcom, hpos, rfl, rfl⟩
    · cases h

theorem decideReserve_movesTo
    (h : decideReserve B payload root counterpart = .accept root' events stateEvent) :
    root.MovesTo payload.currency root' :=
  let ⟨_, _, _, _, hres, _⟩ := decideReserve_accept h
  ParticipantState.reserveFunds_movesTo hres

theorem decideCommit_movesTo
    (h : decideCommit B payload root counterpart = .accept root' events stateEvent) :
    root.MovesTo payload.currency root' :=
  let ⟨_, _, _, _, hcom, _⟩ := decideCommit_accept h
  ParticipantState.commitFunds_movesTo hcom

end Decisions

/-! ## Movements -/

/-- The command moves a position: what the loads return, what the entity functions check,
and the entity before and after. -/
def Moves (R : StateRepo ParticipantState) (B : BigNumber) (w : World) :
    Command → ParticipantState → ParticipantState → Prop
  | .reservePayerFundsCmd payload, payer, payer' =>
    lookup R applyStateEvent w payload.payerId = .found payer ∧
      (∃ payee, R.view w.repo payload.payeeId = some payee ∧
        payee.hasAccount .position payload.currency = true) ∧
      payer.reserveFunds B payload.currency payload.amount = .ok payer'
  | .commitPayeeFundsCmd payload, payee, payee' =>
    lookup R applyStateEvent w payload.payeeId = .found payee ∧
      (∃ payer, R.view w.repo payload.payerId = some payer ∧
        payer.hasAccount .position payload.currency = true) ∧
      payee.commitFunds B payload.currency payload.amount = .ok payee'
  | _, _, _ => False

section Moves

variable {R : StateRepo ParticipantState} {B : BigNumber} {w : World} {cmd : Command}
  {root root' : ParticipantState} {events : List Message} {stateEvent : Message}

theorem Decision.verdict_move {d : Decision} {s : ParticipantState}
    (h : d.verdict s = .move root root' events stateEvent) :
    s = root ∧ d = .accept root' events stateEvent := by
  cases d with
  | refuse _ => cases h
  | accept _ _ _ =>
    cases h
    exact ⟨rfl, rfl⟩

/-- An accepted money command: the movement, and the two messages that report it. -/
theorem verdict_move (h : verdict R B w cmd = .move root root' events stateEvent) :
    Moves R B w cmd root root' ∧
      ∃ terms position m, cmd.terms = some terms ∧
        root'.getCurrentPosition terms.currency = .ok position ∧
        root.MovesTo terms.currency root' ∧
        events = [m] ∧ m.movement = some (cmd.rootId, terms.currency, position) ∧
        stateEvent = positionChanged root' terms.currency position := by
  cases cmd with
  | createParticipantCmd participant =>
    rw [verdict] at h
    split at h <;> cases h
  | reservePayerFundsCmd payload =>
    rw [verdict] at h
    split at h
    · cases h
    · cases h
    · rename_i payer hroot
      obtain ⟨rfl, hd⟩ := Decision.verdict_move h
      obtain ⟨payee, position, hc, hacc, hres, hpos, hev, hst⟩ := decideReserve_accept hd
      exact ⟨⟨hroot, ⟨payee, hc, hacc⟩, hres⟩, payload, position, _, rfl, hpos,
        decideReserve_movesTo hd, hev, rfl, hst⟩
  | commitPayeeFundsCmd payload =>
    rw [verdict] at h
    split at h
    · cases h
    · cases h
    · rename_i payee hroot
      split at h
      · obtain ⟨rfl, hd⟩ := Decision.verdict_move h
        obtain ⟨payer, position, hc, hacc, hcom, hpos, hev, hst⟩ := decideCommit_accept hd
        exact ⟨⟨hroot, ⟨payer, hc, hacc⟩, hcom⟩, payload, position, _, rfl, hpos,
          decideCommit_movesTo hd, hev, rfl, hst⟩
      · cases h
  | snapshotParticipantStateCmd participantId =>
    rw [verdict] at h
    split at h <;> cases h

/-- The announcement of an accepted money command, by the command. -/
theorem verdict_move_event (h : verdict R B w cmd = .move root root' events stateEvent) :
    (∃ terms payload, cmd = .reservePayerFundsCmd terms ∧ events = [.payerFundsReservedEvt payload] ∧
      payload.transferId = terms.transferId) ∨
    (∃ terms payload, cmd = .commitPayeeFundsCmd terms ∧ events = [.payeeFundsCommittedEvt payload] ∧
      payload.transferId = terms.transferId) := by
  cases cmd with
  | createParticipantCmd participant =>
    rw [verdict] at h
    split at h <;> cases h
  | reservePayerFundsCmd payload =>
    rw [verdict] at h
    split at h
    · cases h
    · cases h
    · obtain ⟨-, hd⟩ := Decision.verdict_move h
      obtain ⟨_, _, -, -, -, -, hev, -⟩ := decideReserve_accept hd
      exact Or.inl ⟨payload, _, rfl, hev, rfl⟩
  | commitPayeeFundsCmd payload =>
    rw [verdict] at h
    split at h
    · cases h
    · cases h
    · split at h
      · obtain ⟨-, hd⟩ := Decision.verdict_move h
        obtain ⟨_, _, -, -, -, -, hev, -⟩ := decideCommit_accept hd
        exact Or.inr ⟨payload, _, rfl, hev, rfl⟩
      · cases h
  | snapshotParticipantStateCmd participantId =>
    rw [verdict] at h
    split at h <;> cases h

/-- An accepted creation: nobody was found under the id. -/
theorem verdict_create {participant : ParticipantState}
    (h : verdict R B w cmd = .create participant) :
    cmd = .createParticipantCmd participant ∧
      lookup R applyStateEvent w participant.id = .notFound := by
  cases cmd with
  | createParticipantCmd p =>
    rw [verdict] at h
    split at h
    · cases h
    · cases h
      exact ⟨rfl, ‹_›⟩
    · cases h
  | reservePayerFundsCmd payload =>
    rw [verdict] at h
    split at h
    · cases h
    · cases h
    · rename_i payer _
      cases hd : decideReserve B payload payer (R.view w.repo payload.payeeId) <;>
        rw [hd] at h <;> cases h
  | commitPayeeFundsCmd payload =>
    rw [verdict] at h
    split at h
    · cases h
    · cases h
    · rename_i payee _
      split at h
      · cases hd : decideCommit B payload payee (R.view w.repo payload.payerId) <;>
          rw [hd] at h <;> cases h
      · cases h
  | snapshotParticipantStateCmd participantId =>
    rw [verdict] at h
    split at h <;> cases h

theorem hasAccount_of_commitFunds {s s' : ParticipantState} {currency : CurrencyTypes}
    {amount : String} (h : s.commitFunds B currency amount = .ok s') :
    s.hasAccount .position currency = true := by
  obtain ⟨account, hacc, -⟩ := ParticipantState.commitFunds_ok h
  rw [ParticipantState.hasAccount, hacc, Option.isSome_some]

/-- A movement always reaches its announcement. -/
theorem getCurrentPosition_of_movesTo {s s' : ParticipantState} {currency : CurrencyTypes}
    (h : s.MovesTo currency s') (hacc : s.hasAccount .position currency = true) :
    ∃ position, s'.getCurrentPosition currency = .ok position := by
  rw [← h.hasAccount_eq] at hacc
  obtain ⟨account, hacc⟩ := Option.isSome_iff_exists.mp hacc
  exact ⟨_, ParticipantState.getCurrentPosition_of_getAccount hacc⟩

theorem verdict_of_moves (h : Moves R B w cmd root root') :
    ∃ events stateEvent, verdict R B w cmd = .move root root' events stateEvent := by
  cases cmd with
  | createParticipantCmd participant => exact h.elim
  | snapshotParticipantStateCmd participantId => exact h.elim
  | reservePayerFundsCmd payload =>
    obtain ⟨hroot, ⟨payee, hc, hacc⟩, hres⟩ := h
    have hroot_acc : root.hasAccount .position payload.currency = true := by
      obtain ⟨account, _, ha, _⟩ := ParticipantState.reserveFunds_ok hres
      rw [ParticipantState.hasAccount, ha, Option.isSome_some]
    obtain ⟨position, hpos⟩ :=
      getCurrentPosition_of_movesTo (ParticipantState.reserveFunds_movesTo hres) hroot_acc
    simp only [verdict, hroot, hc, decideReserve, hacc, if_true, hres, hpos, Decision.verdict]
    exact ⟨_, _, rfl⟩
  | commitPayeeFundsCmd payload =>
    obtain ⟨hroot, ⟨payer, hc, hacc⟩, hcom⟩ := h
    have hroot_acc := hasAccount_of_commitFunds hcom
    obtain ⟨position, hpos⟩ :=
      getCurrentPosition_of_movesTo (ParticipantState.commitFunds_movesTo hcom) hroot_acc
    simp only [verdict, hroot, hroot_acc, hc, decideCommit, hacc, if_true, hcom, hpos,
      Decision.verdict]
    exact ⟨_, _, rfl⟩

theorem moves_unique {r r' : ParticipantState} (h : Moves R B w cmd root root')
    (hr : Moves R B w cmd r r') : r = root ∧ r' = root' := by
  obtain ⟨_, _, hv⟩ := verdict_of_moves h
  obtain ⟨_, _, hv'⟩ := verdict_of_moves hr
  rw [hv] at hv'
  cases hv'
  exact ⟨rfl, rfl⟩

theorem refuseReserve_eq (payload : ReservePayerFundsCmdPayload) (e : EntityError) :
    ∃ m, refuseReserve payload e = .refuse [m] ∧ m.isRefusal = true := by
  cases e <;> exact ⟨_, rfl, rfl⟩

theorem refuseCommit_eq (payload : CommitPayeeFundsCmdPayload) (e : EntityError) :
    ∃ m, refuseCommit payload e = .refuse [m] ∧ m.isRefusal = true := by
  cases e <;> exact ⟨_, rfl, rfl⟩

/-- A decision is a refusal with one event, or an acceptance. -/
theorem decideReserve_cases (payload : ReservePayerFundsCmdPayload) (payer : ParticipantState)
    (counterpart : Option ParticipantState) :
    (∃ m, decideReserve B payload payer counterpart = .refuse [m] ∧ m.isRefusal = true) ∨
      ∃ root' events stateEvent,
        decideReserve B payload payer counterpart = .accept root' events stateEvent := by
  cases counterpart with
  | none => exact Or.inl ⟨_, rfl, rfl⟩
  | some payee =>
    rw [decideReserve]
    split
    · split
      · exact Or.inl (refuseReserve_eq payload _)
      · split
        · exact Or.inl (refuseReserve_eq payload _)
        · exact Or.inr ⟨_, _, _, rfl⟩
    · exact Or.inl ⟨_, rfl, rfl⟩

theorem decideCommit_cases (payload : CommitPayeeFundsCmdPayload) (payee : ParticipantState)
    (counterpart : Option ParticipantState) :
    (∃ m, decideCommit B payload payee counterpart = .refuse [m] ∧ m.isRefusal = true) ∨
      ∃ root' events stateEvent,
        decideCommit B payload payee counterpart = .accept root' events stateEvent := by
  cases counterpart with
  | none => exact Or.inl ⟨_, rfl, rfl⟩
  | some payer =>
    rw [decideCommit]
    split
    · split
      · exact Or.inl (refuseCommit_eq payload _)
      · split
        · exact Or.inl (refuseCommit_eq payload _)
        · exact Or.inr ⟨_, _, _, rfl⟩
    · exact Or.inl ⟨_, rfl, rfl⟩

/-- A refused command reports its refusal and nothing else. -/
theorem verdict_refuse {s : Option ParticipantState}
    (h : verdict R B w cmd = .refuse s events) :
    ∃ m, events = [m] ∧ m.isRefusal = true := by
  cases cmd with
  | createParticipantCmd participant =>
    rw [verdict] at h
    split at h <;> cases h
    exact ⟨_, rfl, rfl⟩
  | reservePayerFundsCmd payload =>
    rw [verdict] at h
    split at h
    · cases h
    · cases h
      exact ⟨_, rfl, rfl⟩
    · rename_i payer _
      rcases decideReserve_cases (B := B) payload payer (R.view w.repo payload.payeeId) with
        ⟨m, hd, hm⟩ | ⟨_, _, _, hd⟩
      · rw [hd] at h
        cases h
        exact ⟨m, rfl, hm⟩
      · rw [hd] at h
        cases h
  | commitPayeeFundsCmd payload =>
    rw [verdict] at h
    split at h
    · cases h
    · cases h
      exact ⟨_, rfl, rfl⟩
    · rename_i payee _
      split at h
      · rcases decideCommit_cases (B := B) payload payee (R.view w.repo payload.payerId) with
          ⟨m, hd, hm⟩ | ⟨_, _, _, hd⟩
        · rw [hd] at h
          cases h
          exact ⟨m, rfl, hm⟩
        · rw [hd] at h
          cases h
      · cases h
        exact ⟨_, rfl, rfl⟩
  | snapshotParticipantStateCmd participantId =>
    rw [verdict] at h
    split at h <;> cases h

end Moves

/-! ## What a handler leaves behind -/

/-- What a load shows of a root entity after the refill. -/
def afterLoad (R : StateRepo ParticipantState) (f : Faults) (w : World) (id : String)
    (root : ParticipantState) : Option ParticipantState :=
  if (R.view w.repo id).isSome || f.refill || R.aliased then some root else none

def Verdict.handledView (R : StateRepo ParticipantState) (f : Faults) (w : World) (id : String) :
    Verdict → Option ParticipantState
  | reject | create _ | refuse none _ => R.view w.repo id
  | refuse (some root) _ | snapshot root => afterLoad R f w id root
  | move root root' _ _ => if R.aliased then some root' else afterLoad R f w id root

/-- The handler did what the verdict says, on the world as it was. -/
structure Follows (R : StateRepo ParticipantState) (f : Faults) (w : World) (id : String)
    (v : Verdict) (h : Handled) : Prop where
  events : h.events = v.events
  result : h.result = v.result
  root : h.root = v.root
  log : h.repo.log = (load R applyStateEvent f.offsets w id).world.log
  view_root : R.view h.repo.repo id = v.handledView R f w id
  holds_root : R.holds h.repo.repo id = (R.aliased && v.loaded.isSome)
  view_ne : ∀ id', id' ≠ id → R.view h.repo.repo id' = R.view w.repo id'

section Follows

variable {R : StateRepo ParticipantState} {B : BigNumber} {f : Faults} {w : World}

/-- A handler that stops right after a load that found nothing. -/
theorem Follows.of_loaded (hR : R.Lawful ParticipantState.id) {id : String} {v : Verdict}
    {h : Handled} (hnone : (lookup R applyStateEvent w id).isFound = false)
    (hrepo : h.repo = (load R applyStateEvent f.offsets w id).world)
    (hevents : h.events = v.events) (hresult : h.result = v.result) (hroot : h.root = v.root)
    (hloaded : v.loaded = none) (hview : v.handledView R f w id = R.view w.repo id) :
    Follows R f w id v h where
  events := hevents
  result := hresult
  root := hroot
  log := by rw [hrepo]
  view_root := by rw [hrepo, load_repo, hR.view_load, hview]
  holds_root := by
    rw [hrepo, load_repo, hR.holds_load_self, hloaded, view_none_of_lookup hnone,
      Option.isSome_none]
  view_ne id' _ := by rw [hrepo, load_repo, hR.view_load]

/-- A handler that goes on from the root entity to a decision. -/
theorem Follows.of_decision (hR : R.Lawful ParticipantState.id) {id : String}
    {root : ParticipantState} (hid : root.id = id) {w₁ : World} {due : Bool}
    (hready : Ready R f root (afterLoad R f w id root) w₁ due)
    (hlate : due = true → R.aliased = true)
    (hlog : w₁.log = (load R applyStateEvent f.offsets w id).world.log)
    (hne : ∀ id', id' ≠ id → R.view w₁.repo id' = R.view w.repo id')
    {d : Decision} (hd : ∀ root' events stateEvent, d = .accept root' events stateEvent →
      root'.id = root.id) :
    Follows R f w id (d.verdict root) (conclude R f id w₁ due root d) := by
  subst hid
  cases d with
  | refuse events =>
    exact
      { events := rfl, result := rfl, root := rfl
        log := (refill_log _ _ _).trans hlog
        view_root := hready.refuse_view hR
        holds_root := (hready.refuse_holds hR).trans (Bool.and_true _).symm
        view_ne := fun id' h => (refill_view_ne hR _ _ h).trans (hne id' h) }
  | accept root' events stateEvent =>
    have hid' : root'.id = root.id := hd root' events stateEvent rfl
    exact
      { events := rfl, result := rfl, root := rfl
        log := (refill_log _ _ _).trans hlog
        view_root := hready.move_view hR hid' hlate
        holds_root := (hready.move_holds hR hid').trans (Bool.and_true _).symm
        view_ne := fun id' h => (move_view_ne hR hid' h).trans (hne id' h) }

theorem Follows.of_counterpart (hR : R.Lawful ParticipantState.id) {id : String}
    {root : ParticipantState} (hroot : lookup R applyStateEvent w id = .found root)
    (hid : root.id = id) (counterpartId : String)
    {decide : Option ParticipantState → Decision}
    (hd : ∀ c root' events stateEvent, decide c = .accept root' events stateEvent →
      root'.id = root.id) :
    Follows R f w id ((decide (R.view w.repo counterpartId)).verdict root)
      (withCounterpart R f id (load R applyStateEvent f.offsets w id).world
        (load R applyStateEvent f.offsets w id).refillDue root counterpartId decide) := by
  have hready := Ready.of_load (f := f) hR hroot hid
  have hseen : (R.load (load R applyStateEvent f.offsets w id).world.repo counterpartId).2 =
      R.view w.repo counterpartId := by
    show R.view _ _ = _
    rw [load_repo, hR.view_load]
  rw [withCounterpart, hseen]
  refine Follows.of_decision hR hid (hready.counterpart hR counterpartId) (fun hdue => ?_)
    (refill_log _ _ _) (fun id' hne => ?_) fun root' events stateEvent h =>
      hd _ root' events stateEvent h
  · -- what is still due after the counterpart was answered from the map
    cases hl : R.answersLocally (load R applyStateEvent f.offsets w id).world.repo
        counterpartId with
    | true => exact hR.aliased_of_answersLocally _ _ hl
    | false =>
      rw [hl] at hdue
      cases hdue' : (load R applyStateEvent f.offsets w id).refillDue <;>
        rw [hdue'] at hdue <;> cases hdue
  · rw [counterpart_view_ne hR _ _ (by rwa [hid]), load_repo, hR.view_load]

theorem Follows.of_refusal (hR : R.Lawful ParticipantState.id) {id : String}
    {root : ParticipantState} (hroot : lookup R applyStateEvent w id = .found root)
    (hid : root.id = id) (events : List Message) :
    Follows R f w id (.refuse (some root) events)
      (conclude R f id (load R applyStateEvent f.offsets w id).world
        (load R applyStateEvent f.offsets w id).refillDue root (.refuse events)) := by
  have hready := Ready.of_load (f := f) hR hroot hid
  subst hid
  exact
    { events := rfl, result := rfl, root := rfl
      log := refill_log _ _ _
      view_root := hready.refuse_view hR
      holds_root := (hready.refuse_holds hR).trans (Bool.and_true _).symm
      view_ne := fun id' hne => by
        rw [conclude, refill_view_ne hR _ _ hne, load_repo, hR.view_load] }

/-- Every handler does what the verdict says. -/
theorem handle_follows (hR : R.Lawful ParticipantState.id) {cmd : Command}
    (hkeyed : ∀ s, lookup R applyStateEvent w cmd.rootId = .found s → s.id = cmd.rootId) :
    Follows R f w cmd.rootId (verdict R B w cmd) (handle R B f w cmd) := by
  cases cmd with
  | createParticipantCmd participant =>
    rw [handle, verdict, processCreateParticipantCommand]
    dsimp only [Command.rootId] at hkeyed ⊢
    rw [load_root]
    cases hroot : lookup R applyStateEvent w participant.id with
    | failed => exact Follows.of_loaded hR (by rw [hroot]; rfl) rfl rfl rfl rfl rfl rfl
    | notFound => exact Follows.of_loaded hR (by rw [hroot]; rfl) rfl rfl rfl rfl rfl rfl
    | found root => exact Follows.of_refusal hR hroot (hkeyed root hroot) _
  | reservePayerFundsCmd payload =>
    rw [handle, verdict, processReserveFundsCommand]
    dsimp only [Command.rootId] at hkeyed ⊢
    rw [load_root]
    cases hroot : lookup R applyStateEvent w payload.payerId with
    | failed => exact Follows.of_loaded hR (by rw [hroot]; rfl) rfl rfl rfl rfl rfl rfl
    | notFound => exact Follows.of_loaded hR (by rw [hroot]; rfl) rfl rfl rfl rfl rfl rfl
    | found payer =>
      exact Follows.of_counterpart hR hroot (hkeyed payer hroot) payload.payeeId
        fun _ _ _ _ h => (decideReserve_movesTo h).id_eq
  | commitPayeeFundsCmd payload =>
    rw [handle, verdict, processCommitFundsCommand]
    dsimp only [Command.rootId] at hkeyed ⊢
    rw [load_root]
    cases hroot : lookup R applyStateEvent w payload.payeeId with
    | failed => exact Follows.of_loaded hR (by rw [hroot]; rfl) rfl rfl rfl rfl rfl rfl
    | notFound => exact Follows.of_loaded hR (by rw [hroot]; rfl) rfl rfl rfl rfl rfl rfl
    | found payee =>
      dsimp only
      split
      · exact Follows.of_counterpart hR hroot (hkeyed payee hroot) payload.payerId
          fun _ _ _ _ h => (decideCommit_movesTo h).id_eq
      · exact Follows.of_refusal hR hroot (hkeyed payee hroot) _
  | snapshotParticipantStateCmd participantId =>
    rw [handle, verdict, processParticipantStateSnapshotCommand]
    dsimp only [Command.rootId] at hkeyed ⊢
    rw [load_root]
    cases hroot : lookup R applyStateEvent w participantId with
    | failed => exact Follows.of_loaded hR (by rw [hroot]; rfl) rfl rfl rfl rfl rfl rfl
    | notFound => exact Follows.of_loaded hR (by rw [hroot]; rfl) rfl rfl rfl rfl rfl rfl
    | found root =>
      have hid := hkeyed root hroot
      subst hid
      exact
        { events := rfl, result := rfl, root := rfl
          log := refill_log _ _ _
          view_root := (Ready.of_load (f := f) hR hroot rfl).refuse_view hR
          holds_root :=
            ((Ready.of_load (f := f) hR hroot rfl).refuse_holds hR).trans (Bool.and_true _).symm
          view_ne := fun id' hne => by
            dsimp only
            rw [refill_view_ne hR _ _ hne, load_repo, hR.view_load] }

end Follows

/-! ## What a command leaves behind -/

def Verdict.stateEvents : Verdict → List Message
  | reject | refuse _ _ => []
  | create participant => [.stateEvt (.participantCreatedStateEvt participant)]
  | move _ _ _ stateEvent => [stateEvent]
  | snapshot root => [.participantStateSnapshotEvt root]

/-- What reaches the topics: everything, or what the failed call delivered and then what
the second call delivered of the domain events. -/
def Verdict.published (f : Faults) (v : Verdict) : List Message :=
  if f.publish₁.isOk then v.events ++ v.stateEvents
  else f.publish₁.delivered (v.events ++ v.stateEvents) ++ f.publish₂.delivered v.events

/-- The root entity of an accepted command. -/
def Verdict.accepted : Verdict → Option ParticipantState
  | reject | refuse _ _ => none
  | create root | move _ root _ _ | snapshot root => some root

def Verdict.finalView (R : StateRepo ParticipantState) (f : Faults) (w : World) (id : String)
    (v : Verdict) : Option ParticipantState :=
  if v.accepted.isSome && f.publish₁.isOk && (f.store || R.aliased) then v.accepted
  else v.handledView R f w id

section Command

variable {R : StateRepo ParticipantState} {B : BigNumber} {f : Faults} {w : World} {cmd : Command}

theorem mem_published {v : Verdict} {m : Message} (h : m ∈ v.published f) :
    m ∈ v.events ++ v.stateEvents := by
  rw [Verdict.published] at h
  split at h
  · exact h
  · rcases List.mem_append.mp h with h | h
    · exact PublishOutcome.mem_of_mem_delivered h
    · exact List.mem_append_left _ (PublishOutcome.mem_of_mem_delivered h)

/-- `finish` on a handler that did what the verdict says. -/
theorem Follows.finish_eq {id : String} {v : Verdict} {h : Handled} (hf : Follows R f w id v h) :
    (finish (store R f.store) f.toFaults h).published = v.published f ∧
      (finish (store R f.store) f.toFaults h).repo =
        match v.accepted with
        | some s => if f.publish₁.isOk then (store R f.store h.repo s).1 else h.repo
        | none => h.repo := by
  obtain ⟨hevents, hresult, hroot, -, -, -, -⟩ := hf
  unfold finish Verdict.published
  rw [hevents, hresult, hroot]
  cases v with
  | reject => simp [Verdict.events, Verdict.stateEvents, Verdict.result, Verdict.accepted]
  | refuse root events =>
    cases hok : f.publish₁.isOk with
    | true => simp [Verdict.events, Verdict.stateEvents, Verdict.result, Verdict.accepted]
    | false =>
      cases events with
      | nil => simp [Verdict.events, Verdict.stateEvents, Verdict.result, Verdict.accepted]
      | cons m ms => simp [Verdict.events, Verdict.stateEvents, Verdict.result, Verdict.accepted]
  | create root =>
    cases hok : f.publish₁.isOk <;>
      simp [Verdict.events, Verdict.stateEvents, Verdict.result, Verdict.accepted, Verdict.root]
  | move root root' events stateEvent =>
    cases hok : f.publish₁.isOk <;>
      simp [Verdict.events, Verdict.stateEvents, Verdict.result, Verdict.accepted, Verdict.root]
  | snapshot root =>
    cases hok : f.publish₁.isOk <;>
      simp [Verdict.events, Verdict.stateEvents, Verdict.result, Verdict.accepted, Verdict.root]

/-- An accepted command resolves when its messages are out and its entity is stored. -/
theorem Follows.outcome_eq_none_iff {id : String} {v : Verdict} {h : Handled}
    (hf : Follows R f w id v h) {s : ParticipantState} (hs : v.accepted = some s) :
    (finish (store R f.store) f.toFaults h).outcome = none ↔
      (f.publish₁.isOk && (R.store f.store h.repo.repo s).2) = false := by
  obtain ⟨hevents, hresult, hroot, -, -, -, -⟩ := hf
  unfold finish
  rw [hevents, hresult, hroot]
  cases v with
  | reject => cases hs
  | refuse root events => cases hs
  | create root =>
    obtain rfl := Option.some.inj hs
    cases hok : f.publish₁.isOk <;> cases hst : (R.store f.store h.repo.repo root).2 <;>
      simp [Verdict.events, Verdict.result, Verdict.root, store, hst]
  | move root root' events stateEvent =>
    obtain rfl := Option.some.inj hs
    cases hok : f.publish₁.isOk <;> cases hst : (R.store f.store h.repo.repo root').2 <;>
      simp [Verdict.events, Verdict.result, Verdict.root, store, hst]
  | snapshot root =>
    obtain rfl := Option.some.inj hs
    cases hok : f.publish₁.isOk <;> cases hst : (R.store f.store h.repo.repo root).2 <;>
      simp [Verdict.events, Verdict.result, Verdict.root, store, hst]

/-- The root entity of an accepted command is the addressed participant. -/
theorem verdict_accepted_id
    (hkeyed : ∀ s, lookup R applyStateEvent w cmd.rootId = .found s → s.id = cmd.rootId)
    {s : ParticipantState} (h : (verdict R B w cmd).accepted = some s) : s.id = cmd.rootId := by
  cases cmd with
  | createParticipantCmd participant =>
    rw [verdict] at h
    dsimp only [Command.rootId] at hkeyed ⊢
    split at h <;> cases h
    rfl
  | reservePayerFundsCmd payload =>
    rw [verdict] at h
    dsimp only [Command.rootId] at hkeyed ⊢
    split at h
    · cases h
    · cases h
    · rename_i payer hroot
      cases hd : decideReserve B payload payer (R.view w.repo payload.payeeId) with
      | refuse events => rw [hd] at h; cases h
      | accept root' events stateEvent =>
        rw [hd] at h
        cases h
        exact (decideReserve_movesTo hd).id_eq.trans (hkeyed payer hroot)
  | commitPayeeFundsCmd payload =>
    rw [verdict] at h
    dsimp only [Command.rootId] at hkeyed ⊢
    split at h
    · cases h
    · cases h
    · rename_i payee hroot
      split at h
      · cases hd : decideCommit B payload payee (R.view w.repo payload.payerId) with
        | refuse events => rw [hd] at h; cases h
        | accept root' events stateEvent =>
          rw [hd] at h
          cases h
          exact (decideCommit_movesTo hd).id_eq.trans (hkeyed payee hroot)
      · cases h
  | snapshotParticipantStateCmd participantId =>
    rw [verdict] at h
    dsimp only [Command.rootId] at hkeyed ⊢
    split at h
    · cases h
    · cases h
    · rename_i root hroot
      exact Option.some.inj h ▸ hkeyed root hroot

theorem processCommand_published (hR : R.Lawful ParticipantState.id)
    (hkeyed : ∀ s, lookup R applyStateEvent w cmd.rootId = .found s → s.id = cmd.rootId) :
    (processCommand R B f w cmd).published = (verdict R B w cmd).published f :=
  (handle_follows hR hkeyed).finish_eq.1

theorem processCommand_view_root (hR : R.Lawful ParticipantState.id)
    (hkeyed : ∀ s, lookup R applyStateEvent w cmd.rootId = .found s → s.id = cmd.rootId) :
    R.view (processCommand R B f w cmd).repo.repo cmd.rootId =
      (verdict R B w cmd).finalView R f w cmd.rootId := by
  have hf := handle_follows (B := B) (f := f) hR hkeyed
  show R.view (finish (store R f.store) f.toFaults (handle R B f w cmd)).repo.repo cmd.rootId = _
  rw [hf.finish_eq.2, Verdict.finalView]
  cases hacc : (verdict R B w cmd).accepted with
  | none =>
    rw [Option.isSome_none, Bool.false_and, Bool.false_and, if_neg Bool.false_ne_true]
    exact hf.view_root
  | some s =>
    have hid : s.id = cmd.rootId := verdict_accepted_id hkeyed hacc
    dsimp only
    rw [Option.isSome_some, Bool.true_and]
    cases hok : f.publish₁.isOk with
    | false =>
      rw [if_neg Bool.false_ne_true, Bool.false_and, if_neg Bool.false_ne_true]
      exact hf.view_root
    | true =>
      rw [if_pos rfl, Bool.true_and, store, ← hid, hR.view_store_self, hid, hf.view_root]

theorem processCommand_view_ne (hR : R.Lawful ParticipantState.id)
    (hkeyed : ∀ s, lookup R applyStateEvent w cmd.rootId = .found s → s.id = cmd.rootId)
    {id : String} (hne : id ≠ cmd.rootId) :
    R.view (processCommand R B f w cmd).repo.repo id = R.view w.repo id := by
  have hf := handle_follows (B := B) (f := f) hR hkeyed
  show R.view (finish (store R f.store) f.toFaults (handle R B f w cmd)).repo.repo id = _
  rw [hf.finish_eq.2]
  cases hacc : (verdict R B w cmd).accepted with
  | none => exact hf.view_ne id hne
  | some s =>
    have hid : s.id = cmd.rootId := verdict_accepted_id hkeyed hacc
    dsimp only
    split
    · rw [store, hR.view_store_ne _ _ _ _ (by rwa [hid]), hf.view_ne id hne]
    · exact hf.view_ne id hne

theorem processCommand_log (hR : R.Lawful ParticipantState.id)
    (hkeyed : ∀ s, lookup R applyStateEvent w cmd.rootId = .found s → s.id = cmd.rootId) :
    (processCommand R B f w cmd).repo.log =
      recordAll (load R applyStateEvent f.offsets w cmd.rootId).world.log
        ((verdict R B w cmd).published f) := by
  have hf := handle_follows (B := B) (f := f) hR hkeyed
  rw [processCommand]
  dsimp only
  rw [hf.finish_eq.1, hf.finish_eq.2, ← hf.log]
  refine congrArg (recordAll · _) ?_
  split
  · split <;> rfl
  · rfl

end Command

end ParticpantsAgg

end Participants
end PocArchitecture
