/-
Participant commands over Redis, without failures.

Nothing is evicted and every accepted entity is stored, so the cache has every
participant there is (`AllStored`) and the log is never needed.  A command then leaves
everything as it was, creates one participant, or moves one position (`Effect`), and it
does the last exactly when the checks of the entities admit it.
-/
import PocArchitecture.Participants.LaterLoads
import PocArchitecture.Participants.Repos

namespace PocArchitecture
namespace Participants

open PublicMessages Infrastructure
open Domain (Loaded PublishOutcome Settled)
open Domain.BaseEventSourcingAggregate

namespace ParticpantsAgg

/-! ## The checks -/

section Checks

variable {R : StateRepo ParticipantState} {B : BigNumber} {w : World} {cmd : Command}

/-- Both participants are known, both have the account, and a reserve stays below the cap. -/
def Admits (R : StateRepo ParticipantState) (B : BigNumber) (w : World) : Command → Prop
  | .reservePayerFundsCmd payload =>
    ∃ payer payee, lookup R applyStateEvent w payload.payerId = .found payer ∧
      R.view w.repo payload.payeeId = some payee ∧
      payee.hasAccount .position payload.currency = true ∧
      payer.canReserveFunds B payload.currency payload.amount = .ok true
  | .commitPayeeFundsCmd payload =>
    ∃ payee payer, lookup R applyStateEvent w payload.payeeId = .found payee ∧
      payee.hasAccount .position payload.currency = true ∧
      R.view w.repo payload.payerId = some payer ∧
      payer.hasAccount .position payload.currency = true
  | _ => False

/-- `Admits`, computed. -/
def admits (R : StateRepo ParticipantState) (B : BigNumber) (w : World) : Command → Bool
  | .reservePayerFundsCmd payload =>
    match lookup R applyStateEvent w payload.payerId, R.view w.repo payload.payeeId with
    | .found payer, some payee =>
      payee.hasAccount .position payload.currency &&
        (payer.canReserveFunds B payload.currency payload.amount).toOption == some true
    | _, _ => false
  | .commitPayeeFundsCmd payload =>
    match lookup R applyStateEvent w payload.payeeId, R.view w.repo payload.payerId with
    | .found payee, some payer =>
      payee.hasAccount .position payload.currency && payer.hasAccount .position payload.currency
    | _, _ => false
  | _ => false

theorem toOption_eq_some {α ε : Type} {x : Except ε α} {a : α} :
    x.toOption = some a ↔ x = .ok a := by
  cases x <;> simp [Except.toOption]

theorem admits_eq_true : admits R B w cmd = true ↔ Admits R B w cmd := by
  cases cmd with
  | createParticipantCmd participant => exact ⟨fun h => (by cases h), fun h => h.elim⟩
  | snapshotParticipantStateCmd participantId => exact ⟨fun h => (by cases h), fun h => h.elim⟩
  | reservePayerFundsCmd payload =>
    rw [admits, Admits]
    cases lookup R applyStateEvent w payload.payerId with
    | found payer =>
      cases R.view w.repo payload.payeeId with
      | some payee => simp [toOption_eq_some]
      | none => simp
    | _ => simp
  | commitPayeeFundsCmd payload =>
    rw [admits, Admits]
    cases lookup R applyStateEvent w payload.payeeId with
    | found payee => cases R.view w.repo payload.payerId <;> simp
    | _ => simp

instance : Decidable (Admits R B w cmd) := decidable_of_iff _ admits_eq_true

theorem reserveFunds_iff {s : ParticipantState} {currency : CurrencyTypes} {amount : String} :
    (∃ s', s.reserveFunds B currency amount = .ok s') ↔
      s.canReserveFunds B currency amount = .ok true := by
  constructor
  · rintro ⟨s', h⟩
    unfold ParticipantState.reserveFunds at h
    split at h
    · cases h
    · cases h
    · assumption
  · intro h
    rw [ParticipantState.reserveFunds, h]
    dsimp only
    cases hacc : s.getAccount .position currency with
    | none =>
      rw [ParticipantState.canReserveFunds, hacc] at h
      dsimp only at h
      split at h <;> cases h
    | some account =>
      dsimp only
      split <;> exact ⟨_, rfl⟩

theorem admits_iff : Admits R B w cmd ↔ ∃ root root', Moves R B w cmd root root' := by
  cases cmd with
  | createParticipantCmd participant => exact ⟨fun h => h.elim, fun ⟨_, _, h⟩ => h.elim⟩
  | snapshotParticipantStateCmd participantId => exact ⟨fun h => h.elim, fun ⟨_, _, h⟩ => h.elim⟩
  | reservePayerFundsCmd payload =>
    constructor
    · rintro ⟨payer, payee, hroot, hview, hacc, hcan⟩
      obtain ⟨payer', hres⟩ := reserveFunds_iff.mpr hcan
      exact ⟨payer, payer', hroot, ⟨payee, hview, hacc⟩, hres⟩
    · rintro ⟨payer, payer', hroot, ⟨payee, hview, hacc⟩, hres⟩
      exact ⟨payer, payee, hroot, hview, hacc, reserveFunds_iff.mp ⟨payer', hres⟩⟩
  | commitPayeeFundsCmd payload =>
    constructor
    · rintro ⟨payee, payer, hroot, hhas, hview, hacc⟩
      obtain ⟨payee', hcom⟩ : ∃ payee', payee.commitFunds B payload.currency payload.amount =
          .ok payee' := ParticipantState.commitFunds_of_hasAccount hhas
      exact ⟨payee, payee', hroot, ⟨payer, hview, hacc⟩, hcom⟩
    · rintro ⟨payee, payee', hroot, ⟨payer, hview, hacc⟩, hcom⟩
      exact ⟨payee, payer, hroot, hasAccount_of_commitFunds hcom, hview, hacc⟩

theorem Moves.movesTo {root root' : ParticipantState} (h : Moves R B w cmd root root') :
    ∃ terms, cmd.terms = some terms ∧ root.MovesTo terms.currency root' := by
  obtain ⟨_, _, hv⟩ := verdict_of_moves h
  obtain ⟨-, terms, _, _, hterms, -, hto, -⟩ := verdict_move hv
  exact ⟨terms, hterms, hto⟩

end Checks

/-! ## The effect of a command -/

section Redis

variable {R : StateRepo ParticipantState} {B : BigNumber} {w : World} {cmd : Command}

/-- The participant as Redis holds it. -/
def stored (w : World) (id : String) : Option ParticipantState :=
  redisParticipantStateRepo.view w.repo id

/-- Who is not in Redis is not in the log either. -/
def AllStored (w : World) : Prop :=
  ∀ id, stored w id = none → lookup redisParticipantStateRepo applyStateEvent w id = .notFound

theorem AllStored.lookup_found (h : AllStored w) {id : String} {s : ParticipantState}
    (hs : lookup redisParticipantStateRepo applyStateEvent w id = .found s) :
    stored w id = some s := by
  cases hv : stored w id with
  | none =>
    rw [h id hv] at hs
    cases hs
  | some s' =>
    rw [lookup_of_view hv] at hs
    exact congrArg some (Loaded.found.inj hs)

/-- The command with its publish and its store in order. -/
def process (B : BigNumber) (w : World) (cmd : Command) : Settled Message World :=
  processCommand redisParticipantStateRepo B Faults.none w cmd

inductive Effect (B : BigNumber) (w : World) (cmd : Command) (w' : World) (msgs : List Message) :
    Prop where
  | still (hsame : ∀ id, stored w' id = stored w id)
      (hnot : ¬ Admits redisParticipantStateRepo B w cmd)
      (hsilent : ∀ m ∈ msgs, m.movement = none ∧ ∀ id name, m ≠ .participantCreatedEvt id name)
  | create (participant : ParticipantState) (hcmd : cmd = .createParticipantCmd participant)
      (hnew : stored w participant.id = none) (hself : stored w' participant.id = some participant)
      (hother : ∀ id, id ≠ participant.id → stored w' id = stored w id)
      (hmsgs : msgs = [.participantCreatedEvt participant.id participant.name,
        .stateEvt (.participantCreatedStateEvt participant)])
  | move (root root' : ParticipantState)
      (hmoves : Moves redisParticipantStateRepo B w cmd root root')
      (hroot : stored w cmd.rootId = some root) (hself : stored w' cmd.rootId = some root')
      (hother : ∀ id, id ≠ cmd.rootId → stored w' id = stored w id)
      (hmsgs : ∃ m stateEvent, msgs = [m, stateEvent] ∧ m.movement.isSome = true ∧
        (∀ id name, m ≠ .participantCreatedEvt id name) ∧ stateEvent.movement = none ∧
        ∀ id name, stateEvent ≠ .participantCreatedEvt id name)

/-- Without failures an accepted entity is what Redis holds afterwards. -/
theorem finalView_none (v : Verdict) {id : String} (hloaded : ∀ s, v.loaded = some s →
      redisParticipantStateRepo.view w.repo id = some s) :
    v.finalView redisParticipantStateRepo Faults.none w id =
      if v.accepted.isSome then v.accepted else redisParticipantStateRepo.view w.repo id := by
  cases v with
  | refuse root events =>
    cases root with
    | none => rfl
    | some root =>
      change afterLoad redisParticipantStateRepo Faults.none w id root =
        redisParticipantStateRepo.view w.repo id
      rw [afterLoad, hloaded root rfl]
      rfl
  | _ => rfl

theorem AllStored.loaded (hall : AllStored w) {s : ParticipantState}
    (hs : (verdict redisParticipantStateRepo B w cmd).loaded = some s) :
    stored w cmd.rootId = some s := hall.lookup_found (verdict_loaded hs)

theorem stored_process_root
    (hkeyed : ∀ s, lookup redisParticipantStateRepo applyStateEvent w cmd.rootId = .found s →
      s.id = cmd.rootId) (hall : AllStored w) (B : BigNumber) :
    stored (process B w cmd).repo cmd.rootId =
      if (verdict redisParticipantStateRepo B w cmd).accepted.isSome then
        (verdict redisParticipantStateRepo B w cmd).accepted
      else stored w cmd.rootId :=
  (processCommand_view_root redis_lawful hkeyed).trans
    (finalView_none _ fun _ hs => hall.loaded hs)

theorem stored_process_ne
    (hkeyed : ∀ s, lookup redisParticipantStateRepo applyStateEvent w cmd.rootId = .found s →
      s.id = cmd.rootId) {id : String} (hne : id ≠ cmd.rootId) :
    stored (process B w cmd).repo id = stored w id :=
  processCommand_view_ne redis_lawful hkeyed hne

/-- A command that accepts nothing new leaves every participant as it was. -/
theorem stored_process_same
    (hkeyed : ∀ s, lookup redisParticipantStateRepo applyStateEvent w cmd.rootId = .found s →
      s.id = cmd.rootId) (hall : AllStored w) (B : BigNumber)
    (haccepted : ∀ s, (verdict redisParticipantStateRepo B w cmd).accepted = some s →
      stored w cmd.rootId = some s) (id : String) :
    stored (process B w cmd).repo id = stored w id := by
  by_cases hid : id = cmd.rootId
  · subst hid
    rw [stored_process_root hkeyed hall B]
    cases hacc : (verdict redisParticipantStateRepo B w cmd).accepted with
    | none => rfl
    | some s => exact (haccepted s hacc).symm
  · exact stored_process_ne hkeyed hid

theorem not_admits_of_verdict (h : ∀ root root' events stateEvent,
      verdict R B w cmd ≠ .move root root' events stateEvent) : ¬ Admits R B w cmd := by
  intro hadmits
  obtain ⟨root, root', hmoves⟩ := admits_iff.mp hadmits
  obtain ⟨events, stateEvent, hv⟩ := verdict_of_moves hmoves
  exact h root root' events stateEvent hv

theorem process_effect (hw : WellKept redisParticipantStateRepo w) (hall : AllStored w)
    (B : BigNumber) (cmd : Command) :
    Effect B w cmd (process B w cmd).repo (process B w cmd).published := by
  have hself := stored_process_root (hw.keyed cmd) hall B
  have hsame := stored_process_same (hw.keyed cmd) hall B
  have hloaded : ∀ s, (verdict redisParticipantStateRepo B w cmd).loaded = some s →
      stored w cmd.rootId = some s := fun _ hs => hall.loaded hs
  have hother : ∀ id, id ≠ cmd.rootId → stored (process B w cmd).repo id = stored w id :=
    fun _ hne => stored_process_ne (hw.keyed cmd) hne
  have hpub : (process B w cmd).published = (verdict redisParticipantStateRepo B w cmd).published
      Faults.none := processCommand_published redis_lawful (hw.keyed cmd)
  rw [hpub]
  cases hv : verdict redisParticipantStateRepo B w cmd with
  | reject =>
    rw [hv] at hsame
    exact .still (hsame fun s hs => by cases hs)
      (not_admits_of_verdict fun _ _ _ _ h => by rw [hv] at h; cases h)
      fun m hm => absurd hm List.not_mem_nil
  | refuse root events =>
    obtain ⟨m, rfl, hm⟩ := verdict_refuse hv
    rw [hv] at hsame
    refine .still (hsame fun s hs => by cases hs)
      (not_admits_of_verdict fun _ _ _ _ h => by rw [hv] at h; cases h) fun m' hm' => ?_
    obtain rfl := List.mem_singleton.mp hm'
    refine ⟨Message.movement_of_isRefusal hm, fun id name he => ?_⟩
    rw [he] at hm
    cases hm
  | snapshot root =>
    rw [hv] at hsame hloaded
    refine .still (hsame hloaded)
      (not_admits_of_verdict fun _ _ _ _ h => by rw [hv] at h; cases h) fun m hm => ?_
    obtain rfl := List.mem_singleton.mp hm
    exact ⟨rfl, fun id name he => by cases he⟩
  | create participant =>
    obtain ⟨rfl, hunknown⟩ := verdict_create hv
    rw [hv] at hself
    exact .create participant rfl (view_none_of_lookup (by rw [hunknown]; rfl)) hself hother rfl
  | move root root' events stateEvent =>
    obtain ⟨hmoves, terms, position, m, -, -, -, rfl, hm, rfl⟩ := verdict_move hv
    rw [hv] at hself hloaded
    refine .move root root' hmoves (hloaded root rfl) hself hother
      ⟨m, _, rfl, by rw [hm]; rfl, fun id name he => ?_, rfl, fun id name he => by cases he⟩
    rw [he] at hm
    cases hm

theorem AllStored.process (hw : WellKept redisParticipantStateRepo w) (hall : AllStored w)
    (B : BigNumber) (cmd : Command) : AllStored (process B w cmd).repo := by
  intro id hid
  by_cases hroot : id = cmd.rootId
  · subst hroot
    rw [stored_process_root (hw.keyed cmd) hall B] at hid
    have hbefore : (verdict redisParticipantStateRepo B w cmd).accepted = none →
        lookup redisParticipantStateRepo applyStateEvent w cmd.rootId = .notFound := by
      intro hacc
      rw [hacc] at hid
      exact hall cmd.rootId hid
    cases hv : verdict redisParticipantStateRepo B w cmd with
    | reject => exact (lookup_of_reject redis_lawful hw hv).trans (hbefore (by rw [hv]; rfl))
    | refuse root events =>
      exact (lookup_of_refuse redis_lawful hw hv).trans (hbefore (by rw [hv]; rfl))
    | create participant => rw [hv] at hid; cases hid
    | move root root' events stateEvent => rw [hv] at hid; cases hid
    | snapshot root => rw [hv] at hid; cases hid
  · refine (lookup_processCommand_ne redis_lawful hw hroot).trans (hall id ?_)
    exact (stored_process_ne (hw.keyed cmd) hroot).symm.trans hid

theorem allStored_start (partitioner : String → Nat) : AllStored (start partitioner) :=
  fun _ _ => rfl

/-- A movement is announced exactly when the checks admit it. -/
theorem Effect.moves_iff {w' : World} {msgs : List Message} (h : Effect B w cmd w' msgs) :
    (∃ m ∈ msgs, m.movement.isSome = true) ↔ Admits redisParticipantStateRepo B w cmd := by
  cases h with
  | still hsame hnot hsilent =>
    refine ⟨fun ⟨m, hm, hmove⟩ => ?_, fun h => absurd h hnot⟩
    rw [(hsilent m hm).1] at hmove
    cases hmove
  | create participant hcmd hnew hself hother hmsgs =>
    subst hcmd
    refine ⟨fun ⟨m, hm, hmove⟩ => ?_, fun h => h.elim⟩
    rw [hmsgs] at hm
    rcases List.mem_pair.mp hm with rfl | rfl <;> cases hmove
  | move root root' hmoves hroot hself hother hmsgs =>
    obtain ⟨m, stateEvent, rfl, hmove, -⟩ := hmsgs
    exact ⟨fun _ => admits_iff.mpr ⟨root, root', hmoves⟩, fun _ => ⟨m, List.mem_cons_self, hmove⟩⟩

end Redis

end ParticpantsAgg

end Participants
end PocArchitecture
