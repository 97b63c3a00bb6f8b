/-
What failing calls leave behind of one transfer command.

`reached` is the aggregate after any commands with any failures.  Two questions are
asked about the next command.  The first is whether the state events that got out tell
what is stored, and whether each message got out once: the messages go out before the
store, and the `catch` sends the same list again.  The second is whether a prepare that
was rejected can be tried again: its id is in the duplicate set before anything else is
done, and nothing takes it out.
-/
import PocArchitecture.Transfers.LifeCycle

namespace PocArchitecture
namespace Transfers

open PublicMessages Infrastructure
open Domain (PublishOutcome Settled)
open Domain.BaseAggregate

namespace TransfersAgg

/-- The aggregate after some commands, each with its own failures. -/
def reached (R : StateRepo TransferState) (C : Crypto) (ls : List (Faults × Command)) : World :=
  Machine.run (fun w l => (processCommand R C l.1 w l.2).repo) World.start ls

theorem reached_wellKept {R : StateRepo TransferState} (hR : R.Lawful TransferState.id) (C : Crypto)
    (ls : List (Faults × Command)) : WellKept R (reached R C ls) :=
  Machine.run_always (fun _ l hw => hw.processCommand hR C l.1 l.2) (wellKept_start hR) ls

end TransfersAgg

def Command.isPrepare : Command → Bool
  | prepareTransferCmd _ => true
  | _ => false

/-- The stored transfers show what the event tells. -/
def Message.ReflectedIn (shown : String → Option TransferState) : Message → Prop
  | transferPreparedStateEvt transfer => shown transfer.id = some transfer
  | transferStateChangedStateEvt id state =>
    (shown id).map (·.transferInternalState) = some state
  | transferFulfiledStateEvt p =>
    (shown p.id).map (fun s => (s.transferInternalState, s.completedTimestamp, s.fulfil,
      s.fulfilment)) = some (p.transferInternalState, p.completedTimestamp, p.fulfil, p.fulfilment)
  | _ => True

instance (shown : String → Option TransferState) (m : Message) :
    Decidable (m.ReflectedIn shown) := by
  cases m <;> unfold Message.ReflectedIn <;> infer_instance

theorem Message.reflectedIn_of_not_isStateEvent {m : Message} (h : m.isStateEvent = false)
    (shown : String → Option TransferState) : m.ReflectedIn shown := by
  cases m with
  | transferPreparedStateEvt transfer => cases h
  | transferStateChangedStateEvt id state => cases h
  | transferFulfiledStateEvt p => cases h
  | _ => trivial

namespace TransfersAgg

/-- Every state event that got out is reflected in the stored transfer, and no message got
out twice.  The messages of one command are different, so equal messages are one message
sent twice. -/
def PublishedMatchesStored (R : StateRepo TransferState) (settled : Settled Message World) : Prop :=
  (∀ m ∈ settled.published, m.ReflectedIn (R.view settled.repo.repo)) ∧ settled.published.Nodup

instance (R : StateRepo TransferState) (settled : Settled Message World) :
    Decidable (PublishedMatchesStored R settled) := by
  unfold PublishedMatchesStored
  infer_instance

/-- The command passes the checks of its handler. -/
def Accepts (R : StateRepo TransferState) (C : Crypto) (w : World) : Command → Prop
  | .prepareTransferCmd payload => payload.transferId ∉ w.duplicates
  | .ackPayerFundsReservedCmd payload =>
    ∃ s, R.view w.repo payload.transferId = some s ∧ s.transferInternalState = .receivedPrepare
  | .fulfilTransferCmd payload =>
    ∃ s, R.view w.repo payload.transferId = some s ∧ s.transferInternalState = .reserved ∧
      TransferState.Fulfils C s.condition payload.fulfilment
  | .ackPayeeFundsCommittedCmd payload =>
    ∃ s, R.view w.repo payload.transferId = some s ∧ s.transferInternalState = .receivedFulfil

/-- The message at this place gets out in both calls. -/
def SentTwice (f : Faults) (n : Nat) : Prop :=
  f.publish₁.deliversAt n = true ∧ f.publish₂.deliversAt n = true

/-- A prepare whose `SADD` failed has nothing to publish.  After a successful publish an
accepted transfer has to be stored.  After a failed one no message may get out twice, and
the state event of an accepted command, the second of its two messages, may not get out at
all unless the stored object has changed already. -/
def CleanFailure (R : StateRepo TransferState) (C : Crypto) (f : Faults) (w : World)
    (cmd : Command) : Prop :=
  (f.add = false ∧ cmd.isPrepare = true) ∨
    if f.publish₁.isOk then Accepts R C w cmd → f.store = true ∨ R.aliased = true
    else
      ¬ SentTwice f 0 ∧
        (Accepts R C w cmd → ¬ SentTwice f 1 ∧
          (f.publish₁.deliversAt 1 = true ∨ f.publish₂.deliversAt 1 = true →
            R.aliased = true ∧ cmd.isPrepare = false))

section

variable {R : StateRepo TransferState} {C : Crypto} {f : Faults} {w : World} {cmd : Command}

/-- A refusal sends one message, and it records nothing. -/
theorem refuse_events {root : Option TransferState} {events : List Message}
    (h : verdict R C f w cmd = .refuse root events) :
    ∃ m, events = [m] ∧ m.isStateEvent = false := by
  cases hd : decision C cmd with
  | none =>
    cases cmd with
    | prepareTransferCmd payload =>
      rw [verdict] at h
      split at h
      · split at h
        · cases h
          exact ⟨_, rfl, rfl⟩
        · cases h
      · cases h
    | _ => cases hd
  | some decide =>
    rw [verdict_of_decision hd] at h
    cases hv : R.view w.repo cmd.transferId with
    | none =>
      rw [hv] at h
      cases h
      exact ⟨_, rfl, rfl⟩
    | some s =>
      rw [hv] at h
      rcases decision_cases hd s with ⟨s', events', hs, -⟩ | ⟨s', reason, hs, -⟩
      · rw [verdictOn, hs] at h
        cases h
      · rw [verdictOn, hs] at h
        cases h
        exact ⟨_, rfl, rfl⟩

/-- The checks of the handler are what the verdict goes by. -/
theorem accepted_isSome_iff (hadd : ¬ (f.add = false ∧ cmd.isPrepare = true)) :
    (verdict R C f w cmd).accepted.isSome = true ↔ Accepts R C w cmd := by
  cases cmd with
  | prepareTransferCmd payload =>
    have hadd' : f.add = true := by
      cases h : f.add with
      | false => exact absurd ⟨h, rfl⟩ hadd
      | true => rfl
    rw [verdict, if_pos hadd', Accepts]
    by_cases hdup : payload.transferId ∈ w.duplicates
    · rw [if_pos hdup]
      exact ⟨fun h => (by cases h), fun h => absurd hdup h⟩
    · rw [if_neg hdup]
      exact ⟨fun _ => hdup, fun _ => rfl⟩
  | ackPayerFundsReservedCmd payload =>
    rw [verdict, Accepts]
    cases R.view w.repo payload.transferId with
    | none => simp [verdictOn, Verdict.accepted]
    | some s =>
      by_cases hstate : s.transferInternalState = .receivedPrepare <;>
        simp [verdictOn, decideAckPayerFundsReserved, invalidState, Decision.verdict,
          Verdict.accepted, hstate]
  | fulfilTransferCmd payload =>
    rw [verdict, Accepts]
    cases R.view w.repo payload.transferId with
    | none => simp [verdictOn, Verdict.accepted]
    | some s =>
      by_cases hstate : s.transferInternalState = .reserved
      · rw [verdictOn, decideFulfil, if_neg (not_not.mpr hstate)]
        rcases TransferState.fulfilTransfer_cases C s (fulfilTransferData payload) with
          ⟨hlen, hres⟩ | ⟨-, hnot, hres⟩ | ⟨hfulfils, hres⟩
        · have hnot : ¬ TransferState.Fulfils C s.condition payload.fulfilment :=
            fun h => hlen h.1
          simp [hres, Decision.verdict, Verdict.accepted, hnot]
        · have hnot' : ¬ TransferState.Fulfils C s.condition payload.fulfilment := hnot
          simp [hres, Decision.verdict, Verdict.accepted, hnot']
        · have hfulfils' : TransferState.Fulfils C s.condition payload.fulfilment := hfulfils
          simp [hres, Decision.verdict, Verdict.accepted, hstate, hfulfils']
      · simp [verdictOn, decideFulfil, invalidState, Decision.verdict, Verdict.accepted, hstate]
  | ackPayeeFundsCommittedCmd payload =>
    rw [verdict, Accepts]
    cases R.view w.repo payload.transferId with
    | none => simp [verdictOn, Verdict.accepted]
    | some s =>
      by_cases hstate : s.transferInternalState = .receivedFulfil <;>
        simp [verdictOn, decideAckPayeeFundsCommitted, invalidState, Decision.verdict,
          Verdict.accepted, hstate]

/-- What an accepted command has to say: an announcement, and a record that tells the
transfer as it is to be stored and not as it was. -/
structure Recorded (id : String) (before : Option TransferState) (s' : TransferState)
    (announcement stateEvent : Message) : Prop where
  announces : announcement.isStateEvent = false
  records : stateEvent.isStateEvent = true
  after : ∀ shown, shown id = some s' → stateEvent.ReflectedIn shown
  before : ∀ shown, shown id = before → ¬ stateEvent.ReflectedIn shown

theorem Recorded.ne {id : String} {before : Option TransferState} {s' : TransferState}
    {m m' : Message} (h : Recorded id before s' m m') : m ≠ m' := by
  intro he
  have hm := h.announces
  rw [he, h.records] at hm
  cases hm

theorem Advances.recorded {s s' : TransferState} {events : List Message} {id : String}
    (h : Advances C s cmd s' events) (hid : s.id = id) :
    ∃ m m', events = [m, m'] ∧ Recorded id (some s) s' m m' := by
  subst hid
  cases h with
  | reserve payload hstate =>
    refine ⟨_, _, rfl, rfl, rfl, fun shown hs => ?_, fun shown hs he => ?_⟩
    · rw [Message.ReflectedIn, hs]
      rfl
    · rw [Message.ReflectedIn, hs, Option.map_some, hstate] at he
      cases he
  | fulfil payload hstate hfulfils =>
    refine ⟨_, _, rfl, rfl, rfl, fun shown hs => ?_, fun shown hs he => ?_⟩
    · rw [Message.ReflectedIn, hs]
      rfl
    · rw [Message.ReflectedIn, hs, Option.map_some, hstate] at he
      cases congrArg Prod.fst (Option.some.inj he)
  | commit payload hstate =>
    refine ⟨_, _, rfl, rfl, rfl, fun shown hs => ?_, fun shown hs he => ?_⟩
    · rw [Message.ReflectedIn, hs]
      rfl
    · rw [Message.ReflectedIn, hs, Option.map_some, hstate] at he
      cases he

/-- The two messages of an accepted command. -/
theorem accepted_recorded (hw : WellKept R w) {s' : TransferState}
    (h : (verdict R C f w cmd).accepted = some s') :
    ∃ m m', (verdict R C f w cmd).events = [m, m'] ∧
      Recorded cmd.transferId (R.view w.repo cmd.transferId) s' m m' := by
  rcases verdict_cases R C f w cmd with
    ⟨-, hv⟩ | ⟨payload, rfl, hnew, hv⟩ | ⟨_, _, hv, -⟩ | ⟨s, _, events, hv, hs, hadv⟩
  · rw [hv] at h
    cases h
  · rw [hv] at h
    obtain rfl := Option.some.inj h
    rw [hv, show R.view w.repo (Command.prepareTransferCmd payload).transferId = none from
      hw.view_of_unseen hnew]
    refine ⟨_, _, rfl, rfl, rfl, fun shown hs => hs, fun shown hs he => ?_⟩
    have he' : shown payload.transferId = some _ := he
    rw [show shown payload.transferId = none from hs] at he'
    cases he'
  · rw [hv] at h
    cases h
  · rw [hv] at h
    obtain rfl := Option.some.inj h
    rw [hv, hs]
    exact hadv.recorded (hw.view_id _ s hs)

theorem verdict_reject (h : verdict R C f w cmd = .reject) :
    f.add = false ∧ cmd.isPrepare = true := by
  cases hd : decision C cmd with
  | none =>
    cases cmd with
    | prepareTransferCmd payload =>
      rcases verdict_cases R C f w (.prepareTransferCmd payload) with
        ⟨hadd, -⟩ | ⟨_, -, -, hv⟩ | ⟨_, _, hv, -⟩ | ⟨_, _, _, hv, -⟩
      · exact ⟨hadd, rfl⟩
      all_goals
        rw [h] at hv
        cases hv
    | _ => cases hd
  | some decide =>
    rw [verdict_of_decision hd] at h
    cases hv : R.view w.repo cmd.transferId with
    | none =>
      rw [hv] at h
      cases h
    | some s =>
      rw [hv, verdictOn, Decision.verdict] at h
      split at h <;> cases h

/-- What is shown of an accepted transfer while nothing is stored. -/
theorem handledView_of_accepted {s' : TransferState} {before : Option TransferState}
    (h : (verdict R C f w cmd).accepted = some s') :
    (verdict R C f w cmd).handledView R.aliased before =
      if R.aliased = true ∧ cmd.isPrepare = false then some s' else before := by
  rcases verdict_cases R C f w cmd with
    ⟨-, hv⟩ | ⟨payload, rfl, -, hv⟩ | ⟨_, _, hv, -⟩ | ⟨s, _, events, hv, -, hadv⟩
  · rw [hv] at h
    cases h
  · rw [hv, if_neg fun hp => (by cases hp.2)]
    rfl
  · rw [hv] at h
    cases h
  · have hprepare : cmd.isPrepare = false := by cases hadv <;> rfl
    rw [hv] at h ⊢
    obtain rfl := Option.some.inj h
    simp only [Verdict.handledView, hprepare, and_true]

/-- Nothing is sent for a refusal but the one event, which records nothing. -/
theorem refused_matches_iff (hR : R.Lawful TransferState.id)
    (hadd : ¬ (f.add = false ∧ cmd.isPrepare = true))
    (h : (verdict R C f w cmd).accepted = none) :
    PublishedMatchesStored R (processCommand R C f w cmd) ↔ f.publish₁.isOk = true ∨ ¬ SentTwice f 0 := by
  obtain ⟨m, hevents, hm⟩ :
      ∃ m, (verdict R C f w cmd).events = [m] ∧ m.isStateEvent = false := by
    cases hv : verdict R C f w cmd with
    | reject => exact absurd (verdict_reject hv) hadd
    | prepare s =>
      rw [hv] at h
      cases h
    | refuse root events => exact refuse_events hv
    | advance root root' events =>
      rw [hv] at h
      cases h
  have hreflected : ∀ m' ∈ (processCommand R C f w cmd).published,
      m'.ReflectedIn (R.view (processCommand R C f w cmd).repo.repo) := by
    intro m' hm'
    rw [processCommand_published hR] at hm'
    have hmem := Verdict.mem_events_of_mem_published hm'
    rw [hevents, List.mem_singleton] at hmem
    rw [hmem]
    exact Message.reflectedIn_of_not_isStateEvent hm _
  rw [PublishedMatchesStored, and_iff_right hreflected, processCommand_published hR,
    Verdict.published, hevents]
  cases hok : f.publish₁.isOk with
  | true => simp
  | false =>
    rw [if_neg Bool.false_ne_true, PublishOutcome.nodup_delivered_append (List.nodup_singleton m)]
    simp [SentTwice]

/-- The accepted transfer is shown afterwards. -/
def ShownAfter (R : StateRepo TransferState) (f : Faults) (cmd : Command) : Prop :=
  (f.publish₁.isOk = true ∧ (f.store = true ∨ R.aliased = true)) ∨
    (R.aliased = true ∧ cmd.isPrepare = false)

theorem reflected_iff (hR : R.Lawful TransferState.id) (hw : WellKept R w) {s' : TransferState}
    (hacc : (verdict R C f w cmd).accepted = some s') {m m' : Message}
    (hrec : Recorded cmd.transferId (R.view w.repo cmd.transferId) s' m m') :
    m'.ReflectedIn (R.view (processCommand R C f w cmd).repo.repo) ↔ ShownAfter R f cmd := by
  have hview := processCommand_view_self (C := C) (f := f) hR (hw.keyed cmd)
  rw [Verdict.finalView, hacc, handledView_of_accepted hacc, Option.isSome_some,
    Bool.true_and] at hview
  rw [ShownAfter]
  by_cases hstored : f.publish₁.isOk = true ∧ (f.store = true ∨ R.aliased = true)
  · rw [if_pos (by simpa using hstored)] at hview
    exact ⟨fun _ => Or.inl hstored, fun _ => hrec.after _ hview⟩
  · rw [if_neg (by simpa using hstored)] at hview
    by_cases haliased : R.aliased = true ∧ cmd.isPrepare = false
    · rw [if_pos haliased] at hview
      exact ⟨fun _ => Or.inr haliased, fun _ => hrec.after _ hview⟩
    · rw [if_neg haliased] at hview
      exact ⟨fun h => absurd h (hrec.before _ hview), fun h => absurd h (not_or.mpr ⟨hstored, haliased⟩)⟩

theorem accepted_matches_iff (hR : R.Lawful TransferState.id) (hw : WellKept R w)
    {s' : TransferState} (hacc : (verdict R C f w cmd).accepted = some s') :
    PublishedMatchesStored R (processCommand R C f w cmd) ↔
      if f.publish₁.isOk then f.store = true ∨ R.aliased = true
      else ¬ SentTwice f 0 ∧ ¬ SentTwice f 1 ∧
        (f.publish₁.deliversAt 1 = true ∨ f.publish₂.deliversAt 1 = true →
          R.aliased = true ∧ cmd.isPrepare = false) := by
  obtain ⟨m, m', hevents, hrec⟩ := accepted_recorded hw hacc
  have hreflected := reflected_iff hR hw hacc hrec
  have hnodup : [m, m'].Nodup := List.nodup_cons.mpr
    ⟨fun h => hrec.ne (List.mem_singleton.mp h), List.nodup_singleton m'⟩
  -- only the record of the change has something to match
  have hall : (∀ x ∈ (processCommand R C f w cmd).published,
      x.ReflectedIn (R.view (processCommand R C f w cmd).repo.repo)) ↔
        (m' ∈ (processCommand R C f w cmd).published → ShownAfter R f cmd) := by
    constructor
    · intro h hm'
      exact hreflected.mp (h m' hm')
    · intro h x hx
      have hmem := hx
      rw [processCommand_published hR] at hmem
      have hcases := Verdict.mem_events_of_mem_published hmem
      rw [hevents, List.mem_cons, List.mem_singleton] at hcases
      rcases hcases with rfl | rfl
      · exact Message.reflectedIn_of_not_isStateEvent hrec.announces _
      · exact hreflected.mpr (h hx)
  rw [PublishedMatchesStored, hall, processCommand_published hR, Verdict.published, hevents,
    ShownAfter]
  cases hok : f.publish₁.isOk with
  | true =>
    have hmem : m' ∈ [m, m'] := List.mem_cons_of_mem m (List.mem_singleton_self m')
    simp only [if_true, hnodup, and_true, true_and]
    exact ⟨fun h => (h hmem).elim id fun ha => Or.inr ha.1, fun h _ => Or.inl h⟩
  | false =>
    have hsnd : ∀ o : PublishOutcome, m' ∈ o.delivered [m, m'] ↔ o.deliversAt 1 = true := by
      intro o
      rw [PublishOutcome.mem_delivered_iff]
      constructor
      · rintro ⟨i, hi, ho⟩
        cases i with
        | zero => exact absurd (Option.some.inj hi) hrec.ne
        | succ i =>
          cases i with
          | zero => exact ho
          | succ i => cases hi
      · exact fun ho => ⟨1, rfl, ho⟩
    have htwo : (∀ i < [m, m'].length,
        ¬ (f.publish₁.deliversAt i = true ∧ f.publish₂.deliversAt i = true)) ↔
          ¬ SentTwice f 0 ∧ ¬ SentTwice f 1 := by
      constructor
      · exact fun h => ⟨h 0 Nat.zero_lt_two, h 1 Nat.one_lt_two⟩
      · rintro ⟨h₀, h₁⟩ i hi
        obtain rfl | rfl : i = 0 ∨ i = 1 := by
          have hlt : i < 2 := hi
          omega
        · exact h₀
        · exact h₁
    rw [if_neg Bool.false_ne_true, if_neg Bool.false_ne_true,
      PublishOutcome.nodup_delivered_append hnodup, htwo, List.mem_append, hsnd, hsnd]
    simp only [Bool.false_eq_true, false_and, false_or]
    tauto

end

/-- The events of a command match what is stored, each sent once, exactly when its failures
are clean. -/
theorem published_matches_stored_iff (kind : RepoInfraTypes) (C : Crypto)
    (ls : List (Faults × Command)) (f : Faults) (cmd : Command) :
    PublishedMatchesStored kind.repo (processCommand kind.repo C f (reached kind.repo C ls) cmd) ↔
      CleanFailure kind.repo C f (reached kind.repo C ls) cmd := by
  have hw := reached_wellKept kind.repo_lawful C ls
  rw [CleanFailure]
  by_cases hadd : f.add = false ∧ cmd.isPrepare = true
  · rw [or_iff_left_of_imp fun _ => hadd, iff_true_right hadd]
    obtain ⟨payload, rfl⟩ : ∃ payload, cmd = .prepareTransferCmd payload := by
      cases cmd with
      | prepareTransferCmd payload => exact ⟨payload, rfl⟩
      | _ => cases hadd.2
    have hnone : (processCommand kind.repo C f (reached kind.repo C ls)
        (.prepareTransferCmd payload)).published = [] := by
      rw [processCommand_published kind.repo_lawful, verdict, if_neg (by simp [hadd.1]),
        Verdict.published, Verdict.events]
      split <;> simp
    rw [PublishedMatchesStored, hnone]
    exact ⟨fun m hm => (by cases hm), List.nodup_nil⟩
  · rw [or_iff_right hadd, ← accepted_isSome_iff hadd]
    cases hacc : (verdict kind.repo C f (reached kind.repo C ls) cmd).accepted with
    | none =>
      rw [refused_matches_iff kind.repo_lawful hadd hacc]
      cases f.publish₁.isOk <;> simp
    | some s' =>
      rw [accepted_matches_iff kind.repo_lawful hw hacc]
      simp

/-- Redis: the first call delivers the announcement alone and fails, the `catch` sends both
messages, and the transfer is never stored. -/
theorem state_event_without_store :
    let f : Faults := { Faults.none with publish₁ := .failed [true, false] }
    let settled := processCommand redisTransferStateRepo sampleCrypto f World.start
      (.prepareTransferCmd samplePrepare)
    let transfer := TransferState.prepareTransfer (prepareTransferData samplePrepare)
    settled.published = [.transferPrepareAcceptedEvt transfer.terms,
      .transferPrepareAcceptedEvt transfer.terms, .transferPreparedStateEvt transfer] ∧
    redisTransferStateRepo.view settled.repo.repo "t1" = none ∧
    ¬ PublishedMatchesStored redisTransferStateRepo settled := by
  decide +kernel

/-! ## Trying a prepare again -/

/-- If the command is rejected, processing it once more without failures finds no duplicate,
stores the transfer, and the acceptance has been announced by then. -/
def CanBeRetried (C : Crypto) (f : Faults) (w : World) (payload : PrepareTransferCmdPayload) :
    Prop :=
  let first := processCommand redisTransferStateRepo C f w (.prepareTransferCmd payload)
  let second := processCommand redisTransferStateRepo C Faults.none first.repo
    (.prepareTransferCmd payload)
  first.outcome = none →
    .duplicateTransferDetectedEvt payload.transferId ∉ second.published ∧
    (∃ s, stored second.repo payload.transferId = some s ∧
      s.transferInternalState = .receivedPrepare ∧ s.prepareData = prepareTransferData payload) ∧
    .transferPrepareAcceptedEvt payload.terms ∈ first.published ++ second.published

section Retry

variable {C : Crypto} {f : Faults} {w : World} {payload : PrepareTransferCmdPayload}

/-- A prepare whose `SADD` fails leaves nothing behind. -/
theorem prepare_unadded (hadd : f.add = false) :
    processCommand redisTransferStateRepo C f w (.prepareTransferCmd payload) =
      { repo := w, published := [], outcome := none } := by
  rw [processCommand, handle, processPrepareTransferCommand, hadd, if_neg Bool.false_ne_true,
    finish]
  simp

/-- A new prepare is rejected when its publish or its store fails. -/
theorem prepare_outcome (hadd : f.add = true) (hnew : payload.transferId ∉ w.duplicates) :
    (processCommand redisTransferStateRepo C f w (.prepareTransferCmd payload)).outcome =
      if f.publish₁.isOk = true ∧ f.store = true then some true else none := by
  rw [processCommand, handle, processPrepareTransferCommand, if_pos hadd, addDuplicate,
    decide_eq_true hnew, if_pos rfl, finish]
  cases hok : f.publish₁.isOk with
  | false => simp
  | true =>
    cases hstore : f.store with
    | false => simp [store, redisTransferStateRepo, StateRepo.redisRepo]
    | true => simp [store, redisTransferStateRepo, StateRepo.redisRepo]

/-- Without failures a new prepare is accepted, announced and stored. -/
theorem prepare_accepted (hw : WellKept redisTransferStateRepo w)
    (hnew : payload.transferId ∉ w.duplicates) :
    (processCommand redisTransferStateRepo C Faults.none w
        (.prepareTransferCmd payload)).published =
      [.transferPrepareAcceptedEvt payload.terms,
        .transferPreparedStateEvt (TransferState.prepareTransfer (prepareTransferData payload))] ∧
    stored (processCommand redisTransferStateRepo C Faults.none w
        (.prepareTransferCmd payload)).repo payload.transferId =
      some (TransferState.prepareTransfer (prepareTransferData payload)) := by
  have hv : verdict redisTransferStateRepo C Faults.none w (.prepareTransferCmd payload) =
      .prepare (TransferState.prepareTransfer (prepareTransferData payload)) := by
    rw [verdict, if_pos (show Faults.none.add = true from rfl), if_neg hnew]
  constructor
  · rw [processCommand_published redis_lawful, hv]
    rfl
  · have hview := processCommand_view_self (C := C) (f := Faults.none) redis_lawful
      (hw.keyed (.prepareTransferCmd payload))
    rw [hv] at hview
    exact hview

end Retry

/-- A prepare of a new transfer can be tried again exactly when its id did not get into the
duplicate set, or when nothing failed after that. -/
theorem prepare_retry_iff (C : Crypto) (ls : List (Faults × Command)) (f : Faults)
    (payload : PrepareTransferCmdPayload)
    (hnew : payload.transferId ∉ (reached redisTransferStateRepo C ls).duplicates) :
    CanBeRetried C f (reached redisTransferStateRepo C ls) payload ↔
      f.add = false ∨ (f.publish₁.isOk = true ∧ f.store = true) := by
  have hw := reached_wellKept redis_lawful C ls
  unfold CanBeRetried
  dsimp only
  cases hadd : f.add with
  | false =>
    rw [prepare_unadded hadd]
    obtain ⟨hpublished, hstored⟩ := prepare_accepted (C := C) hw hnew
    refine ⟨fun _ => Or.inl rfl, fun _ _ => ⟨?_, ?_, ?_⟩⟩
    · rw [hpublished]
      simp
    · exact ⟨_, hstored, rfl, rfl⟩
    · rw [hpublished]
      exact List.mem_cons_self
  | true =>
    rw [prepare_outcome hadd hnew]
    by_cases hfine : f.publish₁.isOk = true ∧ f.store = true
    · rw [if_pos hfine]
      exact ⟨fun _ => Or.inr hfine, fun _ h => (by cases h)⟩
    · rw [if_neg hfine]
      refine ⟨fun h => absurd ?_ (h rfl).1, fun h => absurd h (by simpa using hfine)⟩
      -- the id stayed in the set, so the second attempt is taken for a duplicate
      have hseen : payload.transferId ∈ (processCommand redisTransferStateRepo C f
          (reached redisTransferStateRepo C ls) (.prepareTransferCmd payload)).repo.duplicates := by
        rw [processCommand_duplicates redis_lawful, verdict, if_pos hadd, if_neg hnew]
        exact Finset.mem_insert_self _ _
      rw [processCommand_published redis_lawful, verdict,
        if_pos (show Faults.none.add = true from rfl), if_pos hseen]
      exact List.mem_singleton_self _

/-- Two other transfers, the first reserved and the second accepted but not stored. -/
def sampleEarlier : List (Faults × Command) :=
  [(Faults.none, .prepareTransferCmd { samplePrepare with transferId := "t2" }),
    (Faults.none, .ackPayerFundsReservedCmd { sampleAck with transferId := "t2" }),
    ({ Faults.none with store := false },
      .prepareTransferCmd { samplePrepare with transferId := "t3" })]

def failedAdd : Faults := { Faults.none with add := false }

/-- The announcement gets out in the `catch`. -/
def failedPublish : Faults :=
  { Faults.none with publish₁ := .failed [], publish₂ := .failed [true, false] }

/-- After the other transfers, a prepare that fails before and one that fails after its id got
into the set. -/
theorem prepare_retry_iff_sample :
    (CanBeRetried sampleCrypto failedAdd
        (reached redisTransferStateRepo sampleCrypto sampleEarlier) samplePrepare ↔
      failedAdd.add = false ∨ (failedAdd.publish₁.isOk = true ∧ failedAdd.store = true)) ∧
    (CanBeRetried sampleCrypto failedPublish
        (reached redisTransferStateRepo sampleCrypto sampleEarlier) samplePrepare ↔
      failedPublish.add = false ∨
        (failedPublish.publish₁.isOk = true ∧ failedPublish.store = true)) :=
  have hnew : samplePrepare.transferId ∉
      (reached redisTransferStateRepo sampleCrypto sampleEarlier).duplicates := by decide +kernel
  ⟨prepare_retry_iff sampleCrypto sampleEarlier failedAdd samplePrepare hnew,
    prepare_retry_iff sampleCrypto sampleEarlier failedPublish samplePrepare hnew⟩

/-- The first prepare cannot be published; the second one is answered as a duplicate, and
the transfer exists nowhere. -/
theorem failed_prepare_taken_for_duplicate :
    let f : Faults := { Faults.none with publish₁ := .failed [], publish₂ := .failed [] }
    let first := processCommand redisTransferStateRepo sampleCrypto f World.start
      (.prepareTransferCmd samplePrepare)
    let second := processCommand redisTransferStateRepo sampleCrypto Faults.none first.repo
      (.prepareTransferCmd samplePrepare)
    first.outcome = none ∧ first.published = [] ∧
    second.published = [.duplicateTransferDetectedEvt "t1"] ∧ stored second.repo "t1" = none ∧
    ¬ CanBeRetried sampleCrypto f World.start samplePrepare := by
  refine ⟨by decide +kernel, by decide +kernel, by decide +kernel, by decide +kernel, fun h => ?_⟩
  exact absurd (h (by decide +kernel)).1 (by decide +kernel)

end TransfersAgg

end Transfers
end PocArchitecture
