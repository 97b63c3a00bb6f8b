/-
The exact outcome of a reserve and of a commit over Redis, without failures.

The store is any store in which every participant is cached under its own id.  A reserve
goes through exactly when the two participants, the two accounts, the limit and the
strict comparison allow it, and otherwise leaves one refusal and nothing else.  A commit
repeats the checks by hand and in another order: it does not look at the amount, and it
reports a payer without the account under the id of the payee.
-/
import PocArchitecture.Participants.Positions
import PocArchitecture.Participants.ReadSide

namespace PocArchitecture
namespace Participants

open PublicMessages Infrastructure
open Domain (Loaded PublishOutcome Settled)
open Domain.BaseEventSourcingAggregate

namespace ParticipantState

variable {B : BigNumber} {s : ParticipantState} {currency : CurrencyTypes} {amount : String}

/-- The check of a reserve on values: the account, its limit, and position plus amount
strictly below it. -/
theorem canReserveFunds_iff :
    s.canReserveFunds B currency amount = .ok true ↔
      ∃ account limit, s.getAccount .position currency = some account ∧
        getLimitFromAccount account .netDebitCap = some limit ∧
        ExtendedRat.lt (.fin 0) (B.valueOf amount) = true ∧
        ((B.valueOf account.position).add (B.valueOf amount)).lt (B.valueOf limit.value) = true := by
  have hpositive : ExtendedRat.lt (.fin 0) (B.valueOf amount) = true ↔
      (B.isNaN (B.ofString amount) ||
        B.isLessThanOrEqualTo (B.ofString amount) B.zero) = false := by
    rw [ExtendedRat.lt_iff_not_le rfl, Bool.or_eq_false_iff, B.isNaN_eq,
      B.isLessThanOrEqualTo_eq, B.value_zero]
    rfl
  constructor
  · intro h
    obtain ⟨s', hres⟩ := ParticpantsAgg.reserveFunds_iff.mpr h
    obtain ⟨account, limit, hacc, hlim, hnan, hle, hlt, -⟩ := reserveFunds_ok hres
    rw [B.isLessThan_eq, B.value_plus] at hlt
    exact ⟨account, limit, hacc, hlim, hpositive.mpr (by rw [hnan, hle]; rfl), hlt⟩
  · rintro ⟨account, limit, hacc, hlim, hamount, hlt⟩
    have hnan : B.isNaN (B.ofString account.position) = false := by
      rw [B.isNaN_eq]
      change (B.valueOf account.position).isNaN = false
      cases hv : B.valueOf account.position with
      | nan =>
        rw [hv, ExtendedRat.nan_add, ExtendedRat.not_nan_lt] at hlt
        cases hlt
      | _ => rfl
    rw [hpositive] at hamount
    rw [canReserveFunds]
    simp only [hamount, hacc, hlim, hnan, Bool.false_eq_true, if_false]
    rw [B.isLessThan_eq, B.value_plus]
    exact congrArg Except.ok hlt

end ParticipantState

namespace ParticpantsAgg

variable {B : BigNumber} {w : World} {cmd : Command}

/-- Every participant is in Redis, under its own id. -/
structure Cached (w : World) : Prop where
  keyed : ∀ id s, stored w id = some s → s.id = id
  allStored : AllStored w

theorem Cached.keyed_root (h : Cached w) (cmd : Command) (s : ParticipantState)
    (hs : lookup redisParticipantStateRepo applyStateEvent w cmd.rootId = .found s) :
    s.id = cmd.rootId :=
  h.keyed _ s (h.allStored.lookup_found hs)

/-- A load finds what Redis holds. -/
theorem Cached.lookup_eq (h : Cached w) (id : String) :
    lookup redisParticipantStateRepo applyStateEvent w id =
      match stored w id with
      | some s => .found s
      | none => .notFound := by
  cases hs : stored w id with
  | some s => exact lookup_of_view hs
  | none => exact h.allStored id hs

theorem Cached.published_eq (h : Cached w) (B : BigNumber) (cmd : Command) :
    (process B w cmd).published = (verdict redisParticipantStateRepo B w cmd).published
      Faults.none :=
  processCommand_published redis_lawful (h.keyed_root cmd)

/-- A refused command: one message, and every participant as it was. -/
theorem Cached.refused (h : Cached w) {root : Option ParticipantState} {m : Message}
    (hv : verdict redisParticipantStateRepo B w cmd = .refuse root [m]) :
    (process B w cmd).published = [m] ∧
      ∀ id, stored (process B w cmd).repo id = stored w id := by
  constructor
  · rw [h.published_eq, hv]
    rfl
  · refine stored_process_same (h.keyed_root cmd) h.allStored B fun s hs => ?_
    rw [hv] at hs
    cases hs

/-- An accepted money command: two messages, and one participant moved. -/
theorem Cached.accepted (h : Cached w) {root root' : ParticipantState} {m stateEvent : Message}
    (hv : verdict redisParticipantStateRepo B w cmd = .move root root' [m] stateEvent) :
    (process B w cmd).published = [m, stateEvent] ∧
      stored (process B w cmd).repo cmd.rootId = some root' ∧
      ∀ id, id ≠ cmd.rootId → stored (process B w cmd).repo id = stored w id := by
  refine ⟨?_, ?_, fun id hid => stored_process_ne (h.keyed_root cmd) hid⟩
  · rw [h.published_eq, hv]
    rfl
  · rw [stored_process_root (h.keyed_root cmd) h.allStored B, hv]
    rfl

/-! ## A reserve -/

/-- The two participants, the two accounts, the limit, and position plus amount below it. -/
def Reservable (B : BigNumber) (w : World) (payload : ReservePayerFundsCmdPayload) : Prop :=
  ∃ payer payee account limit,
    stored w payload.payerId = some payer ∧ stored w payload.payeeId = some payee ∧
    payee.hasAccount .position payload.currency = true ∧
    payer.getAccount .position payload.currency = some account ∧
    getLimitFromAccount account .netDebitCap = some limit ∧
    ExtendedRat.lt (.fin 0) (B.valueOf payload.amount) = true ∧
    ((B.valueOf account.position).add (B.valueOf payload.amount)).lt (B.valueOf limit.value) = true

/-- The payer stands higher by exactly the amount, and both events say where. -/
def ReservedExactly (B : BigNumber) (w : World) (payload : ReservePayerFundsCmdPayload)
    (after : World) (published : List Message) : Prop :=
  ∃ payer payee account position p a,
    stored w payload.payerId = some payer ∧ stored w payload.payeeId = some payee ∧
    payer.getAccount .position payload.currency = some account ∧
    B.valueOf account.position = .fin p ∧ B.valueOf payload.amount = .fin a ∧
    B.valueOf position = .fin (p + a) ∧
    stored after payload.payerId = some (payer.setPosition payload.currency position) ∧
    (∀ id, id ≠ payload.payerId → stored after id = stored w id) ∧
    published =
      [.payerFundsReservedEvt
        { transferId := payload.transferId, payerId := payload.payerId,
          currency := payload.currency, currentPosition := position,
          payerEndPoints := payer.endpoints, payeeEndPoints := payee.endpoints },
        positionChanged payer payload.currency position]

/-- Nothing stored changes, and one refusal is all that is published. -/
def ReserveRefused (w after : World) (published : List Message) : Prop :=
  (∀ id, stored after id = stored w id) ∧
    ∃ m, published = [m] ∧
      ((∃ participantId transferId reason,
          m = .invalidParticipantEvt participantId transferId reason) ∨
        ∃ transferId payerId reason, m = .netCapLimitExceededEvt transferId payerId reason)

theorem Cached.admits_reserve_iff (h : Cached w) {payload : ReservePayerFundsCmdPayload} :
    Admits redisParticipantStateRepo B w (.reservePayerFundsCmd payload) ↔
      Reservable B w payload := by
  constructor
  · rintro ⟨payer, payee, hpayer, hpayee, hhas, hcan⟩
    obtain ⟨account, limit, hacc, hlim, hamount, hlt⟩ :=
      ParticipantState.canReserveFunds_iff.mp hcan
    exact ⟨payer, payee, account, limit, h.allStored.lookup_found hpayer, hpayee, hhas, hacc,
      hlim, hamount, hlt⟩
  · rintro ⟨payer, payee, account, limit, hpayer, hpayee, hhas, hacc, hlim, hamount, hlt⟩
    refine ⟨payer, payee, lookup_of_view hpayer, hpayee, hhas, ?_⟩
    exact ParticipantState.canReserveFunds_iff.mpr ⟨account, limit, hacc, hlim, hamount, hlt⟩

theorem Cached.reserve_accepted (h : Cached w) {payload : ReservePayerFundsCmdPayload}
    (hfinite : ∀ id s, stored w id = some s → s.FinitePositions B)
    (hres : Reservable B w payload) :
    ReservedExactly B w payload (process B w (.reservePayerFundsCmd payload)).repo
      (process B w (.reservePayerFundsCmd payload)).published := by
  obtain ⟨payer, payee, account, limit, hpayer, hpayee, hhas, hacc, hlim, hamount, hlt⟩ := hres
  have hcan : payer.canReserveFunds B payload.currency payload.amount = .ok true :=
    ParticipantState.canReserveFunds_iff.mpr ⟨account, limit, hacc, hlim, hamount, hlt⟩
  obtain ⟨payer', hpayer'⟩ := reserveFunds_iff.mpr hcan
  have hpositive := ParticipantState.positive_of_reserveFunds (hfinite _ payer hpayer) hpayer'
  obtain ⟨p, hp⟩ := hfinite _ payer hpayer payload.currency account hacc
  obtain ⟨a, ha, -⟩ := hpositive
  have hlookup : lookup redisParticipantStateRepo applyStateEvent w payload.payerId =
      .found payer := lookup_of_view hpayer
  have hmoved := ParticipantState.reserveFunds_ok hpayer'
  obtain ⟨account', -, hacc', -, -, -, -, hset⟩ := hmoved
  rw [hacc] at hacc'
  obtain rfl := Option.some.inj hacc'
  generalize hposition : B.toString (B.plus (B.ofString account.position)
    (B.ofString payload.amount)) = position at hset
  have hvalue : B.valueOf position = .fin (p + a) := by
    rw [← hposition, B.valueOf_toString, B.value_plus_ofString, hp, ha, ExtendedRat.add_fin]
  have hcurrent : payer'.getCurrentPosition payload.currency = .ok position := by
    rw [hset]
    exact ParticipantState.getCurrentPosition_setPosition hacc position
  have hverdict : verdict redisParticipantStateRepo B w (.reservePayerFundsCmd payload) =
      .move payer payer'
        [.payerFundsReservedEvt
          { transferId := payload.transferId, payerId := payload.payerId,
            currency := payload.currency, currentPosition := position,
            payerEndPoints := payer'.endpoints, payeeEndPoints := payee.endpoints }]
        (positionChanged payer' payload.currency position) := by
    change redisParticipantStateRepo.view w.repo payload.payeeId = some payee at hpayee
    simp only [verdict, hlookup, hpayee, decideReserve, hhas, if_true, hpayer', hcurrent,
      Decision.verdict]
  obtain ⟨hpublished, hself, hother⟩ := h.accepted hverdict
  refine ⟨payer, payee, account, position, p, a, hpayer, hpayee, hacc, hp, ha, hvalue, ?_,
    hother, ?_⟩
  · rw [← hset]
    exact hself
  · rw [hpublished, hset]
    rfl

/-- What a reserve that is not accepted reports. -/
theorem decideReserve_refuse {payload : ReservePayerFundsCmdPayload} {payer : ParticipantState}
    {counterpart : Option ParticipantState} {events : List Message}
    (h : decideReserve B payload payer counterpart = .refuse events) :
    ∃ m, events = [m] ∧
      ((∃ participantId transferId reason,
          m = .invalidParticipantEvt participantId transferId reason) ∨
        ∃ transferId payerId reason, m = .netCapLimitExceededEvt transferId payerId reason) := by
  have hcatch : ∀ e : EntityError, refuseReserve payload e = .refuse events → ∃ m, events = [m] ∧
      ((∃ participantId transferId reason,
          m = .invalidParticipantEvt participantId transferId reason) ∨
        ∃ transferId payerId reason, m = .netCapLimitExceededEvt transferId payerId reason) := by
    intro e he
    cases e with
    | invalidAccount message =>
      cases he
      exact ⟨_, rfl, Or.inl ⟨_, _, _, rfl⟩⟩
    | invalidLimit message =>
      cases he
      exact ⟨_, rfl, Or.inl ⟨_, _, _, rfl⟩⟩
    | netDebitCapLimitExceeded message =>
      cases he
      exact ⟨_, rfl, Or.inr ⟨_, _, _, rfl⟩⟩
  cases counterpart with
  | none =>
    cases h
    exact ⟨_, rfl, Or.inl ⟨_, _, _, rfl⟩⟩
  | some payee =>
    rw [decideReserve] at h
    split at h
    · split at h
      · exact hcatch _ h
      · split at h
        · exact hcatch _ h
        · cases h
    · cases h
      exact ⟨_, rfl, Or.inl ⟨_, _, _, rfl⟩⟩

theorem Cached.reserve_refused (h : Cached w) {payload : ReservePayerFundsCmdPayload}
    (hres : ¬ Reservable B w payload) :
    ReserveRefused w (process B w (.reservePayerFundsCmd payload)).repo
      (process B w (.reservePayerFundsCmd payload)).published := by
  have hnot : ¬ Admits redisParticipantStateRepo B w (.reservePayerFundsCmd payload) :=
    fun hadmits => hres (h.admits_reserve_iff.mp hadmits)
  cases hpayer : stored w payload.payerId with
  | none =>
    have hverdict : verdict redisParticipantStateRepo B w (.reservePayerFundsCmd payload) =
        .refuse none [.invalidParticipantEvt payload.payerId payload.transferId none] := by
      rw [verdict, h.lookup_eq, hpayer]
    obtain ⟨hpublished, hsame⟩ := h.refused hverdict
    exact ⟨hsame, _, hpublished, Or.inl ⟨_, _, _, rfl⟩⟩
  | some payer =>
    have hverdict : verdict redisParticipantStateRepo B w (.reservePayerFundsCmd payload) =
        (decideReserve B payload payer (stored w payload.payeeId)).verdict payer := by
      rw [verdict, h.lookup_eq, hpayer]
      rfl
    cases hd : decideReserve B payload payer (stored w payload.payeeId) with
    | refuse events =>
      rw [hd] at hverdict
      obtain ⟨m, rfl, hm⟩ := decideReserve_refuse hd
      obtain ⟨hpublished, hsame⟩ := h.refused hverdict
      exact ⟨hsame, m, hpublished, hm⟩
    | accept payer' events stateEvent =>
      rw [hd] at hverdict
      exact absurd (admits_iff.mpr ⟨payer, payer', (verdict_move hverdict).1⟩) hnot

/-! The two participants of the example. -/

theorem cached_sampleWorld : Cached (sampleWorld redisParticipantStateRepo) where
  keyed := (sampleWorld_wellKept redis_lawful).view_id
  allStored := by
    have hstart : WellKept redisParticipantStateRepo (start fun _ => 0) :=
      wellKept_start redis_lawful _
    have hblue := (allStored_start fun _ => 0).process hstart wholeNumbers
      (.createParticipantCmd (sampleParticipant "blue"))
    exact hblue.process (hstart.processCommand redis_lawful _ _ _) wholeNumbers
      (.createParticipantCmd (sampleParticipant "green"))

theorem finitePositions_sampleWorld (id : String) (s : ParticipantState)
    (h : stored (sampleWorld redisParticipantStateRepo) id = some s) :
    s.FinitePositions wholeNumbers := by
  have hstart : WellKept redisParticipantStateRepo (start fun _ => 0) :=
    wellKept_start redis_lawful _
  have hblue := hstart.processCommand redis_lawful wholeNumbers Faults.none
    (.createParticipantCmd (sampleParticipant "blue"))
  have hs : s = sampleParticipant "blue" ∨ s = sampleParticipant "green" := by
    by_cases hid : id = "green"
    · subst hid
      have hview : stored (sampleWorld redisParticipantStateRepo) "green" =
          some (sampleParticipant "green") := by decide +kernel
      exact Or.inr (Option.some.inj (h.symm.trans hview))
    · have hview : stored (sampleWorld redisParticipantStateRepo) id =
          stored (process wholeNumbers (start fun _ => 0)
            (.createParticipantCmd (sampleParticipant "blue"))).repo id :=
        stored_process_ne (hblue.keyed (.createParticipantCmd (sampleParticipant "green"))) hid
      rw [hview] at h
      by_cases hid' : id = "blue"
      · subst hid'
        have hview' : stored (process wholeNumbers (start fun _ => 0)
            (.createParticipantCmd (sampleParticipant "blue"))).repo "blue" =
            some (sampleParticipant "blue") := by decide +kernel
        exact Or.inl (Option.some.inj (h.symm.trans hview'))
      · have hview' : stored (process wholeNumbers (start fun _ => 0)
            (.createParticipantCmd (sampleParticipant "blue"))).repo id =
            stored (start fun _ => 0) id :=
          stored_process_ne (hstart.keyed (.createParticipantCmd (sampleParticipant "blue"))) hid'
        have hnone : some s = none := h.symm.trans hview'
        cases hnone
  have haccounts : s.accounts = (sampleParticipant "blue").accounts := by
    rcases hs with rfl | rfl <;> rfl
  intro currency account hacc
  have hmem : account ∈ s.accounts := List.mem_of_find?_eq_some hacc
  rw [haccounts] at hmem
  obtain rfl := List.mem_singleton.mp hmem
  exact ⟨0, by decide⟩

/-- A reserve, for every cached store: announced exactly when the checks hold, and then the
payer is moved by exactly the amount; otherwise one refusal and nothing else. -/
theorem reserve_exact (B : BigNumber) (w : World) (payload : ReservePayerFundsCmdPayload)
    (h : Cached w) (hfinite : ∀ id s, stored w id = some s → s.FinitePositions B) :
    ((∃ evt, .payerFundsReservedEvt evt ∈
        (process B w (.reservePayerFundsCmd payload)).published) ↔ Reservable B w payload) ∧
    (Reservable B w payload →
      ReservedExactly B w payload (process B w (.reservePayerFundsCmd payload)).repo
        (process B w (.reservePayerFundsCmd payload)).published) ∧
    (¬ Reservable B w payload →
      ReserveRefused w (process B w (.reservePayerFundsCmd payload)).repo
        (process B w (.reservePayerFundsCmd payload)).published) := by
  refine ⟨⟨?_, fun hres => ?_⟩, h.reserve_accepted hfinite, h.reserve_refused⟩
  · rintro ⟨evt, hevt⟩
    by_contra hres
    obtain ⟨-, m, hpublished, hm⟩ := h.reserve_refused hres
    rw [hpublished, List.mem_singleton] at hevt
    subst hevt
    rcases hm with ⟨_, _, _, hm⟩ | ⟨_, _, _, hm⟩ <;> cases hm
  · obtain ⟨_, _, _, _, _, _, -, -, -, -, -, -, -, -, hpublished⟩ :=
      h.reserve_accepted hfinite hres
    rw [hpublished]
    exact ⟨_, List.mem_cons_self⟩

/-- The first transfer of the example. -/
theorem reserve_exact_sample :
    ((∃ evt, .payerFundsReservedEvt evt ∈ (process wholeNumbers
        (sampleWorld redisParticipantStateRepo) (.reservePayerFundsCmd sampleTerms)).published) ↔
      Reservable wholeNumbers (sampleWorld redisParticipantStateRepo) sampleTerms) ∧
    (Reservable wholeNumbers (sampleWorld redisParticipantStateRepo) sampleTerms →
      ReservedExactly wholeNumbers (sampleWorld redisParticipantStateRepo) sampleTerms
        (process wholeNumbers (sampleWorld redisParticipantStateRepo)
          (.reservePayerFundsCmd sampleTerms)).repo
        (process wholeNumbers (sampleWorld redisParticipantStateRepo)
          (.reservePayerFundsCmd sampleTerms)).published) ∧
    (¬ Reservable wholeNumbers (sampleWorld redisParticipantStateRepo) sampleTerms →
      ReserveRefused (sampleWorld redisParticipantStateRepo)
        (process wholeNumbers (sampleWorld redisParticipantStateRepo)
          (.reservePayerFundsCmd sampleTerms)).repo
        (process wholeNumbers (sampleWorld redisParticipantStateRepo)
          (.reservePayerFundsCmd sampleTerms)).published) :=
  reserve_exact wholeNumbers (sampleWorld redisParticipantStateRepo) sampleTerms
    cached_sampleWorld finitePositions_sampleWorld

/-! ## A commit -/

/-- What is promised of a commit.  One domain event is published.  It is the committed event
only if both participants have the account and the amount is a number above zero, and then
the payee stands lower by exactly the amount.  Otherwise nothing changes, and the event
names a participant that is missing or lacks the account. -/
structure CommitExact (B : BigNumber) (w : World) (payload : CommitPayeeFundsCmdPayload)
    (after : World) (published : List Message) : Prop where
  single : (published.filter fun m => !m.isStateEvent).length = 1
  committed : (∃ evt, .payeeFundsCommittedEvt evt ∈ published) →
    ∃ payee payer account position,
      stored w payload.payeeId = some payee ∧ stored w payload.payerId = some payer ∧
      payer.hasAccount .position payload.currency = true ∧
      payee.getAccount .position payload.currency = some account ∧
      ExtendedRat.lt (.fin 0) (B.valueOf payload.amount) = true ∧
      (B.valueOf position).isNaN = false ∧
      B.valueOf position = (B.valueOf account.position).sub (B.valueOf payload.amount) ∧
      stored after payload.payeeId = some (payee.setPosition payload.currency position) ∧
      ∀ id, id ≠ payload.payeeId → stored after id = stored w id
  refused : (¬ ∃ evt, .payeeFundsCommittedEvt evt ∈ published) →
    (∀ id, stored after id = stored w id) ∧
      ∃ participantId transferId reason,
        .invalidParticipantEvt participantId transferId reason ∈ published ∧
        (participantId = payload.payeeId ∨ participantId = payload.payerId) ∧
        ∀ s, stored w participantId = some s → s.hasAccount .position payload.currency = false

/-- If the payee has the account and the payer exists, then the payer has it too, and the
amount is a number above zero that can be taken from the position. -/
def CommitChecked (B : BigNumber) (w : World) (payload : CommitPayeeFundsCmdPayload) : Prop :=
  ∀ payee payer account,
    stored w payload.payeeId = some payee → stored w payload.payerId = some payer →
    payee.getAccount .position payload.currency = some account →
    payer.hasAccount .position payload.currency = true ∧
      ExtendedRat.lt (.fin 0) (B.valueOf payload.amount) = true ∧
      ((B.valueOf account.position).sub (B.valueOf payload.amount)).isNaN = false

section Commit

variable {payload : CommitPayeeFundsCmdPayload} {after : World} {published : List Message}

/-- A refusal keeps the promise exactly when it names the right participant. -/
theorem commitExact_of_refused {participantId : String} (hsame : ∀ id, stored after id = stored w id)
    (hpublished : published = [.invalidParticipantEvt participantId payload.transferId none])
    (hid : participantId = payload.payeeId ∨ participantId = payload.payerId) :
    CommitExact B w payload after published ↔
      ∀ s, stored w participantId = some s → s.hasAccount .position payload.currency = false := by
  have hnot : ¬ ∃ evt, Message.payeeFundsCommittedEvt evt ∈ published := by
    rintro ⟨evt, hevt⟩
    rw [hpublished, List.mem_singleton] at hevt
    cases hevt
  constructor
  · intro h
    obtain ⟨-, participantId', _, _, hm, -, hlacks⟩ := h.refused hnot
    rw [hpublished, List.mem_singleton] at hm
    cases hm
    exact hlacks
  · intro hlacks
    refine
      { single := by rw [hpublished]; rfl
        committed := fun h => absurd h hnot
        refused := fun _ => ⟨hsame, participantId, payload.transferId, none, ?_, hid, hlacks⟩ }
    rw [hpublished]
    exact List.mem_cons_self

/-- With both accounts in place the commit goes through, whatever the amount is. -/
theorem Cached.commit_accepted (h : Cached w) {payee payer : ParticipantState}
    {account : ParticipantAccountState} (hpayee : stored w payload.payeeId = some payee)
    (hpayer : stored w payload.payerId = some payer)
    (hacc : payee.getAccount .position payload.currency = some account)
    (hhas : payer.hasAccount .position payload.currency = true) :
    CommitExact B w payload (process B w (.commitPayeeFundsCmd payload)).repo
        (process B w (.commitPayeeFundsCmd payload)).published ↔
      ExtendedRat.lt (.fin 0) (B.valueOf payload.amount) = true ∧
        ((B.valueOf account.position).sub (B.valueOf payload.amount)).isNaN = false := by
  have hpayeeHas : payee.hasAccount .position payload.currency = true := by
    rw [ParticipantState.hasAccount, hacc]
    rfl
  have hlookup : lookup redisParticipantStateRepo applyStateEvent w payload.payeeId =
      .found payee := lookup_of_view hpayee
  have hadmits : Admits redisParticipantStateRepo B w (.commitPayeeFundsCmd payload) :=
    ⟨payee, payer, hlookup, hpayeeHas, hpayer, hhas⟩
  obtain ⟨root, payee', hmoves⟩ := admits_iff.mp hadmits
  have hroot : root = payee := by
    have hfound := hmoves.1
    rw [hlookup] at hfound
    exact (Loaded.found.inj hfound).symm
  subst hroot
  obtain ⟨events, stateEvent, hverdict⟩ := verdict_of_moves hmoves
  obtain ⟨-, terms, p, m, hterms, -, -, rfl, hm, rfl⟩ := verdict_move hverdict
  obtain rfl := Option.some.inj hterms
  obtain ⟨hpublished, hself, hother⟩ := h.accepted hverdict
  obtain ⟨account', hacc', hpayee'⟩ := ParticipantState.commitFunds_ok hmoves.2.2
  rw [hacc] at hacc'
  obtain rfl := Option.some.inj hacc'
  have hevt : ∃ evt, m = .payeeFundsCommittedEvt evt := by
    have hd : decideCommit B payload root (some payer) =
        .accept payee' [m] (positionChanged payee' payload.currency p) := by
      change redisParticipantStateRepo.view w.repo payload.payerId = some payer at hpayer
      simp only [verdict, hlookup, hpayeeHas, if_true, hpayer] at hverdict
      exact (Decision.verdict_move hverdict).2
    obtain ⟨_, _, -, -, -, -, hm, -⟩ := decideCommit_accept hd
    exact ⟨_, List.singleton_inj.mp hm⟩
  obtain ⟨evt, rfl⟩ := hevt
  have hannounced : ∃ evt, Message.payeeFundsCommittedEvt evt ∈
      (process B w (.commitPayeeFundsCmd payload)).published := by
    rw [hpublished]
    exact ⟨evt, List.mem_cons_self⟩
  constructor
  · intro hexact
    obtain ⟨payee₁, _, account₁, position, hpayee₁, -, -, hacc₁, hamount, hnumber, hvalue, -⟩ :=
      hexact.committed hannounced
    rw [hpayee] at hpayee₁
    obtain rfl := Option.some.inj hpayee₁
    rw [hacc] at hacc₁
    obtain rfl := Option.some.inj hacc₁
    rw [hvalue] at hnumber
    exact ⟨hamount, hnumber⟩
  · rintro ⟨hamount, hnumber⟩
    have hnan : ¬ B.isNaN (B.minus (B.ofString account.position) (B.ofString payload.amount)) =
        true := by
      rw [B.isNaN_eq, B.value_minus_ofString]
      exact fun hn => Bool.false_ne_true (hnumber.symm.trans hn)
    rw [if_neg hnan] at hpayee'
    have hvalue : B.valueOf (B.toString (B.minus (B.ofString account.position)
        (B.ofString payload.amount))) =
        (B.valueOf account.position).sub (B.valueOf payload.amount) := by
      rw [B.valueOf_toString, B.value_minus_ofString]
    refine
      { single := by rw [hpublished]; rfl
        committed := fun _ => ⟨root, payer, account, _, hpayee, hpayer, hhas, hacc, hamount,
          by rw [hvalue]; exact hnumber, hvalue, by rw [← hpayee']; exact hself, hother⟩
        refused := fun hnot => absurd hannounced hnot }

/-- A refused commit, with the participant it names. -/
theorem Cached.commit_refused (h : Cached w) {root : Option ParticipantState}
    {participantId : String} (hverdict : verdict redisParticipantStateRepo B w
      (.commitPayeeFundsCmd payload) =
        .refuse root [.invalidParticipantEvt participantId payload.transferId none])
    (hid : participantId = payload.payeeId ∨ participantId = payload.payerId) :
    CommitExact B w payload (process B w (.commitPayeeFundsCmd payload)).repo
        (process B w (.commitPayeeFundsCmd payload)).published ↔
      ∀ s, stored w participantId = some s → s.hasAccount .position payload.currency = false := by
  obtain ⟨hpublished, hsame⟩ := h.refused hverdict
  exact commitExact_of_refused hsame hpublished hid

/-- The checks with both participants and the payee's account at hand. -/
theorem commitChecked_iff {payee payer : ParticipantState} {account : ParticipantAccountState}
    (hpayee : stored w payload.payeeId = some payee)
    (hpayer : stored w payload.payerId = some payer)
    (hacc : payee.getAccount .position payload.currency = some account) :
    CommitChecked B w payload ↔
      payer.hasAccount .position payload.currency = true ∧
        ExtendedRat.lt (.fin 0) (B.valueOf payload.amount) = true ∧
        ((B.valueOf account.position).sub (B.valueOf payload.amount)).isNaN = false := by
  constructor
  · exact fun hc => hc payee payer account hpayee hpayer hacc
  · intro hall payee₁ payer₁ account₁ hpayee₁ hpayer₁ hacc₁
    obtain rfl := Option.some.inj (hpayee.symm.trans hpayee₁)
    obtain rfl := Option.some.inj (hpayer.symm.trans hpayer₁)
    obtain rfl := Option.some.inj (hacc.symm.trans hacc₁)
    exact hall

end Commit

/-- A commit keeps its promise exactly when the checks it leaves out would have passed. -/
theorem commit_exact_iff (B : BigNumber) (w : World) (payload : CommitPayeeFundsCmdPayload)
    (h : Cached w) :
    CommitExact B w payload (process B w (.commitPayeeFundsCmd payload)).repo
        (process B w (.commitPayeeFundsCmd payload)).published ↔
      CommitChecked B w payload := by
  have hlookup := h.lookup_eq payload.payeeId
  cases hpayee : stored w payload.payeeId with
  | none =>
    have hverdict : verdict redisParticipantStateRepo B w (.commitPayeeFundsCmd payload) =
        .refuse none [.invalidParticipantEvt payload.payeeId payload.transferId none] := by
      rw [verdict, hlookup, hpayee]
    rw [h.commit_refused hverdict (Or.inl rfl)]
    refine iff_of_true (fun s hs => ?_) (fun payee payer account hs => ?_) <;>
      rw [hpayee] at hs <;> cases hs
  | some payee =>
    rw [hpayee] at hlookup
    cases hacc : payee.getAccount .position payload.currency with
    | none =>
      have hlacks : payee.hasAccount .position payload.currency = false := by
        rw [ParticipantState.hasAccount, hacc]
        rfl
      have hverdict : verdict redisParticipantStateRepo B w (.commitPayeeFundsCmd payload) =
          .refuse (some payee)
            [.invalidParticipantEvt payload.payeeId payload.transferId none] := by
        simp only [verdict, hlookup, hlacks, Bool.false_eq_true, if_false]
      rw [h.commit_refused hverdict (Or.inl rfl)]
      refine iff_of_true (fun s hs => ?_) (fun payee₁ payer account hpayee₁ _ ha => ?_)
      · obtain rfl := Option.some.inj (hpayee.symm.trans hs)
        exact hlacks
      · obtain rfl := Option.some.inj (hpayee.symm.trans hpayee₁)
        rw [hacc] at ha
        cases ha
    | some account =>
      have hhas : payee.hasAccount .position payload.currency = true := by
        rw [ParticipantState.hasAccount, hacc]
        rfl
      cases hpayer : stored w payload.payerId with
      | none =>
        have hview : redisParticipantStateRepo.view w.repo payload.payerId = none := hpayer
        have hverdict : verdict redisParticipantStateRepo B w (.commitPayeeFundsCmd payload) =
            .refuse (some payee)
              [.invalidParticipantEvt payload.payerId payload.transferId none] := by
          simp only [verdict, hlookup, hhas, if_true, hview, decideCommit, Decision.verdict]
        rw [h.commit_refused hverdict (Or.inr rfl)]
        refine iff_of_true (fun s hs => ?_) (fun payee payer account _ hs => ?_) <;>
          rw [hpayer] at hs <;> cases hs
      | some payer =>
        rw [commitChecked_iff hpayee hpayer hacc]
        cases hpayerHas : payer.hasAccount .position payload.currency with
        | true =>
          rw [h.commit_accepted hpayee hpayer hacc hpayerHas]
          exact (and_iff_right rfl).symm
        | false =>
          -- the payee is reported, and has the account
          have hview : redisParticipantStateRepo.view w.repo payload.payerId = some payer := hpayer
          have hverdict : verdict redisParticipantStateRepo B w (.commitPayeeFundsCmd payload) =
              .refuse (some payee)
                [.invalidParticipantEvt payload.payeeId payload.transferId none] := by
            simp only [verdict, hlookup, hhas, if_true, hview, decideCommit, hpayerHas,
              Bool.false_eq_true, if_false, Decision.verdict]
          rw [h.commit_refused hverdict (Or.inl rfl)]
          refine iff_of_false (fun hblame => ?_) fun hc => Bool.false_ne_true hc.1
          rw [hblame payee hpayee] at hhas
          cases hhas

theorem commit_exact_iff_sample :
    CommitExact wholeNumbers (sampleWorld redisParticipantStateRepo) sampleTerms
        (process wholeNumbers (sampleWorld redisParticipantStateRepo)
          (.commitPayeeFundsCmd sampleTerms)).repo
        (process wholeNumbers (sampleWorld redisParticipantStateRepo)
          (.commitPayeeFundsCmd sampleTerms)).published ↔
      CommitChecked wholeNumbers (sampleWorld redisParticipantStateRepo) sampleTerms :=
  commit_exact_iff wholeNumbers (sampleWorld redisParticipantStateRepo) sampleTerms
    cached_sampleWorld

/-- A commit of minus five raises the position of the payee by five. -/
theorem negative_commit_raises_position :
    let payload : CommitPayeeFundsCmdPayload := { sampleTerms with amount := "-5" }
    let settled := process wholeNumbers (sampleWorld redisParticipantStateRepo)
      (.commitPayeeFundsCmd payload)
    ((stored settled.repo "green").map fun s => s.accounts.map (·.position)) = some ["5"] ∧
      ¬ CommitExact wholeNumbers (sampleWorld redisParticipantStateRepo) payload settled.repo
        settled.published := by
  intro payload settled
  refine ⟨by decide +kernel, fun hexact => ?_⟩
  have hannounced : ∃ evt, Message.payeeFundsCommittedEvt evt ∈ settled.published :=
    ⟨{ transferId := "t1", payerId := "blue", payeeId := "green", currency := "USD",
       currentPosition := "5", payerEndPoints := [], payeeEndPoints := [] }, by decide +kernel⟩
  obtain ⟨_, _, _, _, -, -, -, -, hamount, -⟩ := hexact.committed hannounced
  exact absurd hamount (by decide +kernel)

end ParticpantsAgg

end Participants
end PocArchitecture
