/-
Whether the cache shows.

A command loads its root entity from the cache or, failing that, from the log; so a cache
that holds nothing but what the log rebuilds makes no difference there.  The counterpart
of a money command is asked of the cache alone.  Two caches are told apart exactly when
one of them lacks a counterpart that would have mattered.
-/
import PocArchitecture.Participants.Repos
import PocArchitecture.Participants.LaterLoads

namespace PocArchitecture
namespace Participants

open PublicMessages Infrastructure
open Domain (Loaded)
open Domain.BaseEventSourcingAggregate

/-- The other participant of a money command. -/
def Command.counterpartId : Command → Option String
  | reservePayerFundsCmd payload => some payload.payeeId
  | commitPayeeFundsCmd payload => some payload.payerId
  | _ => none

namespace ParticpantsAgg

/-- The log after some messages, in the order of their publication. -/
def logOf (partitioner : String → Nat) (msgs : List Message) : Log :=
  recordAll (EventStore.empty partitioner) msgs

/-- The state that the whole log of a participant gives. -/
def replayed (log : Log) (id : String) : Loaded ParticipantState :=
  rebuild applyStateEvent (log.sourced id)

/-- Every cached state is the one the log gives. -/
def Exact (R : StateRepo ParticipantState) (log : Log) (repo : RepoState ParticipantState) : Prop :=
  ∀ id s, R.view repo id = some s → replayed log id = .found s

/-- Two caches over one log: the command publishes the same, and every participant is found
in the same state afterwards. -/
def SameOutcome (R : StateRepo ParticipantState) (B : BigNumber) (log : Log)
    (repo repo' : RepoState ParticipantState) (cmd : Command) : Prop :=
  let settled := processCommand R B Faults.none { repo := repo, log := log } cmd
  let settled' := processCommand R B Faults.none { repo := repo', log := log } cmd
  settled.published = settled'.published ∧
    ∀ id, lookup R applyStateEvent settled.repo id = lookup R applyStateEvent settled'.repo id

/-- The command asks for its counterpart, and the counterpart is one it would work with:
for a reserve the payee has the account, for a commit the addressed payee has it. -/
def CounterpartMatters (log : Log) : Command → Prop
  | .reservePayerFundsCmd payload =>
    ∃ payer payee, replayed log payload.payerId = .found payer ∧
      replayed log payload.payeeId = .found payee ∧
      payee.hasAccount .position payload.currency = true
  | .commitPayeeFundsCmd payload =>
    ∃ payee payer, replayed log payload.payeeId = .found payee ∧
      payee.hasAccount .position payload.currency = true ∧
      replayed log payload.payerId = .found payer
  | _ => False

/-- Both caches hold the counterpart of the command, or neither does. -/
def CachedAlike (R : StateRepo ParticipantState) (repo repo' : RepoState ParticipantState)
    (cmd : Command) : Prop :=
  ∀ id ∈ cmd.counterpartId, (R.view repo id).isSome = (R.view repo' id).isSome

section

variable {R : StateRepo ParticipantState} {B : BigNumber} {log : Log} {partitioner : String → Nat}
  {msgs : List Message} {repo repo' : RepoState ParticipantState} {cmd : Command}

theorem logOf_consistent : (logOf partitioner msgs).Consistent :=
  consistent_recordAll (EventStore.Consistent.empty partitioner) msgs

theorem logOf_keyed : LogKeyed (logOf partitioner msgs) :=
  LogKeyed.recordAll { stateEvents := fun r hr => (by cases hr), snapshots := fun r hr => (by cases hr) }
    msgs

theorem Exact.lookup_eq (h : Exact R log repo) (id : String) :
    lookup R applyStateEvent { repo := repo, log := log } id = replayed log id := by
  cases hv : R.view repo id with
  | none => exact lookup_of_view_none hv
  | some s => exact (lookup_of_view hv).trans (h id s hv).symm

theorem Exact.wellKept (h : Exact R log repo) (hkeyed : LogKeyed log) (hc : log.Consistent) :
    WellKept R { repo := repo, log := log } where
  view_id _ _ hs := hkeyed.rebuild_id (h _ _ hs)
  log_keyed := hkeyed
  log_consistent := hc

/-- The verdict goes by the root entity and the counterpart. -/
theorem verdict_congr {w w' : World}
    (hroot : lookup R applyStateEvent w' cmd.rootId = lookup R applyStateEvent w cmd.rootId)
    (hview : ∀ id ∈ cmd.counterpartId, R.view w'.repo id = R.view w.repo id) :
    verdict R B w' cmd = verdict R B w cmd := by
  cases cmd with
  | createParticipantCmd participant =>
    have hroot' : lookup R applyStateEvent w' participant.id = _ := hroot
    rw [verdict, verdict, hroot']
    rfl
  | reservePayerFundsCmd payload =>
    have hroot' : lookup R applyStateEvent w' payload.payerId = _ := hroot
    rw [verdict, verdict, hroot', hview payload.payeeId rfl]
    rfl
  | commitPayeeFundsCmd payload =>
    have hroot' : lookup R applyStateEvent w' payload.payeeId = _ := hroot
    rw [verdict, verdict, hroot', hview payload.payerId rfl]
    rfl
  | snapshotParticipantStateCmd id =>
    have hroot' : lookup R applyStateEvent w' id = _ := hroot
    rw [verdict, verdict, hroot']
    rfl

/-- What a load of the root entity finds after a command without failures. -/
theorem lookup_processCommand_root (hR : R.Lawful ParticipantState.id) {w : World}
    (hw : WellKept R w) :
    lookup R applyStateEvent (processCommand R B Faults.none w cmd).repo cmd.rootId =
      match (verdict R B w cmd).accepted with
      | some s => .found s
      | none => lookup R applyStateEvent w cmd.rootId := by
  cases hv : verdict R B w cmd with
  | reject => exact lookup_of_reject hR hw hv
  | refuse root events => exact lookup_of_refuse hR hw hv
  | create participant => exact lookup_of_create hR hw hv
  | snapshot root =>
    rw [lookup_of_snapshot hR hw hv]
    exact verdict_loaded (B := B) (by rw [hv]; rfl)
  | move root root' events stateEvent =>
    obtain ⟨-, _, _, _, -, -, -, -, -, hst⟩ := verdict_move hv
    rw [positionChanged] at hst
    subst hst
    exact lookup_of_move hR hw hv

variable (B cmd) in
/-- Equal verdicts over one log have the same outcome. -/
theorem sameOutcome_of_verdict (hR : R.Lawful ParticipantState.id) (hkeyed : LogKeyed log)
    (hc : log.Consistent) (h : Exact R log repo) (h' : Exact R log repo')
    (hv : verdict R B { repo := repo, log := log } cmd =
      verdict R B { repo := repo', log := log } cmd) :
    SameOutcome R B log repo repo' cmd := by
  have hw := h.wellKept hkeyed hc
  have hw' := h'.wellKept hkeyed hc
  constructor
  · rw [processCommand_published hR (hw.keyed cmd), processCommand_published hR (hw'.keyed cmd), hv]
  · intro id
    by_cases hid : id = cmd.rootId
    · rw [hid, lookup_processCommand_root hR hw, lookup_processCommand_root hR hw', hv, h.lookup_eq,
        h'.lookup_eq]
    · rw [lookup_processCommand_ne hR hw hid, lookup_processCommand_ne hR hw' hid, h.lookup_eq,
        h'.lookup_eq]

theorem SameOutcome.symm (h : SameOutcome R B log repo repo' cmd) :
    SameOutcome R B log repo' repo cmd :=
  ⟨h.1.symm, fun id => (h.2 id).symm⟩

/-! ## A counterpart that only one cache holds -/

/-- The one event of a command that did not find its counterpart. -/
def missing (id transferId : String) : List Message := [.invalidParticipantEvt id transferId none]

/-- A reserve that has its payee, with the account, never answers that the payee is missing. -/
theorem reserve_answers (payload : ReservePayerFundsCmdPayload) (payer : ParticipantState)
    {payee : ParticipantState} (hacc : payee.hasAccount .position payload.currency = true) :
    ((decideReserve B payload payer (some payee)).verdict payer).published Faults.none ≠
      missing payload.payeeId payload.transferId := by
  have hrefuse : ∀ e, ((refuseReserve payload e).verdict payer).published Faults.none ≠
      missing payload.payeeId payload.transferId := by
    intro e h
    cases e with
    | netDebitCapLimitExceeded message => cases h
    | invalidAccount message | invalidLimit message =>
      injection h with h
      injection h with _ _ h
      cases h
  rw [decideReserve, if_pos hacc]
  split
  · exact hrefuse _
  · split
    · exact hrefuse _
    · intro h
      cases h

theorem commit_answers (payload : CommitPayeeFundsCmdPayload) (payee : ParticipantState)
    {payer : ParticipantState}
    (hacc : payer.hasAccount .position payload.currency = true ∨ payload.payeeId ≠ payload.payerId) :
    ((decideCommit B payload payee (some payer)).verdict payee).published Faults.none ≠
      missing payload.payerId payload.transferId := by
  have hrefuse : ∀ e, ((refuseCommit payload e).verdict payee).published Faults.none ≠
      missing payload.payerId payload.transferId := by
    intro e h
    cases e <;>
    · injection h with h
      injection h with _ _ h
      cases h
  rw [decideCommit]
  split
  · split
    · exact hrefuse _
    · split
      · exact hrefuse _
      · intro h
        cases h
  · rename_i hno
    have hne := hacc.resolve_left hno
    intro h
    injection h with h
    injection h with h
    exact hne h

variable (B cmd) in
/-- Two answers that differ settle the matter. -/
theorem not_sameOutcome_of_verdict (hR : R.Lawful ParticipantState.id) (hkeyed : LogKeyed log)
    (hc : log.Consistent) (h : Exact R log repo) (h' : Exact R log repo')
    (hne : (verdict R B { repo := repo, log := log } cmd).published Faults.none ≠
      (verdict R B { repo := repo', log := log } cmd).published Faults.none) :
    ¬ SameOutcome R B log repo repo' cmd := by
  have hw := h.wellKept hkeyed hc
  have hw' := h'.wellKept hkeyed hc
  rintro ⟨hpublished, -⟩
  rw [processCommand_published hR (hw.keyed cmd), processCommand_published hR (hw'.keyed cmd)]
    at hpublished
  exact hne hpublished

/-- One cache lacks the payee of a reserve, the other holds it. -/
theorem sameOutcome_of_missing_payee (hR : R.Lawful ParticipantState.id) (hkeyed : LogKeyed log)
    (hc : log.Consistent) (h : Exact R log repo) (h' : Exact R log repo')
    {payload : ReservePayerFundsCmdPayload} (hnone : R.view repo payload.payeeId = none)
    {payee : ParticipantState} (hsome : R.view repo' payload.payeeId = some payee) :
    SameOutcome R B log repo repo' (.reservePayerFundsCmd payload) ↔
      ¬ CounterpartMatters log (.reservePayerFundsCmd payload) := by
  have hreplayed : replayed log payload.payeeId = .found payee := h' _ payee hsome
  have hsame := sameOutcome_of_verdict B (.reservePayerFundsCmd payload) hR hkeyed hc h h'
  have hdiffer := not_sameOutcome_of_verdict B (.reservePayerFundsCmd payload) hR hkeyed hc h h'
  rw [CounterpartMatters]
  rw [verdict, verdict, h.lookup_eq, h'.lookup_eq, hnone, hsome] at hsame hdiffer
  cases hroot : replayed log payload.payerId with
  | failed =>
    rw [hroot] at hsame
    refine iff_of_true (hsame rfl) ?_
    rintro ⟨_, _, hfound, -⟩
    cases hfound
  | notFound =>
    rw [hroot] at hsame
    refine iff_of_true (hsame rfl) ?_
    rintro ⟨_, _, hfound, -⟩
    cases hfound
  | found payer =>
    rw [hroot] at hsame hdiffer
    by_cases hacc : payee.hasAccount .position payload.currency = true
    · refine iff_of_false (hdiffer fun he => ?_) (not_not.mpr ⟨payer, payee, rfl, hreplayed, hacc⟩)
      exact reserve_answers payload payer hacc he.symm
    · refine iff_of_true (hsame ?_) ?_
      · show (decideReserve B payload payer none).verdict payer =
          (decideReserve B payload payer (some payee)).verdict payer
        rw [decideReserve, decideReserve, if_neg hacc]
      · rintro ⟨_, payee', -, hpayee, hpayeeacc⟩
        obtain rfl := Loaded.found.inj (hreplayed.symm.trans hpayee)
        exact hacc hpayeeacc

/-- One cache lacks the payer of a commit, the other holds it. -/
theorem sameOutcome_of_missing_payer (hR : R.Lawful ParticipantState.id) (hkeyed : LogKeyed log)
    (hc : log.Consistent) (h : Exact R log repo) (h' : Exact R log repo')
    {payload : CommitPayeeFundsCmdPayload} (hnone : R.view repo payload.payerId = none)
    {payer : ParticipantState} (hsome : R.view repo' payload.payerId = some payer) :
    SameOutcome R B log repo repo' (.commitPayeeFundsCmd payload) ↔
      ¬ CounterpartMatters log (.commitPayeeFundsCmd payload) := by
  have hreplayed : replayed log payload.payerId = .found payer := h' _ payer hsome
  have hsame := sameOutcome_of_verdict B (.commitPayeeFundsCmd payload) hR hkeyed hc h h'
  have hdiffer := not_sameOutcome_of_verdict B (.commitPayeeFundsCmd payload) hR hkeyed hc h h'
  rw [CounterpartMatters]
  rw [verdict, verdict, h.lookup_eq, h'.lookup_eq, hnone, hsome] at hsame hdiffer
  cases hroot : replayed log payload.payeeId with
  | failed =>
    rw [hroot] at hsame
    refine iff_of_true (hsame rfl) ?_
    rintro ⟨_, _, hfound, -⟩
    cases hfound
  | notFound =>
    rw [hroot] at hsame
    refine iff_of_true (hsame rfl) ?_
    rintro ⟨_, _, hfound, -⟩
    cases hfound
  | found payee =>
    rw [hroot] at hsame hdiffer
    dsimp only at hsame hdiffer
    by_cases hacc : payee.hasAccount .position payload.currency = true
    · rw [if_pos hacc, if_pos hacc] at hdiffer
      refine iff_of_false (hdiffer fun he => ?_) (not_not.mpr ⟨payee, payer, rfl, hacc, hreplayed⟩)
      refine commit_answers payload payee ?_ he.symm
      by_cases hids : payload.payeeId = payload.payerId
      · -- the counterpart is the root entity itself
        rw [hids, hreplayed] at hroot
        obtain rfl := Loaded.found.inj hroot
        exact Or.inl hacc
      · exact Or.inr hids
    · rw [if_neg hacc, if_neg hacc] at hsame
      refine iff_of_true (hsame rfl) ?_
      rintro ⟨payee', _, hpayee, hpayeeacc, -⟩
      obtain rfl := Loaded.found.inj hpayee
      exact hacc hpayeeacc

/-- One cache lacks the counterpart, the other holds it. -/
theorem sameOutcome_of_missing (hR : R.Lawful ParticipantState.id) (hkeyed : LogKeyed log)
    (hc : log.Consistent) (h : Exact R log repo) (h' : Exact R log repo') {id : String}
    (hid : id ∈ cmd.counterpartId) (hnone : R.view repo id = none) {s : ParticipantState}
    (hsome : R.view repo' id = some s) :
    SameOutcome R B log repo repo' cmd ↔ ¬ CounterpartMatters log cmd := by
  cases cmd with
  | createParticipantCmd participant => cases hid
  | snapshotParticipantStateCmd participantId => cases hid
  | reservePayerFundsCmd payload =>
    obtain rfl := Option.some.inj hid
    exact sameOutcome_of_missing_payee hR hkeyed hc h h' hnone hsome
  | commitPayeeFundsCmd payload =>
    obtain rfl := Option.some.inj hid
    exact sameOutcome_of_missing_payer hR hkeyed hc h h' hnone hsome

end

/-- Two caches that hold nothing but what the log gives have the same outcome exactly when
they hold the counterpart alike, or it does not matter. -/
theorem cache_transparent_iff (kind : RepoInfraTypes) (B : BigNumber) (partitioner : String → Nat)
    (msgs : List Message) (repo repo' : RepoState ParticipantState) (cmd : Command)
    (h : Exact kind.repo (logOf partitioner msgs) repo)
    (h' : Exact kind.repo (logOf partitioner msgs) repo') :
    SameOutcome kind.repo B (logOf partitioner msgs) repo repo' cmd ↔
      CachedAlike kind.repo repo repo' cmd ∨ ¬ CounterpartMatters (logOf partitioner msgs) cmd := by
  have hR := kind.repo_lawful
  have hkeyed : LogKeyed (logOf partitioner msgs) := logOf_keyed
  have hc : (logOf partitioner msgs).Consistent := logOf_consistent
  by_cases halike : CachedAlike kind.repo repo repo' cmd
  · rw [or_iff_left_of_imp fun _ => halike, iff_true_right halike]
    refine sameOutcome_of_verdict B cmd hR hkeyed hc h h' (verdict_congr ?_ fun id hid => ?_)
    · rw [h.lookup_eq, h'.lookup_eq]
    · have hsome := halike id hid
      cases hv : kind.repo.view repo id with
      | none =>
        rw [hv, Option.isSome_none] at hsome
        exact (Option.isSome_eq_false_iff.mp hsome.symm |> Option.isNone_iff_eq_none.mp).symm
      | some s =>
        rw [hv, Option.isSome_some] at hsome
        obtain ⟨s', hs'⟩ := Option.isSome_iff_exists.mp hsome.symm
        have hfound := (h id s hv).symm.trans (h' id s' hs')
        rw [hs', Loaded.found.inj hfound]
  · rw [or_iff_right halike]
    rw [CachedAlike] at halike
    push Not at halike
    obtain ⟨id, hid, hne⟩ := halike
    cases hv : kind.repo.view repo id with
    | none =>
      cases hv' : kind.repo.view repo' id with
      | none =>
        rw [hv, hv'] at hne
        exact absurd rfl hne
      | some s => exact sameOutcome_of_missing hR hkeyed hc h h' hid hv hv'
    | some s =>
      cases hv' : kind.repo.view repo' id with
      | none =>
        have hmissing := sameOutcome_of_missing (B := B) hR hkeyed hc h' h hid hv' hv
        exact ⟨fun hs => hmissing.mp hs.symm, fun hs => (hmissing.mpr hs).symm⟩
      | some s' =>
        rw [hv, hv'] at hne
        exact absurd rfl hne

/-- The creations of the two sample participants. -/
def sampleLog : List Message :=
  [.stateEvt (.participantCreatedStateEvt (sampleParticipant "blue")),
    .stateEvt (.participantCreatedStateEvt (sampleParticipant "green"))]

def greenCached : RepoState ParticipantState :=
  (redisParticipantStateRepo.store true RepoState.empty (sampleParticipant "green")).1

theorem exact_empty {R : StateRepo ParticipantState} (hR : R.Lawful ParticipantState.id) (log : Log) :
    Exact R log RepoState.empty := by
  intro id s hs
  rw [hR.view_empty] at hs
  cases hs

theorem exact_greenCached :
    Exact redisParticipantStateRepo (logOf (fun _ => 0) sampleLog) greenCached := by
  intro id s hs
  by_cases hid : id = "green"
  · subst hid
    have hgreen : redisParticipantStateRepo.view greenCached "green" =
        some (sampleParticipant "green") := by decide +kernel
    rw [hgreen] at hs
    rw [← Option.some.inj hs]
    decide +kernel
  · rw [greenCached, redis_lawful.view_store_ne _ _ _ _ hid, redis_lawful.view_empty] at hs
    cases hs

theorem cache_transparent_iff_sample :
    SameOutcome redisParticipantStateRepo wholeNumbers (logOf (fun _ => 0) sampleLog)
        RepoState.empty greenCached (.reservePayerFundsCmd sampleTerms) ↔
      CachedAlike redisParticipantStateRepo RepoState.empty greenCached
          (.reservePayerFundsCmd sampleTerms) ∨
        ¬ CounterpartMatters (logOf (fun _ => 0) sampleLog) (.reservePayerFundsCmd sampleTerms) :=
  cache_transparent_iff .redis wholeNumbers (fun _ => 0) sampleLog RepoState.empty greenCached
    (.reservePayerFundsCmd sampleTerms) (exact_empty redis_lawful _) exact_greenCached

/-- Blue and green are both in the log.  With green in the cache the reserve is carried out;
with nobody in the cache green is called invalid. -/
theorem uncached_payee_called_invalid :
    (processCommand redisParticipantStateRepo wholeNumbers Faults.none
      { repo := RepoState.empty, log := logOf (fun _ => 0) sampleLog }
      (.reservePayerFundsCmd sampleTerms)).published =
        [.invalidParticipantEvt "green" "t1" none] ∧
    ¬ SameOutcome redisParticipantStateRepo wholeNumbers (logOf (fun _ => 0) sampleLog)
      RepoState.empty greenCached (.reservePayerFundsCmd sampleTerms) := by
  refine ⟨by decide +kernel, fun h => ?_⟩
  exact absurd h.1 (by decide +kernel)

end ParticpantsAgg

end Participants
end PocArchitecture
