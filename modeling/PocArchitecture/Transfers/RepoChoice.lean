/-
Whether the choice of the repository shows.

Over Redis a refused command leaves no trace.  A repository that hands out the object it
keeps is left with the error state of a mismatched fulfilment, so the two are told apart
by the next command for such a transfer, and by nothing else.  `Audit` runs over Redis
and notes the transfers whose twins are in error by now.
-/
import PocArchitecture.Transfers.Failures

namespace PocArchitecture
namespace Transfers

open PublicMessages Infrastructure
open Domain.BaseAggregate

def TransferState.errored (s : TransferState) : TransferState :=
  { s with transferInternalState := .receivedError }

namespace TransfersAgg

/-- What one run shows: for every command the result and the published events. -/
def answers (R : StateRepo TransferState) (C : Crypto) :
    World → List Command → List (Option Bool × List Message)
  | _, [] => []
  | w, cmd :: cmds =>
    let settled := processCommand R C Faults.none w cmd
    (settled.outcome, settled.published) :: answers R C settled.repo cmds

/-- Every repository answers the commands alike. -/
def Unobservable (C : Crypto) (cmds : List Command) : Prop :=
  ∀ kind kind' : RepoInfraTypes,
    answers kind.repo C World.start cmds = answers kind'.repo C World.start cmds

/-- A fulfilment of 32 bytes that does not match the condition of a reserved transfer. -/
def mismatched (C : Crypto) (s : TransferState) : Command → Bool
  | .fulfilTransferCmd payload =>
    s.transferInternalState = .reserved ∧ (C.toBuffer payload.fulfilment).length = 32 ∧
      C.base64url (C.sha256 (C.toBuffer payload.fulfilment)) ≠ s.condition
  | _ => false

/-- A run over Redis, with the transfers that have seen a mismatch. -/
structure Audit where
  world : World
  spoilt : Finset String

def Audit.start : Audit := { world := World.start, spoilt := ∅ }

def Audit.next (C : Crypto) (a : Audit) (cmd : Command) : Audit :=
  { world := (processCommand redisTransferStateRepo C Faults.none a.world cmd).repo
    spoilt :=
      if (redisTransferStateRepo.view a.world.repo cmd.transferId).any (mismatched C · cmd) then
        insert cmd.transferId a.spoilt
      else a.spoilt }

/-- The command does not load a transfer that has seen a mismatch. -/
def LeavesSpoiltAlone (a : Audit) (cmd : Command) : Prop :=
  cmd.isPrepare = true ∨ cmd.transferId ∉ a.spoilt

/-- Redis and the twin agree, the spoilt transfers apart: these are reserved in Redis and
in error in the twin. -/
structure Twins (R : StateRepo TransferState) (a : Audit) (w : World) : Prop where
  redisKept : WellKept redisTransferStateRepo a.world
  kept : WellKept R w
  duplicates : w.duplicates = a.world.duplicates
  spoilt : ∀ id ∈ a.spoilt, ∃ s, redisTransferStateRepo.view a.world.repo id = some s ∧
    s.transferInternalState = .reserved ∧ R.view w.repo id = some s.errored
  unspoilt : ∀ id, id ∉ a.spoilt →
    R.view w.repo id = redisTransferStateRepo.view a.world.repo id

/-- What Redis and the twin show of one transfer. -/
def Shows (R : StateRepo TransferState) (a : Audit) (w : World) (id : String) : Prop :=
  if id ∈ a.spoilt then
    ∃ s, redisTransferStateRepo.view a.world.repo id = some s ∧
      s.transferInternalState = .reserved ∧ R.view w.repo id = some s.errored
  else R.view w.repo id = redisTransferStateRepo.view a.world.repo id

theorem Twins.shows {R : StateRepo TransferState} {a : Audit} {w : World} (h : Twins R a w)
    (id : String) : Shows R a w id := by
  rw [Shows]
  split
  · exact h.spoilt id ‹_›
  · exact h.unspoilt id ‹_›

section

variable {R R' : StateRepo TransferState} {C : Crypto} {a : Audit} {w w' : World} {cmd : Command}
  {s : TransferState}

/-- Without failures the result is that of the handler. -/
theorem processCommand_outcome (hR : R.Lawful TransferState.id) :
    (processCommand R C Faults.none w cmd).outcome = (verdict R C Faults.none w cmd).result := by
  obtain ⟨-, hresult, hroot, -, -, -⟩ :
      Follows R w cmd.transferId (verdict R C Faults.none w cmd) (handle R C Faults.none w cmd) :=
    handle_follows hR
  rw [processCommand, finish, hresult, hroot]
  cases verdict R C Faults.none w cmd with
  | reject => rfl
  | refuse root events =>
    rw [show Faults.none.publish₁.isOk = true from rfl, Bool.or_true]
    rfl
  | prepare s | advance _ s _ =>
    rw [show Faults.none.publish₁.isOk = true from rfl, Bool.or_true]
    show (if (R.store true (handle R C Faults.none w cmd).repo.repo s).2 then some true else none) = _
    rw [hR.store_ok]
    rfl

/-- The verdict goes by the duplicate set and, unless the command is a prepare, by what the
load shows. -/
theorem verdict_congr (hduplicates : w'.duplicates = w.duplicates)
    (hview : cmd.isPrepare = true ∨ R'.view w'.repo cmd.transferId = R.view w.repo cmd.transferId) :
    verdict R' C Faults.none w' cmd = verdict R C Faults.none w cmd := by
  cases hd : decision C cmd with
  | none =>
    cases cmd with
    | prepareTransferCmd payload => rw [verdict, verdict, hduplicates]
    | _ => cases hd
  | some decide =>
    have hload : cmd.isPrepare ≠ true := by
      cases cmd with
      | prepareTransferCmd payload => cases hd
      | _ => exact Bool.false_ne_true
    rw [verdict_of_decision hd, verdict_of_decision hd, hview.resolve_left hload]

/-- What becomes of the entity in a decision on it. -/
theorem decision_root {decide : TransferState → Decision} (h : decision C cmd = some decide)
    (s : TransferState) :
    ((decide s).success = true ∧ mismatched C s cmd = false) ∨
      ((decide s).success = false ∧
        (decide s).root = if mismatched C s cmd then s.errored else s) := by
  cases cmd with
  | prepareTransferCmd payload => cases h
  | ackPayerFundsReservedCmd payload =>
    obtain rfl := Option.some.inj h
    rw [decideAckPayerFundsReserved]
    split
    · exact Or.inr ⟨rfl, rfl⟩
    · exact Or.inl ⟨rfl, rfl⟩
  | ackPayeeFundsCommittedCmd payload =>
    obtain rfl := Option.some.inj h
    rw [decideAckPayeeFundsCommitted]
    split
    · exact Or.inr ⟨rfl, rfl⟩
    · exact Or.inl ⟨rfl, rfl⟩
  | fulfilTransferCmd payload =>
    obtain rfl := Option.some.inj h
    rw [decideFulfil, mismatched]
    split
    · rename_i hstate
      rw [decide_eq_false fun h => hstate h.1]
      exact Or.inr ⟨rfl, rfl⟩
    · rename_i hstate
      rcases TransferState.fulfilTransfer_cases C s (fulfilTransferData payload) with
        ⟨hlen, hres⟩ | ⟨hlen, hnot, hres⟩ | ⟨hfulfils, hres⟩
      · rw [hres, decide_eq_false fun h => hlen h.2.1]
        exact Or.inr ⟨rfl, rfl⟩
      · rw [hres, decide_eq_true ⟨not_not.mp hstate, hlen, fun h => hnot ⟨hlen, h⟩⟩]
        exact Or.inr ⟨rfl, rfl⟩
      · rw [hres, decide_eq_false fun h => h.2.2 hfulfils.2]
        exact Or.inl ⟨rfl, rfl⟩

/-- What a load shows after a command on a loaded transfer. -/
theorem view_after_decision (hR : R.Lawful TransferState.id) (hw : WellKept R w)
    {decide : TransferState → Decision} (hd : decision C cmd = some decide)
    (hs : R.view w.repo cmd.transferId = some s) :
    R.view (processCommand R C Faults.none w cmd).repo.repo cmd.transferId =
      if (decide s).success = true ∨ R.aliased = true then some (decide s).root else some s := by
  rw [processCommand_view_self hR (hw.keyed cmd), verdict_of_decision hd, hs, verdictOn,
    Decision.verdict]
  cases (decide s).success with
  | true => rfl
  | false =>
    rw [if_congr (show (false = true ∨ R.aliased = true) ↔ R.aliased = true by simp) rfl rfl]
    rfl

/-- What a load shows after a prepare. -/
theorem view_after_prepare (hR : R.Lawful TransferState.id) (hw : WellKept R w)
    (payload : PrepareTransferCmdPayload) :
    R.view (processCommand R C Faults.none w (.prepareTransferCmd payload)).repo.repo
        payload.transferId =
      if payload.transferId ∈ w.duplicates then R.view w.repo payload.transferId
      else some (TransferState.prepareTransfer (prepareTransferData payload)) := by
  have hview := processCommand_view_self (C := C) (f := Faults.none) hR
    (hw.keyed (.prepareTransferCmd payload))
  rw [verdict, if_pos (show Faults.none.add = true from rfl)] at hview
  refine hview.trans ?_
  split <;> rfl

theorem mismatched_reserved (h : mismatched C s cmd = true) :
    s.transferInternalState = .reserved := by
  cases cmd with
  | fulfilTransferCmd payload => exact (of_decide_eq_true h).1
  | _ => cases h

/-- A transfer is spoilt by a mismatch, or has been before. -/
theorem mem_spoilt_next_of_ne {id : String} (h : id ≠ cmd.transferId) :
    id ∈ (a.next C cmd).spoilt ↔ id ∈ a.spoilt := by
  rw [Audit.next]
  split
  · rw [Finset.mem_insert, or_iff_right h]
  · exact Iff.rfl

theorem spoilt_next (hs : redisTransferStateRepo.view a.world.repo cmd.transferId = some s) :
    (a.next C cmd).spoilt =
      if mismatched C s cmd then insert cmd.transferId a.spoilt else a.spoilt := by
  rw [Audit.next, hs]
  rfl

section Step

variable (hR : R.Lawful TransferState.id) (haliased : R.aliased = true) (h : Twins R a w)

include h

theorem Twins.verdict_eq (hsafe : LeavesSpoiltAlone a cmd) :
    verdict R C Faults.none w cmd = verdict redisTransferStateRepo C Faults.none a.world cmd :=
  verdict_congr h.duplicates (hsafe.imp_right (h.unspoilt _))

include hR

/-- The transfer of a prepare. -/
theorem Twins.next_prepare (payload : PrepareTransferCmdPayload) :
    Shows R (a.next C (.prepareTransferCmd payload))
      (processCommand R C Faults.none w (.prepareTransferCmd payload)).repo payload.transferId := by
  have hshown : redisTransferStateRepo.view (a.next C (.prepareTransferCmd payload)).world.repo
      payload.transferId = _ := view_after_prepare redis_lawful h.redisKept payload
  have hshown' := view_after_prepare (C := C) hR h.kept payload
  have hspoilt : (a.next C (.prepareTransferCmd payload)).spoilt = a.spoilt := by
    rw [Audit.next]
    cases redisTransferStateRepo.view a.world.repo
      (Command.prepareTransferCmd payload).transferId <;> rfl
  rw [Shows, hshown, hshown', hspoilt, h.duplicates]
  by_cases hseen : payload.transferId ∈ a.world.duplicates
  · rw [if_pos hseen, if_pos hseen]
    exact h.shows payload.transferId
  · rw [if_neg hseen, if_neg hseen, if_neg]
    intro hmem
    obtain ⟨s, hs, -⟩ := h.spoilt _ hmem
    cases (h.redisKept.view_of_unseen hseen).symm.trans hs

include haliased

/-- The transfer of a step. -/
theorem Twins.next_decision {decide : TransferState → Decision} (hd : decision C cmd = some decide)
    (hsafe : LeavesSpoiltAlone a cmd) (hclean : cmd.transferId ∉ a.spoilt) :
    Shows R (a.next C cmd) (processCommand R C Faults.none w cmd).repo cmd.transferId := by
  have hsame := h.unspoilt _ hclean
  cases hs : redisTransferStateRepo.view a.world.repo cmd.transferId with
  | none =>
    have hspoilt : (a.next C cmd).spoilt = a.spoilt := by
      rw [Audit.next, hs]
      rfl
    have hverdict := verdict_of_decision (R := redisTransferStateRepo) (f := Faults.none)
      (w := a.world) hd
    rw [hs] at hverdict
    have hshown : redisTransferStateRepo.view (a.next C cmd).world.repo cmd.transferId = _ :=
      processCommand_view_self redis_lawful (h.redisKept.keyed cmd)
    have hshown' := processCommand_view_self (C := C) (f := Faults.none) hR (h.kept.keyed cmd)
    rw [hverdict] at hshown
    rw [h.verdict_eq hsafe, hverdict] at hshown'
    rw [Shows, hspoilt, if_neg hclean, hshown, hshown', hsame]
    rfl
  | some s =>
    have hshown : redisTransferStateRepo.view (a.next C cmd).world.repo cmd.transferId = _ :=
      view_after_decision redis_lawful h.redisKept hd hs
    rw [Shows, spoilt_next hs, hshown, view_after_decision hR h.kept hd (hsame.trans hs),
      if_pos (Or.inr haliased)]
    rcases decision_root hd s with ⟨hsuccess, hfine⟩ | ⟨hrefused, hroot⟩
    · rw [hfine, if_neg Bool.false_ne_true, if_neg hclean, if_pos (Or.inl hsuccess)]
    · rw [if_neg (show ¬ ((decide s).success = true ∨ redisTransferStateRepo.aliased = true) by
        rw [hrefused]; simp [redisTransferStateRepo, StateRepo.redisRepo]), hroot]
      cases hm : mismatched C s cmd with
      | true =>
        rw [if_pos rfl, if_pos rfl, if_pos (Finset.mem_insert_self _ _)]
        exact ⟨s, rfl, mismatched_reserved hm, rfl⟩
      | false => rw [if_neg Bool.false_ne_true, if_neg Bool.false_ne_true, if_neg hclean]

/-- The transfer of the command itself. -/
theorem Twins.next_self (hsafe : LeavesSpoiltAlone a cmd) :
    Shows R (a.next C cmd) (processCommand R C Faults.none w cmd).repo cmd.transferId := by
  cases hd : decision C cmd with
  | none =>
    cases cmd with
    | prepareTransferCmd payload => exact h.next_prepare hR payload
    | _ => cases hd
  | some decide =>
    have hclean : cmd.transferId ∉ a.spoilt := by
      refine hsafe.resolve_left ?_
      cases cmd with
      | prepareTransferCmd payload => cases hd
      | _ => exact Bool.false_ne_true
    exact h.next_decision hR haliased hd hsafe hclean

/-- A command that leaves the spoilt transfers alone keeps the twins as they should be. -/
theorem Twins.next (hsafe : LeavesSpoiltAlone a cmd) :
    Twins R (a.next C cmd) (processCommand R C Faults.none w cmd).repo := by
  have hself := h.next_self hR haliased hsafe (C := C)
  have hredis : ∀ id, id ≠ cmd.transferId →
      redisTransferStateRepo.view (a.next C cmd).world.repo id =
        redisTransferStateRepo.view a.world.repo id :=
    fun id hid => processCommand_view_other redis_lawful h.redisKept hid
  have htwin : ∀ id, id ≠ cmd.transferId →
      R.view (processCommand R C Faults.none w cmd).repo.repo id = R.view w.repo id :=
    fun id hid => processCommand_view_other hR h.kept hid
  constructor
  case redisKept => exact h.redisKept.processCommand redis_lawful C Faults.none cmd
  case kept => exact h.kept.processCommand hR C Faults.none cmd
  case duplicates =>
    rw [processCommand_duplicates hR, h.verdict_eq hsafe, h.duplicates]
    exact (processCommand_duplicates redis_lawful).symm
  case spoilt =>
    intro id hid
    by_cases hcmd : id = cmd.transferId
    · subst hcmd
      rw [Shows, if_pos hid] at hself
      exact hself
    · rw [hredis id hcmd, htwin id hcmd]
      exact h.spoilt id ((mem_spoilt_next_of_ne hcmd).mp hid)
  case unspoilt =>
    intro id hid
    by_cases hcmd : id = cmd.transferId
    · subst hcmd
      rw [Shows, if_neg hid] at hself
      exact hself
    · rw [hredis id hcmd, htwin id hcmd]
      exact h.unspoilt id fun hmem => hid ((mem_spoilt_next_of_ne hcmd).mpr hmem)

end Step

/-- Texts that begin differently. -/
theorem append_ne_append {x y : String} (hne : x ≠ y) (hlength : x.toList.length = y.toList.length)
    (x' y' : String) : x ++ x' ≠ y ++ y' := by
  intro h
  have hlists := congrArg String.toList h
  rw [String.toList_append, String.toList_append] at hlists
  exact hne (String.toList_inj.mp (List.append_inj_left hlists hlength))

theorem invalidState_text_eq (state needed : String) :
    ∃ rest, s!"transfer in invalid state of {state} while should be {needed}" = "t" ++ rest := by
  have hfirst : "transfer in invalid state of " = "t" ++ "ransfer in invalid state of " := by
    decide +kernel
  generalize "ransfer in invalid state of " = rest at hfirst
  refine ⟨rest ++ (state ++ (" while should be " ++ needed)), ?_⟩
  simp only [toString, hfirst, String.append_assoc]

theorem noMatch_text_eq (condition fulfilment : String) :
    ∃ rest, (FulfilError.validateFulfilConditionNoMatch condition fulfilment).text =
      "V" ++ rest := by
  have hfirst :
      "ValidateFulfilConditionNoMatch Fulfilment and condition do not match (condition: " =
        "V" ++ "alidateFulfilConditionNoMatch Fulfilment and condition do not match (condition: " := by
    decide +kernel
  unfold FulfilError.text
  generalize "alidateFulfilConditionNoMatch Fulfilment and condition do not match (condition: " = rest
    at hfirst
  refine ⟨rest ++ (condition ++ (" fulfilment: " ++ (fulfilment ++ ")"))), ?_⟩
  simp only [toString, hfirst, String.append_assoc]

/-- The reason given for a wrong state is not the one given for a mismatch. -/
theorem invalidState_text_ne (state needed condition fulfilment : String) :
    s!"transfer in invalid state of {state} while should be {needed}" ≠
      (FulfilError.validateFulfilConditionNoMatch condition fulfilment).text := by
  obtain ⟨x, hx⟩ := invalidState_text_eq state needed
  obtain ⟨y, hy⟩ := noMatch_text_eq condition fulfilment
  have hfirst : "t" ≠ "V" := by decide
  exact fun h => append_ne_append hfirst rfl x y (hx.symm.trans (h.trans hy))

/-- A reserved transfer and one in error answer no command alike. -/
theorem errored_events_ne {decide : TransferState → Decision} (hd : decision C cmd = some decide)
    (hreserved : s.transferInternalState = .reserved) :
    (decide s.errored).events ≠ (decide s).events := by
  have herror : s.errored.transferInternalState = .receivedError := rfl
  -- the answers to a command in the wrong state differ in the name of the state
  have hinvalid : ∀ (id : String) (needed : TransferInternalStates),
      (invalidState id s.errored needed).events ≠ (invalidState id s needed).events := by
    intro id needed h
    injection h with h
    injection h with _ h
    rw [String.append_left_inj, String.append_left_inj, String.append_right_inj, herror,
      hreserved] at h
    exact absurd h (by decide)
  have hstate : ∀ {state : TransferInternalStates}, state ≠ .reserved →
      s.transferInternalState ≠ state := fun h he => h (he.symm.trans hreserved)
  cases cmd with
  | prepareTransferCmd payload => cases hd
  | ackPayerFundsReservedCmd payload =>
    obtain rfl := Option.some.inj hd
    rw [decideAckPayerFundsReserved, decideAckPayerFundsReserved, herror,
      if_pos (hstate (by decide)), if_pos (by decide)]
    exact hinvalid _ _
  | ackPayeeFundsCommittedCmd payload =>
    obtain rfl := Option.some.inj hd
    rw [decideAckPayeeFundsCommitted, decideAckPayeeFundsCommitted, herror,
      if_pos (hstate (by decide)), if_pos (by decide)]
    exact hinvalid _ _
  | fulfilTransferCmd payload =>
    obtain rfl := Option.some.inj hd
    rw [decideFulfil, decideFulfil, herror, if_pos (by decide), if_neg (not_not.mpr hreserved),
      invalidState, herror]
    intro h
    rcases TransferState.fulfilTransfer_cases C s (fulfilTransferData payload) with
      ⟨-, hres⟩ | ⟨-, -, hres⟩ | ⟨-, hres⟩
    · rw [hres] at h
      injection h with h
      injection h with _ h
      exact absurd h (by decide +kernel)
    · rw [hres] at h
      exact invalidState_text_ne _ _ _ _ (Message.invalidTransferEvt.inj (List.cons.inj h).1).2
    · rw [hres] at h
      injection h with _ h
      cases h

/-! ## Runs -/

section Run

variable (hR : R.Lawful TransferState.id) (haliased : R.aliased = true) (h : Twins R a w)

include hR h

/-- The twins answer one command alike exactly when it leaves the spoilt transfers alone. -/
theorem Twins.published_eq_iff :
    (processCommand R C Faults.none w cmd).published =
        (processCommand redisTransferStateRepo C Faults.none a.world cmd).published ↔
      LeavesSpoiltAlone a cmd := by
  rw [processCommand_published hR, processCommand_published redis_lawful]
  constructor
  · intro heq
    by_contra hunsafe
    rw [LeavesSpoiltAlone, not_or, not_not] at hunsafe
    obtain ⟨hload, hspoilt⟩ := hunsafe
    obtain ⟨s, hs, hreserved, herr⟩ := h.spoilt _ hspoilt
    cases hd : decision C cmd with
    | none =>
      cases cmd with
      | prepareTransferCmd payload => exact hload rfl
      | _ => cases hd
    | some decide =>
      rw [verdict_of_decision hd, verdict_of_decision hd, hs, herr] at heq
      have hevents : ∀ t : TransferState,
          (verdictOn cmd.transferId decide (some t)).published Faults.none = (decide t).events := by
        intro t
        rw [verdictOn, Decision.verdict]
        split <;> rfl
      rw [hevents, hevents] at heq
      exact errored_events_ne hd hreserved heq
  · intro hsafe
    rw [h.verdict_eq hsafe]

include haliased

theorem Twins.answers_eq_iff (cmds : List Command) :
    answers R C w cmds = answers redisTransferStateRepo C a.world cmds ↔
      Machine.Along (Audit.next C) LeavesSpoiltAlone a cmds := by
  induction cmds generalizing a w with
  | nil => exact iff_of_true rfl trivial
  | cons cmd cmds ih =>
    rw [answers, answers, List.cons.injEq, Prod.mk.injEq]
    constructor
    · rintro ⟨⟨-, hpublished⟩, hrest⟩
      have hsafe := (h.published_eq_iff hR).mp hpublished
      exact ⟨hsafe, (ih (h.next hR haliased hsafe)).mp hrest⟩
    · rintro ⟨hsafe, hrest⟩
      refine ⟨⟨?_, (h.published_eq_iff hR).mpr hsafe⟩, (ih (h.next hR haliased hsafe)).mpr hrest⟩
      rw [processCommand_outcome hR, processCommand_outcome redis_lawful, h.verdict_eq hsafe]

end Run

theorem twins_start (hR : R.Lawful TransferState.id) : Twins R Audit.start World.start where
  redisKept := wellKept_start redis_lawful
  kept := wellKept_start hR
  duplicates := rfl
  spoilt id hid := absurd hid (Finset.notMem_empty id)
  unspoilt id _ := (hR.view_empty id).trans (redis_lawful.view_empty id).symm

end

/-- The five repositories cannot be told apart exactly as long as no command loads a
transfer that a mismatched fulfilment was tried on. -/
theorem unobservable_iff (C : Crypto) (cmds : List Command) :
    Unobservable C cmds ↔ Machine.Along (Audit.next C) LeavesSpoiltAlone Audit.start cmds := by
  have htwins : ∀ kind : RepoInfraTypes, kind ≠ .redis →
      (answers kind.repo C World.start cmds =
          answers redisTransferStateRepo C World.start cmds ↔
        Machine.Along (Audit.next C) LeavesSpoiltAlone Audit.start cmds) :=
    fun kind hkind => (twins_start kind.repo_lawful).answers_eq_iff kind.repo_lawful
      (kind.aliased_iff.mpr hkind) cmds
  constructor
  · intro h
    exact (htwins .inMemory (by decide)).mp (h .inMemory .redis)
  · intro h
    have hredis : ∀ kind : RepoInfraTypes,
        answers kind.repo C World.start cmds = answers redisTransferStateRepo C World.start cmds := by
      intro kind
      by_cases hkind : kind = .redis
      · rw [hkind]
        rfl
      · exact (htwins kind hkind).mpr h
    intro kind kind'
    rw [hredis kind, hredis kind']

/-- A transfer prepared under another condition gets the sample fulfilment twice.  Redis
answers the second one with a mismatch again, a map with the error state. -/
theorem choice_observed :
    let cmds : List Command :=
      [.prepareTransferCmd { samplePrepare with condition := sampleFulfil.fulfilment },
        .ackPayerFundsReservedCmd sampleAck, .fulfilTransferCmd sampleFulfil,
        .fulfilTransferCmd sampleFulfil]
    (answers redisTransferStateRepo sampleCrypto World.start cmds)[3]? =
      some (some false, [.invalidTransferEvt "t1"
        (FulfilError.validateFulfilConditionNoMatch sampleFulfil.fulfilment
          sampleFulfil.fulfilment).text]) ∧
    (answers inMemoryTransferStateRepo sampleCrypto World.start cmds)[3]? =
      some (some false, [.invalidTransferEvt "t1"
        "transfer in invalid state of RECEIVED_ERROR while should be RESERVED"]) ∧
    ¬ Unobservable sampleCrypto cmds := by
  intro cmds
  have hredis : (answers redisTransferStateRepo sampleCrypto World.start cmds)[3]? =
      some (some false, [.invalidTransferEvt "t1"
        (FulfilError.validateFulfilConditionNoMatch sampleFulfil.fulfilment
          sampleFulfil.fulfilment).text]) := by decide +kernel
  have hmap : (answers inMemoryTransferStateRepo sampleCrypto World.start cmds)[3]? =
      some (some false, [.invalidTransferEvt "t1"
        "transfer in invalid state of RECEIVED_ERROR while should be RESERVED"]) := by
    decide +kernel
  refine ⟨hredis, hmap, fun h => ?_⟩
  have heq := congrArg (fun shown => shown[3]?) (h .redis .inMemory)
  exact absurd (hredis.symm.trans (heq.trans hmap)) (by decide +kernel)

end TransfersAgg

end Transfers
end PocArchitecture
