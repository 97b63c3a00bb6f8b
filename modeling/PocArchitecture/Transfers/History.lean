/-
Runs of the transfers aggregate.

`WellKept` is what every command keeps true of the repository and the duplicate set,
whatever fails: a transfer is kept under its own id, and its id has been seen.  A
history is a failure-free run with its record of commands and published messages, and
`next_cases` is everything one command can add to it.
-/
import PocArchitecture.Lib.Base64
import PocArchitecture.Lib.Machine
import PocArchitecture.Transfers.Verdict

namespace PocArchitecture
namespace Transfers

open PublicMessages Infrastructure
open Domain.BaseAggregate

/-- The steps of one transfer that a list of messages announces. -/
def milestones (id : String) (msgs : List Message) : List TransferInternalStates :=
  msgs.filterMap fun m => m.milestone.bind fun p => if p.1 = id then some p.2 else none

@[simp] theorem milestones_nil (id : String) : milestones id [] = [] := rfl

@[simp] theorem milestones_append (id : String) (msgs more : List Message) :
    milestones id (msgs ++ more) = milestones id msgs ++ milestones id more :=
  List.filterMap_append

theorem milestones_of_none {m : Message} (h : m.milestone = none) (id : String) :
    milestones id [m] = [] := by
  simp [milestones, h]

/-- An event that announces a step, followed by its state event. -/
theorem milestones_pair {m m' : Message} {i : String} {state : TransferInternalStates}
    (h : m.milestone = some (i, state)) (h' : m'.milestone = none) (id : String) :
    milestones id [m, m'] = if i = id then [state] else [] := by
  by_cases hi : i = id <;> simp [milestones, h, h', hi]

namespace TransfersAgg

variable {R : StateRepo TransferState} {C : Crypto} {f : Faults} {w : World} {cmd : Command}

theorem Advances.milestones_eq {s s' : TransferState} {events : List Message}
    (h : Advances C s cmd s' events) (id : String) :
    milestones id events = if s.id = id then [s'.transferInternalState] else [] := by
  cases h with
  | reserve payload hstate => exact milestones_pair rfl rfl id
  | fulfil payload hstate hfulfils => exact milestones_pair rfl rfl id
  | commit payload hstate => exact milestones_pair rfl rfl id

theorem prepare_milestones_eq (s : TransferState) (id : String) :
    milestones id (Verdict.prepare s).events = if s.id = id then [.receivedPrepare] else [] :=
  milestones_pair rfl rfl id

/-! ## What every command keeps -/

structure WellKept (R : StateRepo TransferState) (w : World) : Prop where
  view_id : ∀ id s, R.view w.repo id = some s → s.id = id
  seen : ∀ id s, R.view w.repo id = some s → id ∈ w.duplicates

theorem WellKept.keyed (h : WellKept R w) (cmd : Command) :
    ∀ s, R.view w.repo cmd.transferId = some s → s.id = cmd.transferId :=
  fun s hs => h.view_id _ s hs

theorem WellKept.view_of_unseen (h : WellKept R w) {id : String} (hid : id ∉ w.duplicates) :
    R.view w.repo id = none := by
  cases hv : R.view w.repo id with
  | none => rfl
  | some s => exact absurd (h.seen id s hv) hid

theorem wellKept_start (hR : R.Lawful TransferState.id) : WellKept R World.start where
  view_id id s hs := by
    rw [World.start, hR.view_empty] at hs
    cases hs
  seen id s hs := by
    rw [World.start, hR.view_empty] at hs
    cases hs

/-- Where a shown transfer comes from: it was shown before, or the command put it there. -/
theorem finalView_some {v : Verdict} {aliased : Bool} {before : Option TransferState}
    {s : TransferState} (h : v.finalView aliased f before = some s) :
    before = some s ∨ (v.accepted = some s ∧ (aliased = true ∨ f.publish₁.isOk = true)) ∨
      ∃ events, v = .refuse (some s) events ∧ aliased = true := by
  rw [Verdict.finalView] at h
  split at h
  · rename_i hstored
    rw [Bool.and_eq_true, Bool.and_eq_true] at hstored
    exact Or.inr (Or.inl ⟨h, Or.inr hstored.1.2⟩)
  · cases v with
    | reject => exact Or.inl h
    | prepare _ => exact Or.inl h
    | refuse root events =>
      cases root with
      | none => exact Or.inl h
      | some root =>
        rw [Verdict.handledView] at h
        split at h
        · obtain rfl := Option.some.inj h
          exact Or.inr (Or.inr ⟨events, rfl, ‹_›⟩)
        · exact Or.inl h
    | advance root root' events =>
      rw [Verdict.handledView] at h
      split at h
      · exact Or.inr (Or.inl ⟨h, Or.inl ‹_›⟩)
      · exact Or.inl h

/-- The duplicate set never forgets. -/
theorem subset_duplicates (v : Verdict) (before : Finset String) : before ⊆ v.duplicates before := by
  cases v with
  | prepare s => exact Finset.subset_insert _ _
  | _ => exact Finset.Subset.refl _

theorem WellKept.processCommand (hR : R.Lawful TransferState.id) (h : WellKept R w) (C : Crypto)
    (f : Faults) (cmd : Command) : WellKept R (processCommand R C f w cmd).repo := by
  have key : ∀ id s, R.view (TransfersAgg.processCommand R C f w cmd).repo.repo id = some s →
      s.id = id ∧ id ∈ (TransfersAgg.processCommand R C f w cmd).repo.duplicates := by
    intro id s hs
    rw [processCommand_duplicates hR]
    have hsub := subset_duplicates (verdict R C f w cmd) w.duplicates
    by_cases hid : id = cmd.transferId
    · subst hid
      rw [processCommand_view_self hR (h.keyed cmd)] at hs
      have hbefore : ∀ t, R.view w.repo cmd.transferId = some t →
          t.id = cmd.transferId ∧
            cmd.transferId ∈ (verdict R C f w cmd).duplicates w.duplicates :=
        fun t ht => ⟨h.view_id _ t ht, hsub (h.seen _ t ht)⟩
      rcases finalView_some hs with hv | ⟨hacc, -⟩ | ⟨events, hv, -⟩
      · exact hbefore s hv
      · refine ⟨verdict_accepted_id (h.keyed cmd) hacc, ?_⟩
        rcases verdict_cases R C f w cmd with
          ⟨-, hv⟩ | ⟨payload, rfl, -, hv⟩ | ⟨_, _, hv, -⟩ | ⟨root, _, _, -, hroot, -⟩
        · rw [hv] at hacc
          cases hacc
        · rw [hv]
          exact Finset.mem_insert_self _ _
        · rw [hv] at hacc
          cases hacc
        · exact (hbefore root hroot).2
      · rcases verdict_cases R C f w cmd with
          ⟨-, hv'⟩ | ⟨_, -, -, hv'⟩ | ⟨root, m, hv', -, hroot⟩ | ⟨_, _, _, hv', -⟩ <;>
          rw [hv] at hv' <;> cases hv'
        obtain ⟨t, ht, hspoils⟩ := hroot s rfl
        exact ⟨hspoils.id_eq.trans (hbefore t ht).1, (hbefore t ht).2⟩
    · rw [processCommand_view_ne hR (h.keyed cmd) hid] at hs
      exact ⟨h.view_id id s hs, hsub (h.seen id s hs)⟩
  exact { view_id := fun id s hs => (key id s hs).1, seen := fun id s hs => (key id s hs).2 }

/-! ## Histories -/

/-- A command and what was published for it. -/
structure Entry where
  cmd : Command
  published : List Message

/-- The aggregate, and what it did so far. -/
structure History where
  world : World
  entries : List Entry

namespace History

def start : History := { world := World.start, entries := [] }

/-- One more command, without failures. -/
def next (R : StateRepo TransferState) (C : Crypto) (h : History) (cmd : Command) : History :=
  let settled := processCommand R C Faults.none h.world cmd
  { world := settled.repo, entries := h.entries ++ [{ cmd := cmd, published := settled.published }] }

def published (h : History) : List Message := h.entries.flatMap (·.published)

end History

/-- The history of a list of commands. -/
def history (R : StateRepo TransferState) (C : Crypto) (cmds : List Command) : History :=
  Machine.run (History.next R C) History.start cmds

theorem history_append (cmds more : List Command) :
    history R C (cmds ++ more) = Machine.run (History.next R C) (history R C cmds) more :=
  Machine.run_append _ _ _ _

@[simp] theorem history_append_one (cmds : List Command) (cmd : Command) :
    history R C (cmds ++ [cmd]) = (history R C cmds).next R C cmd :=
  history_append cmds [cmd]

theorem history_wellKept (hR : R.Lawful TransferState.id) (cmds : List Command) :
    WellKept R (history R C cmds).world :=
  Machine.run_always (I := fun h : History => WellKept R h.world)
    (fun _ cmd hw => hw.processCommand hR C Faults.none cmd) (wellKept_start hR) cmds

/-- What one command without failures does to the transfer it names. -/
inductive Effect (R : StateRepo TransferState) (C : Crypto) (w : World) (cmd : Command) :
    Option TransferState → List Message → Prop where
  | prepare (payload : PrepareTransferCmdPayload) (hcmd : cmd = .prepareTransferCmd payload)
      (hnew : cmd.transferId ∉ w.duplicates) :
    Effect R C w cmd (some (TransferState.prepareTransfer (prepareTransferData payload)))
      (Verdict.prepare (TransferState.prepareTransfer (prepareTransferData payload))).events
  | refuse (m : Message) (hm : m.milestone = none) :
    Effect R C w cmd (R.view w.repo cmd.transferId) [m]
  | spoil (m : Message) (hm : m.milestone = none) (s : TransferState)
      (hs : R.view w.repo cmd.transferId = some s) (haliased : R.aliased = true)
      (hmismatch : Mismatch C s cmd) :
    Effect R C w cmd (some { s with transferInternalState := .receivedError }) [m]
  | advance (s s' : TransferState) (events : List Message)
      (hs : R.view w.repo cmd.transferId = some s) (hadv : Advances C s cmd s' events) :
    Effect R C w cmd (some s') events

theorem processCommand_effect (hR : R.Lawful TransferState.id) (h : WellKept R w) (cmd : Command) :
    Effect R C w cmd (R.view (processCommand R C Faults.none w cmd).repo.repo cmd.transferId)
      (processCommand R C Faults.none w cmd).published := by
  rw [processCommand_view_self hR (h.keyed cmd), processCommand_published hR]
  rcases verdict_cases R C Faults.none w cmd with
    ⟨hadd, -⟩ | ⟨payload, hcmd, hnew, hv⟩ | ⟨root, m, hv, hm, hroot⟩ | ⟨s, s', events, hv, hs, hadv⟩
  · cases hadd
  · rw [hv]
    exact .prepare payload hcmd (by rw [hcmd]; exact hnew)
  · rw [hv]
    cases root with
    | none => exact .refuse m hm
    | some s' =>
      obtain ⟨s, hs, hspoils⟩ := hroot s' rfl
      change Effect R C w cmd (if R.aliased then some s' else R.view w.repo cmd.transferId) [m]
      split
      · rcases hspoils with rfl | ⟨hmismatch, rfl⟩
        · rw [← hs]
          exact .refuse m hm
        · exact .spoil m hm s hs ‹_› hmismatch
      · exact .refuse m hm
  · rw [hv]
    exact .advance s s' events hs hadv

theorem processCommand_view_other (hR : R.Lawful TransferState.id) (h : WellKept R w)
    {id : String} (hid : id ≠ cmd.transferId) :
    R.view (processCommand R C Faults.none w cmd).repo.repo id = R.view w.repo id :=
  processCommand_view_ne hR (h.keyed cmd) hid

/-- Nothing is announced for another transfer. -/
theorem processCommand_milestones_other (hR : R.Lawful TransferState.id) (h : WellKept R w)
    {id : String} (hid : id ≠ cmd.transferId) :
    milestones id (processCommand R C Faults.none w cmd).published = [] := by
  have heff := processCommand_effect (C := C) hR h cmd
  generalize R.view (processCommand R C Faults.none w cmd).repo.repo cmd.transferId = after at heff
  generalize (processCommand R C Faults.none w cmd).published = msgs at heff ⊢
  cases heff with
  | prepare payload hcmd hnew =>
    rw [prepare_milestones_eq, if_neg]
    intro h
    rw [hcmd] at hid
    exact hid h.symm
  | refuse m hm => exact milestones_of_none hm id
  | spoil m hm s hs haliased hmismatch => exact milestones_of_none hm id
  | advance s s' events hs hadv =>
    rw [hadv.milestones_eq, if_neg]
    intro hsid
    exact hid (hsid.symm.trans (h.keyed cmd s hs))

/-! ## A small example -/

/-- The `base64url` codec, with a digest function that is right for the one preimage below. -/
def sampleCrypto : Crypto where
  toBuffer := Base64.decode
  sha256 _ := Base64.decode "HOr22-H3AfTDHrSkPjJtVPRdKouuMkDXTR4ejlQa8Ks"
  base64 := Base64.encode
  fromBase64 := Base64.toUrl
  base64url := Base64.encodeUrl
  fromBase64_base64 := Base64.toUrl_encode
  toBuffer_base64url := Base64.decode_encodeUrl

/-- The condition and the fulfilment that the development tools send. -/
def samplePrepare : PrepareTransferCmdPayload :=
  { transferId := "t1", amount := "10", currency := "USD", payerId := "blue", payeeId := "green"
    expiration := "2020-06-30T00:00:00.000Z"
    condition := "HOr22-H3AfTDHrSkPjJtVPRdKouuMkDXTR4ejlQa8Ks", prepare := none }

def sampleAck : AckPayload := { transferId := "t1", payerEndPoints := [], payeeEndPoints := [] }

def sampleFulfil : FulfilTransferCmdPayload :=
  { transferId := "t1", payerId := "blue", payeeId := "green"
    fulfilment := "XoSz1cL0tljJSCp_VtIYmPNw-zFUgGfbUqf69AagUzY"
    completedTimestamp := "2020-06-29T12:00:00.000Z", transferState := "COMMITTED", fulfil := none }

/-- Prepared, reserved and fulfilled. -/
def sampleRun : List Command :=
  [.prepareTransferCmd samplePrepare, .ackPayerFundsReservedCmd sampleAck,
    .fulfilTransferCmd sampleFulfil]

end TransfersAgg

end Transfers
end PocArchitecture
