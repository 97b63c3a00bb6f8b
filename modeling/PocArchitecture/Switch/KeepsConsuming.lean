/-
Whether a command handler stops its consumer.

The consumer awaits `_cmdHandler` and has no `catch` of its own.  `_cmdHandler` catches
everything and then reads the message of what it caught, so it rejects when that is null;
and what it reports about the message has to have a text.  The one call that is rejected
with null is a store of the root entity.
-/
import PocArchitecture.Infrastructure.ConsumeLoop
import PocArchitecture.Participants.CmdHandler
import PocArchitecture.Transfers.CmdHandler
import PocArchitecture.Transfers.History

namespace PocArchitecture
namespace Switch

open Infrastructure
open Domain (Reporting)
open Domain.CmdHandler

/-- The handler resolves, and the consumer commits its message and asks for the next. -/
def KeepsConsuming (handler : Promise Unit) : Prop :=
  handler = .ok () ∧
    ∀ (S : ConsumerSetup) (mode : RdKafkaCommitMode) (s : ConsumerLoop) (n : Nat),
      S.autoCommitEnabled = false → S.commitWaitMode = some mode → n ∈ s.suspended →
      (ConsumerLoop.step S s (.settled n handler.toOption.isSome)).timeline =
        s.timeline ++ [.resolved n, .commit n mode, .consume]

theorem keepsConsuming_iff {handler : Promise Unit} :
    KeepsConsuming handler ↔ handler = .ok () := by
  refine ⟨fun h => h.1, fun h => ⟨h, fun S mode s n hauto hmode hn => ?_⟩⟩
  rw [h, ConsumerLoop.step, if_pos hn, ConsumerLoop.commitActions_eq hauto hmode]
  rfl

/-- The consumers go on exactly when what is reported of the message has a text, and the
root entity of an accepted command is not stored in a repository that hands on Redis'
argument while Redis gives neither an error nor its `OK`.  The log of the transfers' handler
is written inside its `try` only. -/
theorem keeps_consuming_iff (reporting reporting' : Reporting)
    (t : Transfers.TransferCmdHandler.Delivery) (p : Participants.ParticipantCmdHandler.Delivery) :
    (KeepsConsuming (Transfers.TransferCmdHandler.cmdHandler reporting t) ↔
      reporting.takesLabel (evtname t.message) = true ∧
        ¬ ((reporting.isInfoEnabled = true → idsHaveText t.message = true) ∧ t.StoreUnanswered)) ∧
    (KeepsConsuming (Participants.ParticipantCmdHandler.cmdHandler reporting' p) ↔
      reporting'.takesLabel (evtname p.message) = true ∧
        (reporting'.isInfoEnabled = true → idsHaveText p.message = true) ∧
        ¬ p.StoreUnanswered) := by
  rw [keepsConsuming_iff, keepsConsuming_iff]
  exact ⟨Transfers.TransferCmdHandler.cmdHandler_resolves_iff reporting t,
    Participants.ParticipantCmdHandler.cmdHandler_resolves_iff reporting' p⟩

/-! ## Two messages that stop a consumer -/

/-- A `SETEX` that Redis answers with neither an error nor `OK`. -/
def sampleSet : SetCall :=
  { ready := true, thrown := none, answer := { err := .null, result := none } }

def acknowledged : Deliveries := { thrown := none, report := fun _ => .null }

/-- A new prepare, for a handler that keeps its transfers in Redis. -/
def samplePrepareDelivery : Transfers.TransferCmdHandler.Delivery :=
  { message := .object [("msgName", .string "PrepareTransferCmd")]
    command := .ok
      (Transfers.TransfersAgg.script Transfers.TransfersAgg.sampleCrypto
        (.prepareTransferCmd Transfers.TransfersAgg.samplePrepare))
    stores :=
      { entityState := .redis, duplicates := .redis, held := fun _ => none
        get := fun _ =>
          { ready := true, answer := { err := .null, result := none }, parse := fun _ => .error "" }
        add := fun _ => { ready := true, answer := { err := .null, result := 1 } }
        set := sampleSet }
    deliveries₁ := acknowledged, deliveries₂ := acknowledged }

/-- A message whose name is an object with a `toString` of its own. -/
def sampleUnnamedDelivery : Participants.ParticipantCmdHandler.Delivery :=
  { message := .object [("msgName", .object [("toString", .number 1)])]
    command := .error ""
    stores :=
      { stateCache := .inMemory, held := fun _ => none
        get := fun _ =>
          { ready := true, answer := { err := .null, result := none }, parse := fun _ => .error "" }
        offsets := fun _ =>
          { ready := true, answer := { err := .null, result := none }, parse := fun _ => .error "" }
        key := "", has := false, set := sampleSet }
    deliveries₁ := acknowledged, deliveries₂ := acknowledged }

/-- Everything is logged, and the histogram takes texts. -/
def sampleReporting : Reporting :=
  { isInfoEnabled := true, isWarnEnabled := true, takesLabel := Json.hasText }

/-- A reply other than `OK` stops the transfers' consumer, and a name that has no text stops
the participants'. -/
theorem consumers_stop :
    ¬ KeepsConsuming (Transfers.TransferCmdHandler.cmdHandler sampleReporting
      samplePrepareDelivery) ∧
    ¬ KeepsConsuming (Participants.ParticipantCmdHandler.cmdHandler sampleReporting
      sampleUnnamedDelivery) := by
  rw [keepsConsuming_iff, keepsConsuming_iff]
  have hprepare : Transfers.TransferCmdHandler.cmdHandler sampleReporting samplePrepareDelivery =
      .error nullError := by rfl
  have hunnamed : Participants.ParticipantCmdHandler.cmdHandler sampleReporting
      sampleUnnamedDelivery = .error typeError := by rfl
  rw [hprepare, hunnamed]
  exact ⟨fun h => (by cases h), fun h => (by cases h)⟩

end Switch
end PocArchitecture
