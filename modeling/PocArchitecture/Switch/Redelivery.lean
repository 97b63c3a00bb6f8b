/-
Redelivery of handled messages.

An offset is committed only after the handler has run, so that after a crash the message
comes again.  The transfers side takes this: it has the duplicate set and the states of the
transfers, and announces every step once.  The participants side has neither, and takes
each command on its own.  So a redelivery is harmless as long as the participants' own
checks refuse what comes of it, and a redelivered reserve that they admit is reserved twice.
-/
import PocArchitecture.Switch.Orderly

namespace PocArchitecture
namespace Switch

open PublicMessages Infrastructure
open Participants (ParticipantState BigNumber redisParticipantStateRepo)
open Participants.ParticpantsAgg (Admits stored)
open Transfers (Crypto)

namespace Exchange

/-- The participant command that a step hands over, if it is a redelivery or comes of one. -/
def echoedCommand (s : Exchange) (d : Delivery) : Option Participants.Command :=
  match s.taken d with
  | some { msg := .participantCmd cmd, echo := true } => some cmd
  | _ => none

/-- The participants do not admit it. -/
def Refuses (B : BigNumber) (s : Exchange) (d : Delivery) : Prop :=
  ∀ cmd ∈ s.echoedCommand d, ¬ Admits redisParticipantStateRepo B s.stores.participants cmd

instance (B : BigNumber) (s : Exchange) (d : Delivery) : Decidable (Refuses B s d) :=
  Option.decidableForallMem _

/-- A redelivery, and what comes of one, leaves every participant alone. -/
def Unmoved (B : BigNumber) (C : Crypto) (s : Exchange) (d : Delivery) : Prop :=
  ∀ e, s.taken d = some e → e.echo = true → ∀ id,
    stored (step B C s d).stores.participants id = stored s.stores.participants id

/-- For every transfer at most one reserve and at most one commit has moved a position. -/
def AtMostOnce (s : Exchange) : Prop :=
  ∀ id, (s.done.countP fun h => h.moved && reserveFor id h.msg) ≤ 1 ∧
    (s.done.countP fun h => h.moved && commitFor id h.msg) ≤ 1

/-- Redelivery does no harm to positions in this run. -/
structure Harmless (B : BigNumber) (C : Crypto) (partitioner : String → Nat)
    (deliveries : List Delivery) : Prop where
  unmoved : Machine.Along (step B C) (Unmoved B C) (start partitioner) deliveries
  atMostOnce : AtMostOnce (run B C partitioner deliveries)

end Exchange

/-! ## The invariant -/

/-- Echoes have moved nothing so far, and none of them creates a participant. -/
structure Quiet (s : Exchange) : Prop where
  orderly : Orderly s
  nobody : ∀ e ∈ s.pending, e.echo = true →
    ∀ p, e.msg ≠ .participantCmd (.createParticipantCmd p)
  still : ∀ h ∈ s.done, h.echo = true → h.moved = false

namespace Quiet

open Exchange (Refuses Unmoved AtMostOnce Harmless)

variable {B : BigNumber} {C : Crypto} {s : Exchange} {d : Delivery}

theorem start (partitioner : String → Nat) : Quiet (Exchange.start partitioner) where
  orderly := Orderly.start partitioner
  nobody _ he := absurd he List.not_mem_nil
  still _ hh := absurd hh List.not_mem_nil

theorem not_admits (hrefuses : Refuses B s d) {e : Envelope} (htaken : s.taken d = some e)
    (hecho : e.echo = true) {cmd : Participants.Command} (hmsg : e.msg = .participantCmd cmd) :
    ¬ Admits redisParticipantStateRepo B s.stores.participants cmd := by
  refine hrefuses cmd ?_
  obtain ⟨msg, echo⟩ := e
  subst hecho hmsg
  rw [Exchange.echoedCommand, htaken]
  rfl

/-- An echo in the consumer's hands creates nobody. -/
theorem not_create (h : Quiet s) {e : Envelope}
    (hknown : e ∈ s.pending ∨ d.isRedelivery = true ∧ e.echo = true ∧
      e.msg.redeliverable = true ∧ ∃ h ∈ s.done, h.msg = e.msg)
    (hecho : e.echo = true) (p : ParticipantState) :
    e.msg ≠ .participantCmd (.createParticipantCmd p) := by
  rcases hknown with he | ⟨-, -, hre, -⟩
  · exact h.nobody e he hecho p
  · intro hmsg
    rw [hmsg] at hre
    cases hre

theorem step (h : Quiet s) (hrefuses : Refuses B s d) : Quiet (Exchange.step B C s d) := by
  have horderly := h.orderly.step B C d
  have htook := Exchange.took B C s d
  generalize Exchange.step B C s d = s' at htook horderly ⊢
  cases htook with
  | receive input hd =>
    refine { orderly := horderly, nobody := fun e he hecho => ?_, still := h.still }
    rcases List.mem_append.mp he with he | he
    · exact h.nobody e he hecho
    · obtain rfl := List.mem_singleton.mp he
      cases hecho
  | handle e rest htaken hrest hknown hfresh =>
    refine { orderly := horderly, nobody := fun e' he' hecho => ?_, still := fun h' hh' hecho => ?_ }
    · rcases List.mem_append.mp he' with he' | he'
      · exact h.nobody e' (hrest e' he') hecho
      · obtain ⟨m, hm, rfl⟩ := List.mem_map.mp he'
        rintro p rfl
        exact react_creates_nobody hm
    · rcases List.mem_append.mp hh' with hh' | hh'
      · exact h.still h' hh' hecho
      · obtain rfl := List.mem_singleton.mp hh'
        refine Bool.eq_false_iff.mpr fun hmoved => ?_
        obtain ⟨cmd, hmsg, hadmits⟩ :=
          (moved_entry h.orderly.wellKept h.orderly.allStored).mp hmoved
        exact not_admits hrefuses htaken hecho hmsg hadmits
  | idle htaken => exact h

theorem unmoved (h : Quiet s) (hrefuses : Refuses B s d) : Unmoved B C s d := by
  intro e he hecho id
  have htook := Exchange.took B C s d
  generalize Exchange.step B C s d = s' at htook ⊢
  cases htook with
  | receive input hd => rfl
  | handle e' rest htaken hrest hknown hfresh =>
    obtain rfl := Option.some.inj (he.symm.trans htaken)
    change stored (react B C Faults.none s.stores e.msg).1.participants id = _
    by_cases hcmd : ∃ cmd, e.msg = .participantCmd cmd
    · obtain ⟨cmd, hmsg⟩ := hcmd
      rw [hmsg]
      change stored (Participants.ParticpantsAgg.process B s.stores.participants cmd).repo id = _
      cases Participants.ParticpantsAgg.process_effect h.orderly.wellKept.participants
        h.orderly.allStored B cmd with
      | still hsame hnot hsilent => exact hsame id
      | create p hcreate => exact absurd (hcreate ▸ hmsg) (h.not_create hknown hecho p)
      | move root root' hmoves =>
        exact absurd (Participants.ParticpantsAgg.admits_iff.mpr ⟨root, root', hmoves⟩)
          (not_admits hrefuses htaken hecho hmsg)
    · rw [react_participants fun cmd hmsg => hcmd ⟨cmd, hmsg⟩]
  | idle htaken => rfl

/-- What moved was fresh, and of that there is one at most. -/
theorem atMostOnce (h : Quiet s) : AtMostOnce s := by
  have hle : ∀ p : DomainMessage → Bool,
      (s.done.countP fun h => h.moved && p h.msg) ≤ s.handledFresh p := by
    refine fun p => List.countP_mono_left fun h' hh' hmoved => ?_
    rw [Bool.and_eq_true] at hmoved ⊢
    refine ⟨?_, hmoved.2⟩
    cases hecho : h'.echo with
    | true => rw [h.still h' hh' hecho] at hmoved; cases hmoved.1
    | false => rfl
  exact fun id => ⟨le_trans (hle _) (h.orderly.reserve_once id),
    le_trans (hle _) (h.orderly.commit_once id)⟩

end Quiet

/-- Redelivery is harmless in every run in which the participants refuse every command
that is redelivered or comes of a redelivery. -/
theorem harmless_along (B : BigNumber) (C : Crypto) (partitioner : String → Nat)
    (deliveries : List Delivery)
    (h : Machine.Along (Exchange.step B C) (Exchange.Refuses B) (Exchange.start partitioner)
      deliveries) : Exchange.Harmless B C partitioner deliveries where
  unmoved := Machine.along_of_invariant (fun _ _ hq hr => Quiet.step hq hr)
    (fun _ _ hq hr => Quiet.unmoved hq hr) (Quiet.start partitioner) h
  atMostOnce := (Machine.run_invariant (I := Quiet) (fun _ _ hq hr => Quiet.step hq hr)
    (Quiet.start partitioner) h).atMostOnce

/-- The reserve of the sample once more. -/
def sampleRedelivery (amount : String) : List Delivery :=
  sampleReservation amount ++
    [.redeliver (.participantCmd (.reservePayerFundsCmd (samplePrepare amount).terms))]

/-- Sixty are reserved; another sixty would exceed the cap. -/
theorem harmless_along_sample :
    Exchange.Harmless Participants.wholeNumbers Transfers.TransfersAgg.sampleCrypto (fun _ => 0)
      (sampleRedelivery "60") :=
  harmless_along Participants.wholeNumbers Transfers.TransfersAgg.sampleCrypto (fun _ => 0)
    (sampleRedelivery "60") (by decide +kernel)

/-- Ten are reserved, and ten again when the command comes again. -/
theorem redelivered_reserve_moves :
    stored (Exchange.run Participants.wholeNumbers Transfers.TransfersAgg.sampleCrypto
        (fun _ => 0) (sampleReservation "10")).stores.participants "blue" =
      some ((Participants.ParticpantsAgg.sampleParticipant "blue").setPosition "USD" "10") ∧
    stored (Exchange.run Participants.wholeNumbers Transfers.TransfersAgg.sampleCrypto
        (fun _ => 0) (sampleRedelivery "10")).stores.participants "blue" =
      some ((Participants.ParticpantsAgg.sampleParticipant "blue").setPosition "USD" "20") ∧
    ¬ Exchange.Harmless Participants.wholeNumbers Transfers.TransfersAgg.sampleCrypto
      (fun _ => 0) (sampleRedelivery "10") :=
  ⟨by decide +kernel, by decide +kernel,
    fun h => absurd (h.atMostOnce "t1").1 (by decide +kernel)⟩

end Switch
end PocArchitecture
