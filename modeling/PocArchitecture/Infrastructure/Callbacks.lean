/-
How the promises of the repositories, the duplicate stores and the producer settle.

Redis and Kafka answer through callbacks whose first argument is an error or null.  A
promise is rejected with an error of the program's own, or with that argument.  Where it
is the argument, it matters whether it was tested first: `redisStore` rejects a reply
other than `OK` after it has found the argument to be null, and the repositories differ
in what they put there.
-/
import PocArchitecture.Infrastructure.StateRepo
import Mathlib.Data.List.Range

namespace PocArchitecture
namespace Infrastructure

/-- The error argument of a callback, and the value a promise is rejected with. -/
inductive Reason where
  | null
  | error (message : String)
  deriving DecidableEq

/-- `err.message`, which cannot be read from null. -/
def Reason.message : Reason → Option String
  | null => none
  | error message => some message

/-- A promise that has settled. -/
abbrev Promise (A : Type) := Except Reason A

/-- The promise is rejected, and there is nothing to tell why. -/
def Promise.IsNull {A : Type} : Promise A → Prop
  | .error .null => True
  | _ => False

/-! ## Redis -/

structure RedisAnswer (A : Type) where
  err : Reason
  result : A

/-- `if (err != null) return reject(err)`, and otherwise the rest of the callback. -/
def RedisAnswer.settle {A B : Type} (answer : RedisAnswer A) (rest : A → Promise B) : Promise B :=
  if answer.err ≠ .null then .error answer.err else rest answer.result

def notReady {A : Type} : Promise A := .error (.error "Repository not ready")

/-- A `GET`, and the parser of what it finds. -/
structure GetCall (S : Type) where
  ready : Bool
  answer : RedisAnswer (Option String)
  parse : String → Except String S

def redisLoad {S : Type} (call : GetCall S) : Promise (Option S) :=
  if call.ready ≠ true then notReady
  else call.answer.settle fun
    | none => .ok none
    | some text =>
      match call.parse text with
      | .ok state => .ok (some state)
      | .error message => .error (.error message)

/-- A map in front of Redis. -/
def cachedLoad {S : Type} (held : Option S) (call : GetCall S) : Promise (Option S) :=
  if call.ready ≠ true then notReady
  else
    match held with
    | some state => .ok (some state)
    | none => redisLoad call

/-- An `SADD`. -/
structure AddCall where
  ready : Bool
  answer : RedisAnswer Int

def redisAdd (call : AddCall) : Promise Bool :=
  if call.ready ≠ true then notReady else call.answer.settle fun result => .ok (result == 1)

/-- A `SET` or a `SETEX`.  `thrown` is an error on the way there: the state has no JSON
text, or the map in front does not take it. -/
structure SetCall where
  ready : Bool
  thrown : Option String
  answer : RedisAnswer (Option String)

/-- `other` makes the reason when the reply is not `OK`. -/
def redisStore (other : Reason → Reason) (call : SetCall) : Promise Unit :=
  if call.ready ≠ true then notReady
  else
    match call.thrown with
    | some message => .error (.error message)
    | none => call.answer.settle fun reply =>
        if reply ≠ some "OK" then .error (other call.answer.err) else .ok ()

/-- Redis gave neither an error nor its `OK`. -/
def SetCall.Unanswered (call : SetCall) : Prop :=
  call.ready = true ∧ call.thrown = none ∧ call.answer.err = .null ∧
    call.answer.result ≠ some "OK"

section

variable {A B S : Type}

@[simp] theorem not_isNull_ok (a : A) : ¬ Promise.IsNull (.ok a : Promise A) := id

@[simp] theorem not_isNull_error (message : String) :
    ¬ Promise.IsNull (.error (.error message) : Promise A) := id

@[simp] theorem isNull_null : Promise.IsNull (.error .null : Promise A) := trivial

theorem isNull_iff {p : Promise A} : p.IsNull ↔ p = .error .null := by
  cases p with
  | ok a => simp
  | error r => cases r <;> simp

theorem error_not_isNull {err : Reason} (h : ¬ Promise.IsNull (.error err : Promise A)) :
    ¬ Promise.IsNull (.error err : Promise B) := by
  cases err with
  | null => exact absurd isNull_null h
  | error message => exact not_isNull_error message

/-- What is awaited, and what follows. -/
theorem bind_isNull_iff {p : Promise A} {rest : A → Promise B} :
    Promise.IsNull (p >>= rest) ↔ p.IsNull ∨ ∃ a, p = .ok a ∧ (rest a).IsNull := by
  cases p with
  | ok a =>
    show (rest a).IsNull ↔ _
    simp
  | error err =>
    show Promise.IsNull (.error err : Promise B) ↔ _
    cases err <;> simp

theorem bind_not_isNull {p : Promise A} {rest : A → Promise B} (hp : ¬ p.IsNull)
    (hrest : ∀ a, ¬ (rest a).IsNull) : ¬ Promise.IsNull (p >>= rest) := by
  rw [bind_isNull_iff]
  rintro (h | ⟨a, -, h⟩)
  · exact hp h
  · exact hrest a h

theorem bind_eq_ok {p : Promise A} {rest : A → Promise B} {b : B} (h : p >>= rest = .ok b) :
    ∃ a, p = .ok a ∧ rest a = .ok b := by
  cases p with
  | ok a => exact ⟨a, rfl, h⟩
  | error err => cases h

/-- A callback that tests its error first rejects with null only in the rest. -/
theorem RedisAnswer.isNull_settle {answer : RedisAnswer A} {rest : A → Promise B} :
    (answer.settle rest).IsNull ↔ answer.err = .null ∧ (rest answer.result).IsNull := by
  rw [settle]
  cases answer.err with
  | null => simp
  | error message => simp

theorem redisLoad_not_isNull (call : GetCall S) : ¬ (redisLoad call).IsNull := by
  rw [redisLoad]
  split
  · exact not_isNull_error _
  · rw [RedisAnswer.isNull_settle]
    rintro ⟨-, h⟩
    cases hresult : call.answer.result with
    | none =>
      rw [hresult] at h
      exact h
    | some text =>
      rw [hresult] at h
      dsimp only at h
      cases hp : call.parse text with
      | ok state =>
        rw [hp] at h
        exact h
      | error message =>
        rw [hp] at h
        exact h

theorem cachedLoad_not_isNull (held : Option S) (call : GetCall S) :
    ¬ (cachedLoad held call).IsNull := by
  unfold cachedLoad
  split
  · exact not_isNull_error _
  · cases held with
    | some state => exact not_isNull_ok _
    | none => exact redisLoad_not_isNull call

theorem redisAdd_not_isNull (call : AddCall) : ¬ (redisAdd call).IsNull := by
  rw [redisAdd]
  split
  · exact not_isNull_error _
  · rw [RedisAnswer.isNull_settle]
    exact fun h => h.2

/-- A store that hands on the argument it tested rejects with null when Redis gives
neither an error nor its `OK`. -/
theorem redisStore_isNull_iff {other : Reason → Reason} {call : SetCall} :
    (redisStore other call).IsNull ↔ call.Unanswered ∧ other .null = .null := by
  rw [redisStore, SetCall.Unanswered]
  cases call.ready with
  | false => simp [notReady]
  | true =>
    cases call.thrown with
    | some message => simp
    | none =>
      rw [if_neg (not_not.mpr rfl), RedisAnswer.isNull_settle]
      by_cases hreply : call.answer.result = some "OK"
      · simp [hreply]
      · cases herr : call.answer.err with
        | error message => simp
        | null => simp [hreply, isNull_iff]

end

/-! ## The producer -/

/-- One `publishMany`: an error thrown while the messages are handed over, and the reports
of the broker in the order in which they come. -/
structure Deliveries where
  thrown : Option String
  report : Nat → Reason

namespace RDKafkaProducer

/-- `send` of `n` messages: rejected with the first report that is not null, resolved when
each message is acknowledged. -/
def send (deliveries : Deliveries) (n : Nat) : Promise Unit :=
  match deliveries.thrown with
  | some message => .error (.error message)
  | none =>
    match ((List.range n).map deliveries.report).find? (· ≠ .null) with
    | some err => .error err
    | none => .ok ()

theorem send_not_isNull (deliveries : Deliveries) (n : Nat) : ¬ (send deliveries n).IsNull := by
  rw [send]
  cases deliveries.thrown with
  | some message => exact not_isNull_error _
  | none =>
    dsimp only
    cases hfound : ((List.range n).map deliveries.report).find? (· ≠ .null) with
    | none => exact not_isNull_ok _
    | some err =>
      have herr := List.find?_some hfound
      cases err with
      | null => simp at herr
      | error message => exact not_isNull_error _

end RDKafkaProducer

end Infrastructure
end PocArchitecture
