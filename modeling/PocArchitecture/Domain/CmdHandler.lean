/-
What the two `_cmdHandler` methods have in common: the block they `try`.

The block turns a message into a command by its name, has the aggregate process it, and
reports.  Reports are texts made of the name, the key and the id of the message, which
are whatever the JSON of the message holds, and a label of a histogram.
-/
import PocArchitecture.Infrastructure.Callbacks
import PocArchitecture.Lib.Json

namespace PocArchitecture
namespace Domain

open Infrastructure

/-- The logger's levels, and the values the histogram takes as a label. -/
structure Reporting where
  isInfoEnabled : Bool
  isWarnEnabled : Bool
  takesLabel : Json → Bool

namespace CmdHandler

/-- `message.msgName ?? 'unknown'` -/
def evtname (message : Json) : Json :=
  match message.field "msgName" with
  | none | some .null => .string "unknown"
  | some msgName => msgName

/-- The name, the key and the id can be put into a text. -/
def idsHaveText (message : Json) : Bool :=
  ["msgName", "msgKey", "msgId"].all fun key => ((message.field key).map Json.hasText).getD true

/-- The name of a message that has one. -/
def msgName (message : Json) : String :=
  match message.field "msgName" with
  | some (.string name) => name
  | _ => "unknown"

def typeError : Reason := .error "Cannot convert object to primitive value"

/-- A line of the log with the name, the key and the id. -/
def log (enabled : Bool) (message : Json) : Promise Unit :=
  if enabled && !idsHaveText message then .error typeError else .ok ()

/-- What reading a property of null throws. -/
def nullError : Reason := .error "Cannot read property 'message' of null"

def histTimer (reporting : Reporting) (message : Json) : Promise Unit :=
  if reporting.takesLabel (evtname message) then .ok () else .error typeError

/-- The `switch` finds a command for the message. -/
def Named (names : List String) (message : Json) : Prop :=
  ∃ name ∈ names, message.field "msgName" = some (.string name)

/-- `Named`, computed. -/
def isNamed (names : List String) (message : Json) : Bool :=
  match message.field "msgName" with
  | some (.string name) => names.contains name
  | _ => false

/-- The `try` block.  `command` is the promise of `processCommand`, unless making a command
of the message throws; `unable` is said of a message that is no command. -/
def attempt (reporting : Reporting) (names : List String) (unable : Promise Unit) (message : Json)
    (command : Except String (Promise Bool)) : Promise Unit := do
  log reporting.isInfoEnabled message
  if isNamed names message then
    match command with
    | .error thrown => .error (.error thrown)
    | .ok processed =>
      let _ ← processed
      log reporting.isInfoEnabled message
      histTimer reporting message
  else
    log reporting.isWarnEnabled message
    unable
    log reporting.isInfoEnabled message
    histTimer reporting message

section

variable {reporting : Reporting} {names : List String} {unable : Promise Unit} {message : Json}
  {command : Except String (Promise Bool)}

theorem isNamed_iff : isNamed names message = true ↔ Named names message := by
  rw [isNamed, Named]
  cases message.field "msgName" with
  | none => simp
  | some msgName => cases msgName <;> simp

theorem log_eq_ok_iff {enabled : Bool} :
    log enabled message = .ok () ↔ (enabled = true → idsHaveText message = true) := by
  rw [log]
  cases enabled <;> cases idsHaveText message <;> simp

theorem log_not_isNull (enabled : Bool) (message : Json) : ¬ (log enabled message).IsNull := by
  rw [log]
  split
  · exact not_isNull_error _
  · exact not_isNull_ok ()

theorem histTimer_eq_ok_iff :
    histTimer reporting message = .ok () ↔ reporting.takesLabel (evtname message) = true := by
  rw [histTimer]
  cases reporting.takesLabel (evtname message) <;> simp

theorem histTimer_not_isNull (reporting : Reporting) (message : Json) :
    ¬ (histTimer reporting message).IsNull := by
  rw [histTimer]
  split
  · exact not_isNull_ok ()
  · exact not_isNull_error _

/-- The block gets to its end only past a log line and the histogram. -/
theorem attempt_ok (h : attempt reporting names unable message command = .ok ()) :
    (reporting.isInfoEnabled = true → idsHaveText message = true) ∧
      reporting.takesLabel (evtname message) = true := by
  unfold attempt at h
  obtain ⟨_, hlog, h⟩ := bind_eq_ok h
  refine ⟨log_eq_ok_iff.mp hlog, histTimer_eq_ok_iff.mp ?_⟩
  split at h
  · cases command with
    | error thrown => cases h
    | ok processed =>
      obtain ⟨result, -, h⟩ := bind_eq_ok h
      obtain ⟨_, -, h⟩ := bind_eq_ok h
      exact h
  · obtain ⟨_, -, h⟩ := bind_eq_ok h
    obtain ⟨_, -, h⟩ := bind_eq_ok h
    obtain ⟨_, -, h⟩ := bind_eq_ok h
    exact h

/-- Null comes out of the block only as the reason of `processCommand`. -/
theorem attempt_isNull_iff (hunable : ¬ unable.IsNull) :
    (attempt reporting names unable message command).IsNull ↔
      (reporting.isInfoEnabled = true → idsHaveText message = true) ∧ Named names message ∧
        ∃ processed, command = .ok processed ∧ processed.IsNull := by
  have hend : ¬ Promise.IsNull (do
      log reporting.isInfoEnabled message
      histTimer reporting message) :=
    bind_not_isNull (log_not_isNull _ _) fun _ => histTimer_not_isNull _ _
  unfold attempt
  rw [bind_isNull_iff, or_iff_right (log_not_isNull _ _), ← isNamed_iff]
  cases hnamed : isNamed names message with
  | false =>
    refine iff_of_false ?_ fun h => absurd h.2.1 Bool.false_ne_true
    rintro ⟨u, -, h⟩
    exact bind_not_isNull (log_not_isNull _ _) (fun _ => bind_not_isNull hunable fun _ => hend) h
  | true =>
    simp only [if_true]
    constructor
    · rintro ⟨u, hlog, h⟩
      refine ⟨log_eq_ok_iff.mp hlog, trivial, ?_⟩
      cases command with
      | error thrown => exact absurd h (not_isNull_error thrown)
      | ok processed =>
        rcases bind_isNull_iff.mp h with h | ⟨result, -, h⟩
        · exact ⟨processed, rfl, h⟩
        · exact absurd h hend
    · rintro ⟨hids, -, processed, rfl, h⟩
      exact ⟨(), log_eq_ok_iff.mpr hids, bind_isNull_iff.mpr (Or.inl h)⟩

end

end CmdHandler

end Domain
end PocArchitecture
