/-
The outcome of a `publishMany` call.

`publishMany` hands each message to the Kafka producer and rejects when one of them is
not acknowledged.  A rejected call may still have delivered some of its messages, so a
failure carries the marks of those that went out.
-/
import Mathlib.Data.List.Basic

namespace PocArchitecture
namespace Domain

inductive PublishOutcome where
  | ok
  | failed (delivered : List Bool)
  deriving DecidableEq

namespace PublishOutcome

variable {M : Type}

def isOk : PublishOutcome → Bool
  | ok => true
  | failed _ => false

/-- The messages that reach the topic. -/
def delivered : PublishOutcome → List M → List M
  | ok, msgs => msgs
  | failed marks, msgs => (msgs.zip marks).filterMap fun p => if p.2 then some p.1 else none

/-- The message at this place reaches the topic. -/
def deliversAt : PublishOutcome → Nat → Bool
  | ok, _ => true
  | failed marks, n => marks.getD n false

/-- A call that delivers all of its messages or none. -/
def AllOrNothing : PublishOutcome → Prop
  | ok => True
  | failed marks => marks = []

instance (o : PublishOutcome) : Decidable o.AllOrNothing := by
  cases o <;> unfold AllOrNothing <;> infer_instance

@[simp] theorem delivered_ok (msgs : List M) : ok.delivered msgs = msgs := rfl

@[simp] theorem delivered_nil (o : PublishOutcome) : o.delivered ([] : List M) = [] := by
  cases o <;> rfl

@[simp] theorem delivered_failed_nil (msgs : List M) : (failed []).delivered msgs = [] := by
  simp [delivered]

theorem mem_of_mem_delivered {o : PublishOutcome} {msgs : List M} {m : M}
    (h : m ∈ o.delivered msgs) : m ∈ msgs := by
  cases o with
  | ok => exact h
  | failed marks =>
    obtain ⟨⟨a, b⟩, hp, hb⟩ := List.mem_filterMap.mp h
    cases b with
    | false => simp at hb
    | true =>
      obtain rfl : a = m := by simpa using hb
      exact (List.of_mem_zip hp).1

theorem delivered_failed_cons (m : M) (msgs : List M) (mark : Bool) (marks : List Bool) :
    (failed (mark :: marks)).delivered (m :: msgs) =
      (if mark then [m] else []) ++ (failed marks).delivered msgs := by
  cases mark <;> simp [delivered]

theorem mem_delivered_iff {o : PublishOutcome} {msgs : List M} {m : M} :
    m ∈ o.delivered msgs ↔ ∃ i, msgs[i]? = some m ∧ o.deliversAt i = true := by
  cases o with
  | ok => simp [deliversAt, List.mem_iff_getElem?]
  | failed marks =>
    induction msgs generalizing marks with
    | nil => simp
    | cons a msgs ih =>
      cases marks with
      | nil => simp [deliversAt]
      | cons mark marks =>
        rw [delivered_failed_cons, List.mem_append, ih marks]
        constructor
        · rintro (h | ⟨i, hi, hmark⟩)
          · cases mark with
            | false => cases h
            | true => exact ⟨0, by rw [List.mem_singleton.mp h]; rfl, rfl⟩
          · exact ⟨i + 1, hi, hmark⟩
        · rintro ⟨i, hi, hmark⟩
          cases i with
          | zero =>
            obtain rfl : mark = true := hmark
            exact Or.inl (by rw [Option.some.inj hi]; exact List.mem_singleton_self m)
          | succ i => exact Or.inr ⟨i, hi, hmark⟩

theorem delivered_sublist (o : PublishOutcome) (msgs : List M) :
    (o.delivered msgs).Sublist msgs := by
  cases o with
  | ok => exact List.Sublist.refl msgs
  | failed marks =>
    induction msgs generalizing marks with
    | nil => rw [delivered_nil]
    | cons m msgs ih =>
      cases marks with
      | nil =>
        rw [delivered_failed_nil]
        exact List.nil_sublist _
      | cons mark marks =>
        rw [delivered_failed_cons]
        cases mark with
        | false => exact (ih marks).cons m
        | true => exact (ih marks).cons_cons m

/-- Two calls for the same messages send none twice exactly when no place is delivered by
both. -/
theorem nodup_delivered_append {msgs : List M} (h : msgs.Nodup) (o o' : PublishOutcome) :
    (o.delivered msgs ++ o'.delivered msgs).Nodup ↔
      ∀ i < msgs.length, ¬ (o.deliversAt i = true ∧ o'.deliversAt i = true) := by
  rw [List.nodup_append]
  constructor
  · rintro ⟨-, -, hne⟩ i hi ⟨ho, ho'⟩
    have hget : msgs[i]? = some msgs[i] := List.getElem?_eq_getElem hi
    exact hne msgs[i] (mem_delivered_iff.mpr ⟨i, hget, ho⟩) msgs[i]
      (mem_delivered_iff.mpr ⟨i, hget, ho'⟩) rfl
  · intro hnot
    refine ⟨h.sublist (delivered_sublist o msgs), h.sublist (delivered_sublist o' msgs), ?_⟩
    intro m hm m' hm' he
    subst he
    obtain ⟨i, hi, ho⟩ := mem_delivered_iff.mp hm
    obtain ⟨j, hj, ho'⟩ := mem_delivered_iff.mp hm'
    obtain ⟨hlt, hget⟩ := List.getElem?_eq_some_iff.mp hi
    obtain ⟨hlt', hget'⟩ := List.getElem?_eq_some_iff.mp hj
    have hij : i = j := (List.getElem_inj h).mp (hget.trans hget'.symm)
    subst hij
    exact hnot i hlt ⟨ho, ho'⟩

theorem deliversAt_of_isOk {o : PublishOutcome} (h : o.isOk = true) (n : Nat) :
    o.deliversAt n = true := by
  cases o with
  | ok => rfl
  | failed _ => cases h

theorem delivered_of_isOk {o : PublishOutcome} (h : o.isOk = true) (msgs : List M) :
    o.delivered msgs = msgs := by
  cases o with
  | ok => rfl
  | failed _ => cases h

theorem delivered_of_not_isOk {o : PublishOutcome} (h : o.isOk = false) (ha : o.AllOrNothing)
    (msgs : List M) : o.delivered msgs = [] := by
  cases o with
  | ok => cases h
  | failed marks =>
    obtain rfl : marks = [] := ha
    exact delivered_failed_nil msgs

end PublishOutcome

end Domain
end PocArchitecture
