/-
Document collections.

A collection is the list of its documents, in the order they were inserted.  An update
goes to the first document its query matches and counts one modified document exactly
when that document is another one afterwards.  As long as no two documents share a key,
`findKey` is a finite map and an update of the document with one key is an update of the
map.

Where keys repeat, a query that asks for no order is assumed to find the document inserted
first.  MongoDB searches so in the order of a collection's storage, which is that of the
inserts while nothing moves a document, but it does not promise it.
-/
import PocArchitecture.Lib.FirstMatch
import Mathlib.Data.List.Nodup

namespace PocArchitecture

abbrev Collection (D : Type) := List D

/-- What the service answers to an insert. -/
structure InsertResult where
  insertedCount : Nat

/-- What the service answers to an update. -/
structure UpdateResult where
  nModified : Nat
  ok : Nat

namespace Collection

open FirstMatch

variable {D K : Type}

def insertOne (c : Collection D) (d : D) : Collection D × InsertResult :=
  (c ++ [d], { insertedCount := 1 })

def updateOne [DecidableEq D] (c : Collection D) (query : D → Bool) (set : D → D) :
    Collection D × UpdateResult :=
  (updateFirst query set c,
    { nModified :=
        match c.find? query with
        | none => 0
        | some d => if set d = d then 0 else 1
      ok := 1 })

section Keyed

variable [DecidableEq K] (key : D → K)

/-- The first document with this key. -/
def findKey (c : Collection D) (k : K) : Option D := c.find? fun d => key d == k

variable {key} {c : Collection D} {d : D} {k k' : K}

theorem findKey_none : findKey key c k = none ↔ k ∉ c.map key := by
  rw [findKey, List.find?_eq_none, List.mem_map]
  simp only [beq_iff_eq]
  constructor
  · rintro h ⟨d, hd, hk⟩
    exact h d hd hk
  · exact fun h d hd hk => h ⟨d, hd, hk⟩

theorem findKey_cons : findKey key (d :: c) k = if key d = k then some d else findKey key c k := by
  rw [findKey, List.find?_cons]
  by_cases hd : key d = k
  · rw [if_pos hd, beq_iff_eq.mpr hd]
  · rw [if_neg hd, beq_eq_false_iff_ne.mpr hd]
    rfl

/-! ## Inserting a new key -/

theorem findKey_insertOne_self (hnew : findKey key c (key d) = none) :
    findKey key (c.insertOne d).1 (key d) = some d := by
  rw [findKey] at hnew
  rw [findKey, insertOne, List.find?_append, hnew, Option.none_or]
  exact List.find?_cons_of_pos (p := fun d' => key d' == key d) (beq_self_eq_true _)

theorem findKey_insertOne_ne (hk : k ≠ key d) :
    findKey key (c.insertOne d).1 k = findKey key c k := by
  have hd : [d].find? (fun d' => key d' == k) = none := by
    simpa using hk.symm
  rw [findKey, findKey, insertOne, List.find?_append, hd, Option.or_none]

/-- What comes last is found where nothing else has its key. -/
theorem findKey_insertOne :
    findKey key (c.insertOne d).1 k = (findKey key c k).or (if key d = k then some d else none) := by
  rw [findKey, insertOne, List.find?_append, List.find?_singleton, findKey]
  by_cases hd : key d = k
  · rw [if_pos hd, if_pos (beq_iff_eq.mpr hd)]
  · rw [if_neg hd, if_neg (by simpa using hd)]

theorem nodup_insertOne (h : (c.map key).Nodup) (hnew : findKey key c (key d) = none) :
    ((c.insertOne d).1.map key).Nodup := by
  rw [insertOne, List.map_append, List.map_singleton, List.nodup_append]
  refine ⟨h, List.nodup_singleton _, fun a ha b hb => ?_⟩
  intro hab
  have hb' := List.mem_singleton.mp hb
  rw [hab, hb'] at ha
  exact findKey_none.mp hnew ha

/-! ## Updating one key -/

variable {query : D → Bool} {set : D → D}

/-- Without a second document of the key, the query goes to the document of the key. -/
theorem find?_query (h : (c.map key).Nodup) (hquery : ∀ d, query d = true → key d = k) :
    c.find? query = (findKey key c k).filter query := by
  induction c with
  | nil => rfl
  | cons d c ih =>
    rw [List.map_cons, List.nodup_cons] at h
    rw [findKey_cons]
    by_cases hd : key d = k
    · rw [if_pos hd]
      cases hq : query d with
      | true => rw [List.find?_cons_of_pos hq, Option.filter_some_pos hq]
      | false =>
        rw [List.find?_cons_of_neg (by simp [hq]), Option.filter_some_neg (by simp [hq]),
          List.find?_eq_none]
        intro d' hd' hq'
        have hk := hquery d' hq'
        exact h.1 (List.mem_map.mpr ⟨d', hd', hk.trans hd.symm⟩)
    · have hq : ¬ query d = true := fun hq => hd (hquery d hq)
      rw [if_neg hd, List.find?_cons_of_neg hq]
      exact ih h.2

section Update

variable [DecidableEq D]

@[simp] theorem updateOne_fst (c : Collection D) (query : D → Bool) (set : D → D) :
    (c.updateOne query set).1 = updateFirst query set c := rfl

omit [DecidableEq K] in
theorem keys_updateOne (hset : ∀ d, query d = true → key (set d) = key d) :
    (c.updateOne query set).1.map key = c.map key :=
  map_updateFirst hset c

/-- What an update of one key does to the first document of the key; others may follow. -/
theorem findKey_updateOne_self (hquery : ∀ d, query d = true → key d = k)
    (hset : ∀ d, query d = true → key (set d) = key d) :
    findKey key (c.updateOne query set).1 k =
      (findKey key c k).map fun d => if query d then set d else d := by
  rw [updateOne_fst]
  induction c with
  | nil => rfl
  | cons d c ih =>
    by_cases hq : query d = true
    · have hk : key (set d) = k := (hset d hq).trans (hquery d hq)
      rw [updateFirst, if_pos hq, findKey_cons, if_pos hk, findKey_cons, if_pos (hquery d hq),
        Option.map_some, if_pos hq]
    · rw [updateFirst, if_neg hq, findKey_cons, findKey_cons]
      by_cases hd : key d = k
      · rw [if_pos hd, if_pos hd, Option.map_some, if_neg hq]
      · rw [if_neg hd, if_neg hd]
        exact ih

theorem findKey_updateOne_ne (hquery : ∀ d, query d = true → key d = k)
    (hset : ∀ d, query d = true → key (set d) = key d) (hk : k' ≠ k) :
    findKey key (c.updateOne query set).1 k' = findKey key c k' := by
  have hne : ∀ d, query d = true → ¬ key d = k' := by
    intro d hd hkey
    exact hk (hkey.symm.trans (hquery d hd))
  refine find?_updateFirst_of_disjoint (fun d hd => ?_) (fun d hd => ?_) c
  · simpa using hne d hd
  · have := hne d hd
    simpa [hset d hd] using this

/-- An update is answered with one modified document exactly when the document of the key
matches and changes. -/
theorem updateOne_modifies (h : (c.map key).Nodup) (hquery : ∀ d, query d = true → key d = k) :
    ((c.updateOne query set).2.nModified == 1 && (c.updateOne query set).2.ok == 1) = true ↔
      ∃ d, findKey key c k = some d ∧ query d = true ∧ set d ≠ d := by
  have hok : ((c.updateOne query set).2.ok == 1) = true := rfl
  rw [hok, Bool.and_true, beq_iff_eq, updateOne, find?_query h hquery]
  cases hfind : findKey key c k with
  | none => simp
  | some d =>
    cases hq : query d with
    | true => by_cases hs : set d = d <;> simp [Option.filter_some_pos hq, hq, hs]
    | false => simp [Option.filter_some_neg hq, hq]

end Update

end Keyed

end Collection
end PocArchitecture
