/-
Reading a log again.

A reader folds the entries of a log into its state, one after the other, and may be set back
at any moment to a place it has passed.  A document is created by one entry and updated by
later ones, and an update writes some of its cells, with values of its own.  So a cell holds
what was written last; and a reader at the end of the log has written last what stands last
in the log, however often it was set back.
-/
import PocArchitecture.Lib.Machine
import PocArchitecture.Lib.Timeline

namespace PocArchitecture
namespace Rereading

variable {S T E D V : Type}

structure Reader (S : Type) where
  position : Nat
  state : S

inductive Turn where
  | next
  | restart (position : Nat)

def step (apply : S → E → S) (log : List E) (r : Reader S) : Turn → Reader S
  | .next =>
    match log[r.position]? with
    | some e => { position := r.position + 1, state := apply r.state e }
    | none => r
  | .restart position => if position ≤ r.position then { r with position := position } else r

def read (apply : S → E → S) (log : List E) (s : S) (turns : List Turn) : Reader S :=
  Machine.run (step apply log) { position := 0, state := s } turns

section Readings

variable {apply : S → E → S} {log : List E} {s : S}

/-- What each entry keeps, and still holds further back in the log, holds of every reading. -/
theorem read_invariant {I : Nat → S → Prop}
    (hnext : ∀ p s e, log[p]? = some e → I p s → I (p + 1) (apply s e))
    (hback : ∀ p q s, q ≤ p → I p s → I q s) (hs : I 0 s) (turns : List Turn) :
    I (read apply log s turns).position (read apply log s turns).state := by
  apply Machine.run_always (I := fun r : Reader S => I r.position r.state) _ hs
  intro r turn hr
  cases turn with
  | next =>
    rw [step]
    split
    · rename_i e he
      exact hnext r.position r.state e he hr
    · exact hr
  | restart position =>
    rw [step]
    split
    · rename_i hle
      exact hback r.position position r.state hle hr
    · exact hr

/-- A part of the state that the entries are applied to by itself. -/
theorem read_map {apply' : T → E → T} {g : S → T} (hg : ∀ s e, g (apply s e) = apply' (g s) e)
    (log : List E) (s : S) (turns : List Turn) :
    (read apply' log (g s) turns).position = (read apply log s turns).position ∧
      (read apply' log (g s) turns).state = g (read apply log s turns).state := by
  apply Machine.run_lockstep (P := fun _ _ => True)
    (R := fun (r' : Reader T) (r : Reader S) => r'.position = r.position ∧ r'.state = g r.state)
  · rintro ⟨p', s'⟩ ⟨p, s⟩ turn ⟨hp, hs⟩ -
    obtain rfl : p' = p := hp
    obtain rfl : s' = g s := hs
    cases turn with
    | next =>
      simp only [step]
      split
      · exact ⟨rfl, (hg s _).symm⟩
      · exact ⟨rfl, rfl⟩
    | restart position =>
      simp only [step]
      split
      · exact ⟨rfl, rfl⟩
      · exact ⟨rfl, rfl⟩
  · exact ⟨rfl, rfl⟩
  · exact Machine.along_of_forall (Q := fun _ => True) (fun _ _ _ => trivial) _ fun _ _ => trivial

/-- The reading that is never set back. -/
theorem read_once (apply : S → E → S) (log : List E) (s : S) :
    read apply log s (List.replicate log.length .next) =
      { position := log.length, state := Machine.run apply s log } := by
  have key : ∀ n, n ≤ log.length → read apply log s (List.replicate n .next) =
      { position := n, state := Machine.run apply s (log.take n) } := by
    intro n
    induction n with
    | zero => exact fun _ => rfl
    | succ n ih =>
      intro hn
      have hlt : n < log.length := by omega
      rw [List.replicate_succ', read, Machine.run_append]
      show step apply log (read apply log s (List.replicate n .next)) .next = _
      rw [ih (by omega), step, List.getElem?_eq_getElem hlt, List.take_add_one,
        List.getElem?_eq_getElem hlt, Machine.run_append]
      rfl
  have hall := key log.length (Nat.le_refl _)
  rwa [List.take_length] at hall

end Readings

/-! ## Documents -/

/-- What an entry does to a document that is there or not. -/
structure Documents (E D : Type) where
  create : E → Option D
  update : E → D → D

namespace Documents

def apply (F : Documents E D) : Option D → E → Option D
  | some d, e => some (F.update e d)
  | none, e => F.create e

/-- The document comes into being in one way, and a part of it is never written. -/
structure Lasting (F : Documents E D) (log : List E) (static : D → Prop) : Prop where
  create : ∀ e ∈ log, ∀ d, F.create e = some d → static d
  update : ∀ e ∈ log, ∀ d, static d → static (F.update e d)

/-- The value of a cell is written or kept, the same at every creation, and not written before
the document is created. -/
structure Cell (F : Documents E D) (log : List E) (static : D → Prop) (value : D → V)
    (writes : E → Option V) : Prop where
  update : ∀ e ∈ log, ∀ d, static d → value (F.update e d) = (writes e).getD (value d)
  create : ∀ e ∈ log, ∀ e' ∈ log, ∀ d d', F.create e = some d → F.create e' = some d' →
    value d = value d'
  order : Timeline.Each
    (fun past e => writes e ≠ none → ∃ e' ∈ past, (F.create e').isSome = true) log

variable {F : Documents E D} {log : List E} {static : D → Prop} {value : D → V}
  {writes : E → Option V}

theorem isSome_apply {o : Option D} {e : E} (h : o.isSome = true) : (F.apply o e).isSome = true := by
  cases o with
  | none => cases h
  | some d => rfl

/-- From its creation on the document is there. -/
theorem isSome_of_lt {k : Nat} {e : E} (hk : log[k]? = some e) (hcreate : (F.create e).isSome = true)
    (turns : List Turn) : k < (read F.apply log none turns).position →
      (read F.apply log none turns).state.isSome = true := by
  refine read_invariant (I := fun p (o : Option D) => k < p → o.isSome = true) ?_ ?_ ?_ turns
  · intro p o e' he' hI hlt
    by_cases hkp : k = p
    · subst hkp
      obtain rfl : e = e' := Option.some.inj (hk.symm.trans he')
      cases o with
      | none => exact hcreate
      | some d => rfl
    · exact isSome_apply (hI (by omega))
  · intro p q o hle hI hlt
    exact hI (by omega)
  · intro hlt
    omega

theorem Lasting.static_read (h : Lasting F log static) (turns : List Turn) :
    ∀ d, (read F.apply log none turns).state = some d → static d := by
  apply read_invariant (I := fun _ o => ∀ d, o = some d → static d)
  · intro p o e he hI d hd
    have hmem : e ∈ log := List.mem_of_getElem? he
    cases o with
    | none => exact h.create e hmem d hd
    | some d' =>
      obtain rfl := Option.some.inj hd
      exact h.update e hmem d' (hI d' rfl)
  · exact fun p q o _ hI => hI
  · intro d hd
    cases hd

/-- At the end of the log the document is there exactly if the log creates it. -/
theorem isSome_read_iff (turns : List Turn)
    (hend : (read F.apply log none turns).position = log.length) :
    (read F.apply log none turns).state.isSome = true ↔
      ∃ e ∈ log, (F.create e).isSome = true := by
  constructor
  · refine read_invariant (I := fun _ (o : Option D) => o.isSome = true →
      ∃ e ∈ log, (F.create e).isSome = true) ?_ ?_ ?_ turns
    · intro p o e he hI hsome
      cases o with
      | none => exact ⟨e, List.mem_of_getElem? he, hsome⟩
      | some d => exact hI rfl
    · exact fun p q o _ hI => hI
    · intro hsome
      cases hsome
  · rintro ⟨e, he, hcreate⟩
    obtain ⟨k, hk⟩ := List.mem_iff_getElem?.mp he
    apply isSome_of_lt hk hcreate
    rw [hend]
    exact (List.getElem?_eq_some_iff.mp hk).1

/-- The last entry that writes. -/
theorem exists_last_write (writes : E → Option V) (log : List E) :
    (∀ e ∈ log, writes e = none) ∨
      ∃ pre e post v, log = pre ++ e :: post ∧ writes e = some v ∧ ∀ e' ∈ post, writes e' = none := by
  induction log using List.reverseRecOn with
  | nil => exact Or.inl fun e he => absurd he List.not_mem_nil
  | append_singleton log e ih =>
    cases hwrites : writes e with
    | some v =>
      exact Or.inr ⟨log, e, [], v, rfl, hwrites, fun e' he' => absurd he' List.not_mem_nil⟩
    | none =>
      have hlast : ∀ e' ∈ [e], writes e' = none := by
        intro e' he'
        rwa [List.mem_singleton.mp he']
      rcases ih with hnone | ⟨pre, e', post, v, rfl, hv, hpost⟩
      · left
        intro e' he'
        rcases List.mem_append.mp he' with he' | he'
        · exact hnone e' he'
        · exact hlast e' he'
      · right
        refine ⟨pre, e', post ++ [e], v, ?_, hv, ?_⟩
        · rw [List.append_assoc, List.cons_append]
        · intro e'' he''
          rcases List.mem_append.mp he'' with he'' | he''
          · exact hpost e'' he''
          · exact hlast e'' he''

/-- Without a write the cell is as it was created. -/
theorem Cell.value_created (h : Cell F log static value writes) (hlasting : Lasting F log static)
    (hnone : ∀ e ∈ log, writes e = none) (turns : List Turn) :
    ∀ d, (read F.apply log none turns).state = some d →
      ∀ e ∈ log, ∀ d', F.create e = some d' → value d = value d' := by
  suffices hboth : ∀ d, (read F.apply log none turns).state = some d → static d ∧
      ∀ e ∈ log, ∀ d', F.create e = some d' → value d = value d' from fun d hd => (hboth d hd).2
  apply read_invariant (I := fun _ o => ∀ d, o = some d → static d ∧
    ∀ e ∈ log, ∀ d', F.create e = some d' → value d = value d')
  · intro p o e he hI d hd
    have hmem : e ∈ log := List.mem_of_getElem? he
    cases o with
    | none => exact ⟨hlasting.create e hmem d hd, fun e' he' d' hd' => h.create e hmem e' he' d d' hd hd'⟩
    | some d₁ =>
      obtain rfl := Option.some.inj hd
      obtain ⟨hstatic, hvalue⟩ := hI d₁ rfl
      refine ⟨hlasting.update e hmem d₁ hstatic, ?_⟩
      intro e' he' d' hd'
      rw [h.update e hmem d₁ hstatic, hnone e hmem]
      exact hvalue e' he' d' hd'
  · exact fun p q o _ hI => hI
  · intro d hd
    cases hd

/-- Past the last write the cell holds what was written. -/
theorem Cell.value_written (h : Cell F log static value writes) (hlasting : Lasting F log static)
    {pre post : List E} {e : E} {v : V} (hlog : log = pre ++ e :: post) (hv : writes e = some v)
    (hpost : ∀ e' ∈ post, writes e' = none) (turns : List Turn) :
    pre.length < (read F.apply log none turns).position →
      ∀ d, (read F.apply log none turns).state = some d → value d = v := by
  have hk : log[pre.length]? = some e := by
    rw [hlog]
    simp
  obtain ⟨e₀, he₀, hcreate⟩ := h.order pre e post hlog (by rw [hv]; exact Option.some_ne_none v)
  obtain ⟨k₀, hk₀⟩ := List.mem_iff_getElem?.mp he₀
  have hlt₀ : k₀ < pre.length := (List.getElem?_eq_some_iff.mp hk₀).1
  have hcreated : log[k₀]? = some e₀ := by
    rw [hlog, List.getElem?_append_left hlt₀, hk₀]
  have hkeeps : ∀ p e', pre.length < p → log[p]? = some e' → writes e' = none := by
    intro p e' hlt he'
    apply hpost
    obtain ⟨n, rfl⟩ : ∃ n, p = pre.length + (n + 1) := ⟨p - pre.length - 1, by omega⟩
    rw [hlog, List.getElem?_append_right (by omega), Nat.add_sub_cancel_left,
      List.getElem?_cons_succ] at he'
    exact List.mem_of_getElem? he'
  suffices hall : ((∀ d, (read F.apply log none turns).state = some d → static d) ∧
      (k₀ < (read F.apply log none turns).position →
        (read F.apply log none turns).state.isSome = true)) ∧
      (pre.length < (read F.apply log none turns).position →
        ∀ d, (read F.apply log none turns).state = some d → value d = v) from hall.2
  apply read_invariant (I := fun p o => ((∀ d, o = some d → static d) ∧
    (k₀ < p → o.isSome = true)) ∧ (pre.length < p → ∀ d, o = some d → value d = v))
  · rintro p o e' he' ⟨⟨hstatic, hsome⟩, hvalue⟩
    have hmem : e' ∈ log := List.mem_of_getElem? he'
    cases o with
    | none =>
      refine ⟨⟨fun d hd => hlasting.create e' hmem d hd, fun hlt => ?_⟩, fun hlt d hd => ?_⟩
      · by_cases hp : k₀ = p
        · subst hp
          obtain rfl : e₀ = e' := Option.some.inj (hcreated.symm.trans he')
          exact hcreate
        · have := hsome (by omega)
          cases this
      · have := hsome (by omega)
        cases this
    | some d₁ =>
      refine ⟨⟨fun d hd => ?_, fun _ => rfl⟩, fun hlt d hd => ?_⟩
      · obtain rfl := Option.some.inj hd
        exact hlasting.update e' hmem d₁ (hstatic d₁ rfl)
      · obtain rfl := Option.some.inj hd
        rw [h.update e' hmem d₁ (hstatic d₁ rfl)]
        by_cases hp : pre.length = p
        · subst hp
          obtain rfl : e = e' := Option.some.inj (hk.symm.trans he')
          rw [hv]
          rfl
        · rw [hkeeps p e' (by omega) he']
          exact hvalue (by omega) d₁ rfl
  · rintro p q o hle ⟨⟨hstatic, hsome⟩, hvalue⟩
    exact ⟨⟨hstatic, fun hlt => hsome (by omega)⟩, fun hlt => hvalue (by omega)⟩
  · refine ⟨⟨fun d hd => (by cases hd), fun hlt => ?_⟩, fun hlt => ?_⟩
    · omega
    · omega

/-- Two readings that have got to the end agree on the cell. -/
theorem Cell.value_eq (h : Cell F log static value writes) (hlasting : Lasting F log static)
    {turns turns' : List Turn} (hend : (read F.apply log none turns).position = log.length)
    (hend' : (read F.apply log none turns').position = log.length) {d d' : D}
    (hd : (read F.apply log none turns).state = some d)
    (hd' : (read F.apply log none turns').state = some d') : value d = value d' := by
  rcases exists_last_write writes log with hnone | ⟨pre, e, post, v, hlog, hv, hpost⟩
  · obtain ⟨e, he, hcreate⟩ := (isSome_read_iff turns hend).mp (by rw [hd]; rfl)
    obtain ⟨d₀, hd₀⟩ := Option.isSome_iff_exists.mp hcreate
    rw [h.value_created hlasting hnone turns d hd e he d₀ hd₀,
      h.value_created hlasting hnone turns' d' hd' e he d₀ hd₀]
  · have hlength : pre.length < log.length := by
      rw [hlog, List.length_append, List.length_cons]
      omega
    rw [h.value_written hlasting hlog hv hpost turns (by omega) d hd,
      h.value_written hlasting hlog hv hpost turns' (by omega) d' hd']

/-- Two readings that have got to the end have the same document, if it is known by its cells. -/
theorem read_eq (hlasting : Lasting F log static) {turns turns' : List Turn}
    (hend : (read F.apply log none turns).position = log.length)
    (hend' : (read F.apply log none turns').position = log.length)
    (hcells : ∀ d d', static d → static d' →
      (read F.apply log none turns).state = some d →
      (read F.apply log none turns').state = some d' → d = d') :
    (read F.apply log none turns).state = (read F.apply log none turns').state := by
  have hsome := (isSome_read_iff turns hend).trans (isSome_read_iff turns' hend').symm
  cases hd : (read F.apply log none turns).state with
  | none =>
    cases hd' : (read F.apply log none turns').state with
    | none => rfl
    | some d' =>
      rw [hd, hd'] at hsome
      exact absurd (hsome.mpr rfl) Bool.false_ne_true
  | some d =>
    cases hd' : (read F.apply log none turns').state with
    | none =>
      rw [hd, hd'] at hsome
      exact absurd (hsome.mp rfl) Bool.false_ne_true
    | some d' =>
      rw [hcells d d' (hlasting.static_read turns d hd) (hlasting.static_read turns' d' hd') hd hd']

end Documents

end Rereading
end PocArchitecture
