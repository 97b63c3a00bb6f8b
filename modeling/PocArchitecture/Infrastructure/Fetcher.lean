/-
`RDKafkaFetcher`, poll by poll.

Every partition is read in its own order, and the polls choose which partition comes
next.  The fetch loop ends when one partition is empty, whatever the others still hold,
on any `event.log` notification, and on an error; it resolves each time, on an error with
nothing at all.  A topic here is what the brokers hold, with well-formed values, so a
message without the wanted key is the only one that is passed over.
-/
import PocArchitecture.Infrastructure.EventSourcingRepo
import Mathlib.Data.List.Perm.Subperm

namespace PocArchitecture
namespace Infrastructure

/-- Where a record lies, without what it says. -/
def Record.place {M : Type} (r : Record M) : Record Unit :=
  { r with value := () }

def Record.withValue {M : Type} (v : Record Unit → M) (r : Record Unit) : Record M :=
  { r with value := v r }

/-- What the fetch loop meets next. -/
inductive Poll where
  /-- the next message of this partition -/
  | message (partition : Nat)
  /-- an empty set, this partition having reached its end -/
  | endOf (partition : Nat)
  | error
  /-- an `event.log` notification -/
  | log
  deriving DecidableEq

/-- What the consumer is assigned: one partition or all of them, and the first offset. -/
structure Assignment where
  partition : Option Nat
  firstOffset : Option Nat
  deriving DecidableEq

namespace Assignment

variable {M : Type}

def includes (a : Assignment) (r : Record M) : Bool :=
  a.partition.all (· == r.partition) && a.firstOffset.getD 0 ≤ r.offset

/-- The record is one the assignment gets from this partition. -/
def serves (a : Assignment) (p : Nat) (r : Record M) : Bool :=
  a.includes r && r.partition == p

theorem wanted_eq (a : Assignment) (id : String) (r : Record M) :
    Topic.wanted id a.partition a.firstOffset r = (r.key == id && a.includes r) := by
  rw [Topic.wanted, includes, Bool.and_assoc]

end Assignment

namespace Topic

variable {M : Type}

/-- The records of one key, in the order of the log. -/
def mine (id : String) (t : Topic M) : Topic M :=
  t.filter (·.key == id)

def nextOf (a : Assignment) (p : Nat) (rest : Topic M) : Option (Record M) :=
  rest.find? (a.serves p)

def afterNext (a : Assignment) (p : Nat) (rest : Topic M) : Topic M :=
  rest.eraseP (a.serves p)

/-- The brokers can report the end of this partition. -/
def endSeen (a : Assignment) (p : Nat) (rest : Topic M) : Bool :=
  a.partition.all (· == p) && (nextOf a p rest).isNone

/-- `_fetcher`, from what the partitions still hold and what it has got so far; `none`
while it has not resolved.  A poll the brokers cannot answer with is passed over. -/
def fetcher (aggregateId : String) (a : Assignment) (justOne : Bool) :
    Topic M → Topic M → List Poll → Option (Topic M)
  | _, _, [] => none
  | _, _, .error :: _ => some []
  | _, got, .log :: _ => some got
  | rest, got, .endOf p :: polls =>
    if endSeen a p rest then some got else fetcher aggregateId a justOne rest got polls
  | rest, got, .message p :: polls =>
    match nextOf a p rest with
    | none => fetcher aggregateId a justOne rest got polls
    | some r =>
      if r.key = aggregateId then
        if justOne && (got ++ [r]).length == 1 then some (got ++ [r])
        else fetcher aggregateId a justOne (afterNext a p rest) (got ++ [r]) polls
      else fetcher aggregateId a justOne (afterNext a p rest) got polls

def fetchLastPolled (t : Topic M) (aggregateId : String) (a : Assignment) (polls : List Poll) :
    Option (Option (Record M)) :=
  (fetcher aggregateId a true t [] polls).map List.head?

def fetchAllPolled (t : Topic M) (aggregateId : String) (a : Assignment) (polls : List Poll) :
    Option (List M) :=
  (fetcher aggregateId a false t [] polls).map (List.map (·.value))

/-! ## One message -/

section Next

variable {a : Assignment} {p : Nat} {rest : Topic M} {r : Record M}

/-- The next message of a partition, with what lies before and after it in the log. -/
theorem nextOf_split (h : nextOf a p rest = some r) :
    ∃ before after, rest = before ++ r :: after ∧ afterNext a p rest = before ++ after ∧
      (rest.takeWhile fun b => !a.serves p b) = before ∧ a.serves p r = true ∧
        ∀ b ∈ before, a.serves p b = false := by
  obtain ⟨hr, before, after, hrest, hbefore⟩ := List.find?_eq_some_iff_append.mp h
  have hfalse : ∀ b ∈ before, a.serves p b = false := by
    intro b hb
    simpa using hbefore b hb
  refine ⟨before, after, hrest, ?_, ?_, hr, hfalse⟩
  · rw [afterNext, hrest, List.eraseP_append_right _ (by simpa using hfalse),
      List.eraseP_cons_of_pos hr]
  · rw [hrest, List.takeWhile_append_of_pos hbefore]
    simp [hr]

theorem mine_append (id : String) (t t' : Topic M) : mine id (t ++ t') = mine id t ++ mine id t' :=
  List.filter_append ..

theorem mine_afterNext_of_ne {id : String} (h : nextOf a p rest = some r) (hkey : r.key ≠ id) :
    mine id (afterNext a p rest) = mine id rest := by
  obtain ⟨before, after, hrest, hafter, -⟩ := nextOf_split h
  rw [hafter, hrest, mine_append, mine_append]
  congr 1
  exact (List.filter_cons_of_neg (by simpa using hkey)).symm

theorem mine_perm_afterNext {id : String} (h : nextOf a p rest = some r) (hkey : r.key = id) :
    (mine id rest).Perm (r :: mine id (afterNext a p rest)) := by
  obtain ⟨before, after, hrest, hafter, -⟩ := nextOf_split h
  have hmine : mine id (r :: after) = r :: mine id after :=
    List.filter_cons_of_pos (by simpa using hkey)
  rw [hafter, hrest, mine_append, mine_append, hmine]
  exact List.perm_middle

end Next

/-- A fetch returns records of the key, and each of them once. -/
theorem fetcher_subperm {id : String} {a : Assignment} {justOne : Bool} {polls : List Poll} :
    ∀ {rest got result : Topic M}, fetcher id a justOne rest got polls = some result →
      List.Subperm result (got ++ mine id rest) := by
  induction polls with
  | nil =>
    intro rest got result h
    cases h
  | cons poll polls ih =>
    intro rest got result h
    have hgot : List.Subperm got (got ++ mine id rest) := (List.sublist_append_left got _).subperm
    cases poll with
    | error =>
      obtain rfl := Option.some.inj h
      exact List.nil_subperm
    | log =>
      obtain rfl := Option.some.inj h
      exact hgot
    | endOf p =>
      rw [fetcher] at h
      split at h
      · obtain rfl := Option.some.inj h
        exact hgot
      · exact ih h
    | message p =>
      rw [fetcher] at h
      cases hnext : nextOf a p rest with
      | none =>
        rw [hnext] at h
        exact ih h
      | some r =>
        simp only [hnext] at h
        by_cases hkey : r.key = id
        · rw [if_pos hkey] at h
          have hperm : (got ++ mine id rest).Perm
              ((got ++ [r]) ++ mine id (afterNext a p rest)) := by
            rw [List.append_assoc]
            exact (mine_perm_afterNext hnext hkey).append_left got
          refine List.Subperm.trans ?_ hperm.symm.subperm
          split at h
          · obtain rfl := Option.some.inj h
            exact (List.sublist_append_left _ _).subperm
          · exact ih h
        · rw [if_neg hkey] at h
          rw [← mine_afterNext_of_ne hnext hkey]
          exact ih h

/-! ## A fetch that was not cut short -/

/-- How the records of the key have come so far. -/
inductive Reading where
  | nothing
  | inOrder
  | outOfOrder
  deriving DecidableEq

def Reading.next (overtakes : Bool) : Reading → Reading
  | .outOfOrder => .outOfOrder
  | _ => if overtakes then .outOfOrder else .inOrder

/-- The next message of the partition comes before a record of the key that precedes it
in the log. -/
def overtakes (id : String) (a : Assignment) (p : Nat) (rest : Topic M) : Bool :=
  (rest.takeWhile fun r => !a.serves p r).any (·.key == id)

def noneLeft (id : String) (rest : Topic M) : Bool :=
  rest.all (·.key != id)

/-- Where the polls end a fetch, no record of the key is left and they came in the order
of the log; an error ends it before the first. -/
def readsWhole (id : String) (a : Assignment) : Reading → Topic M → List Poll → Bool
  | _, _, [] => true
  | read, rest, .error :: _ => read == .nothing && noneLeft id rest
  | read, rest, .log :: _ => read != .outOfOrder && noneLeft id rest
  | read, rest, .endOf p :: polls =>
    if endSeen a p rest then read != .outOfOrder && noneLeft id rest
    else readsWhole id a read rest polls
  | read, rest, .message p :: polls =>
    match nextOf a p rest with
    | none => readsWhole id a read rest polls
    | some r =>
      readsWhole id a (if r.key = id then read.next (overtakes id a p rest) else read)
        (afterNext a p rest) polls

theorem noneLeft_iff {id : String} {rest : Topic M} : noneLeft id rest = true ↔ mine id rest = [] := by
  rw [noneLeft, List.all_eq_true, mine, List.filter_eq_nil_iff]
  constructor
  · intro h r hr
    simpa using h r hr
  · intro h r hr
    simpa using h r hr

/-- What a reading says of the records got and of those still to come. -/
def Reading.Holds (id : String) (got rest all : Topic M) : Reading → Prop
  | .nothing => got = [] ∧ mine id rest = all
  | .inOrder => got ≠ [] ∧ got ++ mine id rest = all
  | .outOfOrder => all ≠ [] ∧ ¬ got <+: all

section Reading

variable {id : String} {a : Assignment} {p : Nat} {read : Reading} {got rest all : Topic M}
  {r : Record M}

theorem Reading.Holds.resolve (h : read.Holds id got rest all) :
    (read != .outOfOrder && noneLeft id rest) = true ↔ got = all := by
  rw [Bool.and_eq_true, bne_iff_ne, noneLeft_iff]
  cases read with
  | nothing =>
    obtain ⟨rfl, rfl⟩ := h
    exact ⟨fun hleft => hleft.2.symm, fun hleft => ⟨by decide, hleft.symm⟩⟩
  | inOrder =>
    obtain ⟨-, rfl⟩ := h
    simp
  | outOfOrder =>
    obtain ⟨-, hnot⟩ := h
    constructor
    · rintro ⟨hne, -⟩
      exact absurd rfl hne
    · rintro rfl
      exact absurd (List.prefix_refl got) hnot

theorem Reading.Holds.resolve_nil (h : read.Holds id got rest all) :
    (read == .nothing && noneLeft id rest) = true ↔ [] = all := by
  rw [Bool.and_eq_true, beq_iff_eq, noneLeft_iff]
  cases read with
  | nothing =>
    obtain ⟨-, rfl⟩ := h
    exact ⟨fun hleft => hleft.2.symm, fun hleft => ⟨rfl, hleft.symm⟩⟩
  | inOrder =>
    obtain ⟨hgot, rfl⟩ := h
    constructor
    · rintro ⟨hread, -⟩
      cases hread
    · intro hnil
      exact absurd (List.append_eq_nil_iff.mp hnil.symm).1 hgot
  | outOfOrder =>
    obtain ⟨hall, -⟩ := h
    constructor
    · rintro ⟨hread, -⟩
      cases hread
    · intro hnil
      exact absurd hnil.symm hall

/-- A message that overtakes none of the key is the next of the key in the log. -/
theorem overtakes_false (hnext : nextOf a p rest = some r) (hkey : r.key = id)
    (h : overtakes id a p rest = false) :
    mine id rest = r :: mine id (afterNext a p rest) := by
  obtain ⟨before, after, hrest, hafter, htake, -⟩ := nextOf_split hnext
  have hnone : mine id before = [] := by
    rw [overtakes, htake] at h
    rw [mine, List.filter_eq_nil_iff]
    simpa using h
  rw [hafter, hrest, mine_append, mine_append, hnone, List.nil_append, List.nil_append]
  exact List.filter_cons_of_pos (by simpa using hkey)

/-- One that overtakes another is not. -/
theorem overtakes_true (hnext : nextOf a p rest = some r) (h : overtakes id a p rest = true) :
    ∃ b tail, mine id rest = b :: tail ∧ b ≠ r := by
  obtain ⟨before, after, hrest, -, htake, hr, hbefore⟩ := nextOf_split hnext
  rw [overtakes, htake] at h
  obtain ⟨c, hc, hkey⟩ := List.any_eq_true.mp h
  have hne : mine id before ≠ [] := List.ne_nil_of_mem (List.mem_filter.mpr ⟨hc, hkey⟩)
  obtain ⟨b, tail, hb⟩ := List.exists_cons_of_ne_nil hne
  refine ⟨b, tail ++ mine id (r :: after), ?_, ?_⟩
  · rw [hrest, mine_append, hb, List.cons_append]
  · rintro rfl
    have hmem : b ∈ before := (List.mem_filter.mp (hb ▸ List.mem_cons_self : b ∈ mine id before)).1
    rw [hbefore b hmem] at hr
    cases hr

/-- One more record of the key. -/
theorem Reading.Holds.got_one (h : read.Holds id got rest all)
    (hnext : nextOf a p rest = some r) (hkey : r.key = id) :
    (read.next (overtakes id a p rest)).Holds id (got ++ [r]) (afterNext a p rest) all := by
  by_cases hread : read = .outOfOrder
  · subst hread
    obtain ⟨hall, hnot⟩ := h
    exact ⟨hall, fun hpre => hnot ((List.prefix_append got [r]).trans hpre)⟩
  · have hall : got ++ mine id rest = all := by
      cases read with
      | nothing =>
        obtain ⟨rfl, hall⟩ := h
        exact hall
      | inOrder => exact h.2
      | outOfOrder => exact absurd rfl hread
    have hstep : read.next (overtakes id a p rest) =
        if overtakes id a p rest then .outOfOrder else .inOrder := by
      cases read <;> first | rfl | exact absurd rfl hread
    rw [hstep]
    by_cases hover : overtakes id a p rest = true
    · rw [if_pos hover]
      obtain ⟨b, tail, hmine, hne⟩ := overtakes_true hnext hover
      rw [hmine] at hall
      refine ⟨by simp [← hall], fun hpre => ?_⟩
      rw [← hall, List.prefix_append_right_inj] at hpre
      exact hne ((List.cons_prefix_cons.mp hpre).1).symm
    · rw [if_neg hover]
      rw [overtakes_false hnext hkey (by simpa using hover)] at hall
      exact ⟨by simp, by rw [List.append_assoc]; exact hall⟩

theorem Reading.Holds.passed_over (h : read.Holds id got rest all)
    (hnext : nextOf a p rest = some r) (hkey : r.key ≠ id) :
    read.Holds id got (afterNext a p rest) all := by
  have hmine := mine_afterNext_of_ne hnext hkey
  cases read with
  | nothing => exact ⟨h.1, hmine.trans h.2⟩
  | inOrder => exact ⟨h.1, by rw [hmine]; exact h.2⟩
  | outOfOrder => exact h

/-- The condition says exactly that a fetch of all records, if it resolves, resolves with
all of them in the order of the log. -/
theorem readsWhole_iff_of_holds {polls : List Poll} :
    ∀ {read : Reading} {got rest : Topic M}, read.Holds id got rest all →
      (readsWhole id a read rest polls = true ↔
        ∀ result, fetcher id a false rest got polls = some result → result = all) := by
  induction polls with
  | nil =>
    intro read got rest _
    simp [readsWhole, fetcher]
  | cons poll polls ih =>
    intro read got rest h
    cases poll with
    | error =>
      rw [readsWhole, fetcher, h.resolve_nil]
      simp
    | log =>
      rw [readsWhole, fetcher, h.resolve]
      simp
    | endOf p =>
      rw [readsWhole, fetcher]
      by_cases hend : endSeen a p rest = true
      · rw [if_pos hend, if_pos hend, h.resolve]
        simp
      · rw [if_neg hend, if_neg hend]
        exact ih h
    | message p =>
      rw [readsWhole, fetcher]
      cases hnext : nextOf a p rest with
      | none => exact ih h
      | some r =>
        by_cases hkey : r.key = id
        · simp only [if_pos hkey, Bool.false_and, Bool.false_eq_true, if_false]
          exact ih (h.got_one hnext hkey)
        · simp only [if_neg hkey]
          exact ih (h.passed_over hnext hkey)

end Reading

theorem readsWhole_iff {id : String} {a : Assignment} {t : Topic M} {polls : List Poll} :
    readsWhole id a .nothing t polls = true ↔
      ∀ result, fetcher id a false t [] polls = some result → result = mine id t :=
  readsWhole_iff_of_holds ⟨rfl, rfl⟩

/-! ## Places and values -/

section Places

variable {N : Type} {f : Record M → Record N} {id : String} {a : Assignment}

theorem serves_map (hf : ∀ r, (f r).place = r.place) (p : Nat) (r : Record M) :
    a.serves p (f r) = a.serves p r := by
  have h := hf r
  simp only [Record.place, Record.mk.injEq] at h
  rw [Assignment.serves, Assignment.serves, Assignment.includes, Assignment.includes, h.2.1, h.2.2.1]

theorem key_map (hf : ∀ r, (f r).place = r.place) (r : Record M) : (f r).key = r.key := by
  have h := hf r
  simp only [Record.place, Record.mk.injEq] at h
  exact h.1

theorem nextOf_map (hf : ∀ r, (f r).place = r.place) (p : Nat) (rest : Topic M) :
    nextOf a p (rest.map f) = (nextOf a p rest).map f := by
  rw [nextOf, List.find?_map, nextOf]
  congr 2
  exact funext (serves_map hf p)

theorem afterNext_map (hf : ∀ r, (f r).place = r.place) (p : Nat) (rest : Topic M) :
    afterNext a p (rest.map f) = (afterNext a p rest).map f := by
  rw [afterNext, List.eraseP_map, afterNext]
  congr 2
  exact funext (serves_map hf p)

theorem endSeen_map (hf : ∀ r, (f r).place = r.place) (p : Nat) (rest : Topic M) :
    endSeen a p (rest.map f) = endSeen a p rest := by
  rw [endSeen, endSeen, nextOf_map hf, Option.isNone_map]

theorem noneLeft_map (hf : ∀ r, (f r).place = r.place) (rest : Topic M) :
    noneLeft id (rest.map f) = noneLeft id rest := by
  rw [noneLeft, noneLeft, List.all_map]
  congr 1
  funext r
  rw [Function.comp_apply, key_map hf]

theorem overtakes_map (hf : ∀ r, (f r).place = r.place) (p : Nat) (rest : Topic M) :
    overtakes id a p (rest.map f) = overtakes id a p rest := by
  have hkey : (fun r : Record N => r.key == id) ∘ f = fun r => r.key == id := by
    funext r
    rw [Function.comp_apply, key_map hf]
  have hserves : (fun r => !a.serves p r) ∘ f = fun r => !a.serves p r := by
    funext r
    rw [Function.comp_apply, serves_map hf]
  rw [overtakes, overtakes, List.takeWhile_map, List.any_map, hkey, hserves]

theorem mine_map (hf : ∀ r, (f r).place = r.place) (t : Topic M) :
    mine id (t.map f) = (mine id t).map f := by
  rw [mine, List.filter_map, mine]
  congr 2
  funext r
  rw [Function.comp_apply, key_map hf]

/-- What a fetch picks does not depend on what the records say. -/
theorem fetcher_map (hf : ∀ r, (f r).place = r.place) (justOne : Bool) (polls : List Poll) :
    ∀ rest got : Topic M, fetcher id a justOne (rest.map f) (got.map f) polls =
      (fetcher id a justOne rest got polls).map (List.map f) := by
  induction polls with
  | nil =>
    intro rest got
    rfl
  | cons poll polls ih =>
    intro rest got
    cases poll with
    | error => rfl
    | log => rfl
    | endOf p =>
      rw [fetcher, fetcher, endSeen_map hf, ih]
      split <;> rfl
    | message p =>
      rw [fetcher, fetcher, nextOf_map hf]
      cases hnext : nextOf a p rest with
      | none => exact ih rest got
      | some r =>
        have hgot : got.map f ++ [f r] = (got ++ [r]).map f := by
          rw [List.map_append, List.map_singleton]
        simp only [Option.map_some, key_map hf, afterNext_map hf, hgot, List.length_map, ih]
        split
        · split <;> rfl
        · rfl

theorem readsWhole_map (hf : ∀ r, (f r).place = r.place) (polls : List Poll) :
    ∀ (read : Reading) (rest : Topic M),
      readsWhole id a read (rest.map f) polls = readsWhole id a read rest polls := by
  induction polls with
  | nil =>
    intro read rest
    rfl
  | cons poll polls ih =>
    intro read rest
    cases poll with
    | error => rw [readsWhole, readsWhole, noneLeft_map hf]
    | log => rw [readsWhole, readsWhole, noneLeft_map hf]
    | endOf p => rw [readsWhole, readsWhole, endSeen_map hf, noneLeft_map hf, ih]
    | message p =>
      rw [readsWhole, readsWhole, nextOf_map hf]
      cases hnext : nextOf a p rest with
      | none => exact ih read rest
      | some r => simp only [Option.map_some, key_map hf, overtakes_map hf, afterNext_map hf, ih]

end Places

def places (t : Topic M) : Topic Unit :=
  t.map Record.place

/-- The records say what `v` says of their places. -/
def withValues (places : Topic Unit) (v : Record Unit → M) : Topic M :=
  places.map (Record.withValue v)

theorem places_withValues (t : Topic Unit) (v : Record Unit → M) :
    (t.withValues v).places = t := by
  rw [places, withValues, List.map_map]
  exact List.map_id t

section WithValues

variable {id : String} {a : Assignment} (t : Topic Unit) (v : Record Unit → M)

theorem mine_withValues : (t.withValues v).mine id = (t.mine id).withValues v :=
  mine_map (f := Record.withValue v) (fun _ => rfl) t

theorem values_withValues : (t.withValues v).map (·.value) = t.map v := by
  rw [withValues, List.map_map]
  rfl

theorem fetcher_withValues (justOne : Bool) (polls : List Poll) :
    fetcher id a justOne (t.withValues v) [] polls =
      (fetcher id a justOne t [] polls).map fun records => withValues records v :=
  fetcher_map (f := Record.withValue v) (fun _ => rfl) justOne polls t []

theorem readsWhole_withValues (read : Reading) (polls : List Poll) :
    readsWhole id a read (t.withValues v) polls = readsWhole id a read t polls :=
  readsWhole_map (f := Record.withValue v) (fun _ => rfl) polls read t

end WithValues

theorem readsWhole_places (t : Topic M) (id : String) (a : Assignment) (read : Reading)
    (polls : List Poll) :
    readsWhole id a read t.places polls = readsWhole id a read t polls :=
  readsWhole_map (f := @Record.place M) (fun _ => rfl) polls read t

/-! ## Numbered topics -/

/-- No two records lie at one place, and a partition is numbered from zero. -/
structure Numbered (t : Topic M) : Prop where
  below : ∀ r ∈ t, r.offset < t.countP fun b => b.partition == r.partition
  distinct : t.places.Nodup

theorem Numbered.nil : Numbered ([] : Topic M) where
  below r hr := by cases hr
  distinct := List.nodup_nil

theorem Numbered.produce {t : Topic M} (h : t.Numbered) (partition : Nat) (key : String) (m : M) :
    (t.produce partition key m).Numbered where
  below r hr := by
    rw [Topic.produce, List.countP_append]
    rcases List.mem_append.mp hr with hr | hr
    · have hlt := h.below r hr
      omega
    · obtain rfl := List.mem_singleton.mp hr
      simp
  distinct := by
    rw [places, Topic.produce, List.map_append]
    refine h.distinct.append (List.nodup_singleton _) ?_
    intro q hq hq'
    obtain ⟨r, hr, rfl⟩ := List.mem_map.mp hq
    have hplace := List.mem_singleton.mp hq'
    simp only [Record.place, Record.mk.injEq] at hplace
    have hlt := h.below r hr
    rw [hplace.2.1] at hlt
    omega

theorem Numbered.withValues {t : Topic M} (h : t.Numbered) {N : Type} (v : Record Unit → N) :
    (t.places.withValues v).Numbered where
  below r hr := by
    obtain ⟨q, hq, rfl⟩ := List.mem_map.mp hr
    obtain ⟨b, hb, rfl⟩ := List.mem_map.mp hq
    rw [Topic.withValues, places, List.countP_map, List.countP_map]
    exact h.below b hb
  distinct := by
    rw [places_withValues]
    exact h.distinct

/-! ## Undisturbed polls -/

/-- Every record of the assignment in the order of the log, then the end of a partition. -/
def readThrough (a : Assignment) (t : Topic M) : List Poll :=
  (t.filter a.includes).map (fun r => .message r.partition) ++ [.endOf (a.partition.getD 0)]

section ReadThrough

variable {id : String} {a : Assignment} {skipped rest : Topic M} {r : Record M}

theorem readThrough_cons (hr : a.includes r = true) :
    readThrough a (r :: rest) = .message r.partition :: readThrough a rest := by
  rw [readThrough, List.filter_cons_of_pos hr]
  rfl

theorem readThrough_cons_skip (hr : a.includes r = false) :
    readThrough a (r :: rest) = readThrough a rest := by
  rw [readThrough, List.filter_cons_of_neg (by simp [hr])]
  rfl

theorem serves_skipped (hskip : ∀ b ∈ skipped, a.includes b = false) (p : Nat) :
    ∀ b ∈ skipped, ¬ a.serves p b = true := by
  intro b hb
  simp [Assignment.serves, hskip b hb]

theorem serves_self (hr : a.includes r = true) : a.serves r.partition r = true := by
  simp [Assignment.serves, hr]

theorem nextOf_skipped (hskip : ∀ b ∈ skipped, a.includes b = false) (hr : a.includes r = true) :
    nextOf a r.partition (skipped ++ r :: rest) = some r := by
  rw [nextOf, List.find?_append,
    List.find?_eq_none.mpr (serves_skipped hskip r.partition), Option.none_or,
    List.find?_cons_of_pos (serves_self hr)]

theorem afterNext_skipped (hskip : ∀ b ∈ skipped, a.includes b = false)
    (hr : a.includes r = true) :
    afterNext a r.partition (skipped ++ r :: rest) = skipped ++ rest := by
  rw [afterNext, List.eraseP_append_right _ (serves_skipped hskip r.partition),
    List.eraseP_cons_of_pos (serves_self hr)]

theorem skipped_concat (hskip : ∀ b ∈ skipped, a.includes b = false) (hr : a.includes r = false) :
    ∀ b ∈ skipped ++ [r], a.includes b = false := by
  intro b hb
  rcases List.mem_append.mp hb with hb | hb
  · exact hskip b hb
  · rw [List.mem_singleton.mp hb, hr]

theorem endSeen_skipped (hskip : ∀ b ∈ skipped, a.includes b = false) :
    endSeen a (a.partition.getD 0) skipped = true := by
  rw [endSeen, nextOf, List.find?_eq_none.mpr (serves_skipped hskip _)]
  cases a.partition <;> simp

/-- Undisturbed polls get everything that is wanted. -/
theorem fetcher_readThrough : ∀ (rest : Topic M) {skipped : Topic M} (got : Topic M),
    (∀ b ∈ skipped, a.includes b = false) →
      fetcher id a false (skipped ++ rest) got (readThrough a rest) =
        some (got ++ rest.filter (wanted id a.partition a.firstOffset))
  | [], skipped, got, hskip => by
    rw [List.append_nil, List.filter_nil, List.append_nil, readThrough, List.filter_nil,
      List.map_nil, List.nil_append, fetcher, if_pos (endSeen_skipped hskip)]
  | r :: rest, skipped, got, hskip => by
    cases hr : a.includes r with
    | true =>
      rw [readThrough_cons hr, fetcher, nextOf_skipped hskip hr]
      simp only [afterNext_skipped hskip hr, Bool.false_and, Bool.false_eq_true, if_false]
      by_cases hkey : r.key = id
      · rw [if_pos hkey, fetcher_readThrough rest _ hskip, List.append_assoc, List.filter_cons_of_pos]
        · rfl
        · rw [a.wanted_eq, hr]
          simpa using hkey
      · rw [if_neg hkey, fetcher_readThrough rest _ hskip, List.filter_cons_of_neg]
        rw [a.wanted_eq]
        simp [hkey]
    | false =>
      have ih := fetcher_readThrough rest got (skipped_concat hskip hr)
      rw [List.append_assoc, List.singleton_append] at ih
      rw [readThrough_cons_skip hr, ih, List.filter_cons_of_neg]
      rw [a.wanted_eq]
      simp [hr]

/-- Where one record is asked for, they get the first. -/
theorem fetcher_readThrough_justOne : ∀ (rest : Topic M) {skipped : Topic M},
    (∀ b ∈ skipped, a.includes b = false) →
      fetcher id a true (skipped ++ rest) [] (readThrough a rest) =
        some (rest.find? (wanted id a.partition a.firstOffset)).toList
  | [], skipped, hskip => by
    rw [List.append_nil, List.find?_nil, Option.toList_none, readThrough, List.filter_nil,
      List.map_nil, List.nil_append, fetcher, if_pos (endSeen_skipped hskip)]
  | r :: rest, skipped, hskip => by
    cases hr : a.includes r with
    | true =>
      rw [readThrough_cons hr, fetcher, nextOf_skipped hskip hr]
      simp only [afterNext_skipped hskip hr]
      by_cases hkey : r.key = id
      · rw [if_pos hkey, List.find?_cons_of_pos]
        · rfl
        · rw [a.wanted_eq, hr]
          simpa using hkey
      · rw [if_neg hkey, fetcher_readThrough_justOne rest hskip, List.find?_cons_of_neg]
        rw [a.wanted_eq]
        simp [hkey]
    | false =>
      have ih := fetcher_readThrough_justOne rest (skipped_concat hskip hr)
      rw [List.append_assoc, List.singleton_append] at ih
      rw [readThrough_cons_skip hr, ih, List.find?_cons_of_neg]
      rw [a.wanted_eq]
      simp [hr]

end ReadThrough

theorem fetcher_readThrough_all (t : Topic M) (id : String) (a : Assignment) :
    fetcher id a false t [] (readThrough a t) =
      some (t.filter (wanted id a.partition a.firstOffset)) :=
  @fetcher_readThrough _ id a t [] [] fun b hb => (by cases hb)

theorem fetchAllPolled_readThrough (t : Topic M) (id : String) (a : Assignment) :
    t.fetchAllPolled id a (readThrough a t) = some (t.fetchAll id a.partition a.firstOffset) := by
  rw [fetchAllPolled, fetcher_readThrough_all]
  rfl

theorem fetchLastPolled_readThrough (t : Topic M) (id : String) (a : Assignment) :
    t.fetchLastPolled id a (readThrough a t) = some (t.fetchLast id a.partition a.firstOffset) := by
  have h := @fetcher_readThrough_justOne _ id a t [] (fun b hb => by cases hb)
  rw [List.nil_append] at h
  rw [fetchLastPolled, h, Option.map_some, Option.head?_toList]
  rfl

/-! ## Where a fetch that was cut short departs from the log -/

/-- Two lists part at the first element the second does not have in its place. -/
theorem exists_parting {α : Type} : ∀ {all got : List α}, ¬ all <+: got →
    ∃ before a after rest, all = before ++ a :: after ∧ got = before ++ rest ∧
      rest.head? ≠ some a
  | [], got, h => absurd List.nil_prefix h
  | a :: all, [], _ => ⟨[], a, all, [], rfl, rfl, fun h => (by cases h)⟩
  | a :: all, b :: got, h => by
    by_cases hab : b = a
    · subst hab
      have htail : ¬ all <+: got := by
        intro hpre
        exact h (List.cons_prefix_cons.mpr ⟨rfl, hpre⟩)
      obtain ⟨before, c, after, rest, hall, hsome, hhead⟩ := exists_parting htail
      exact ⟨b :: before, c, after, rest, by rw [hall, List.cons_append],
        by rw [hsome, List.cons_append], hhead⟩
    · exact ⟨[], a, all, b :: got, rfl, rfl, fun h => hab (Option.some.inj h)⟩

/-- A fetch that is cut short resolves with records that agree with the log up to some
record, which does not come next. -/
theorem parting_of_not_readsWhole {id : String} {a : Assignment} {t : Topic M}
    {polls : List Poll} (hdistinct : t.Nodup)
    (h : ¬ readsWhole id a .nothing t polls = true) :
    ∃ before r after rest, mine id t = before ++ r :: after ∧ rest.head? ≠ some r ∧
      (before ++ rest).Nodup ∧ (∀ b ∈ rest, b ∈ mine id t) ∧
      fetcher id a false t [] polls = some (before ++ rest) := by
  rw [readsWhole_iff] at h
  push Not at h
  obtain ⟨result, hresult, hne⟩ := h
  have hmine : (mine id t).Nodup := hdistinct.filter _
  have hsub : List.Subperm result (mine id t) := fetcher_subperm hresult
  have hnodup : result.Nodup := by
    obtain ⟨l, hperm, hsublist⟩ := hsub
    exact hperm.nodup_iff.mp (hmine.sublist hsublist)
  have hprefix : ¬ mine id t <+: result := by
    intro hpre
    exact hne (hpre.eq_of_length (Nat.le_antisymm hpre.length_le hsub.length_le)).symm
  obtain ⟨before, r, after, rest, hall, rfl, hhead⟩ := exists_parting hprefix
  refine ⟨before, r, after, rest, hall, hhead, hnodup, fun b hb => ?_, hresult⟩
  exact hsub.subset (List.mem_append_right before hb)

end Topic

end Infrastructure
end PocArchitecture
