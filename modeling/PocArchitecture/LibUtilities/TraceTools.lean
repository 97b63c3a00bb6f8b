/-
The trace state of a message: `trace_tools.ts`.

A trace state is a list `vendor1=value1,vendor2=value2`.  The configured vendor's value is
an object, as base64url-encoded JSON.  It is looked for as a substring and read to the end of
the text, and what is injected takes the place of the whole list.
-/
import PocArchitecture.Lib.Occurrence
import PocArchitecture.Lib.KeyValue
import PocArchitecture.Lib.Base64
import Mathlib.Data.Countable.Basic
import Mathlib.Logic.Equiv.List

namespace PocArchitecture
namespace LibUtilities

/-- What `JSON.parse` returns: an object, or something else with the properties that a spread
copies from it. -/
inductive Parsed (V : Type) where
  | object (fields : KeyValue String V)
  | other (properties : KeyValue String V)

namespace Parsed

variable {V : Type}

def null : Parsed V := .other ∅

/-- The properties of `{ ...value }`. -/
def spread : Parsed V → KeyValue String V
  | object fields => fields
  | other properties => properties

end Parsed

/-- `base64url.encode`, `base64url.toBuffer` up to the text, and JSON, of whose values `V` only
the objects matter here.  `parse` is `none` where `JSON.parse` throws. -/
structure Codec (V : Type) where
  encode : String → String
  decode : String → String
  stringify : KeyValue String V → String
  parse : String → Option (Parsed V)
  decode_encode : ∀ text, decode (encode text) = text
  comma_notMem_encode : ∀ text, ',' ∉ (encode text).toList
  parse_stringify : ∀ o, parse (stringify o) = some (.object o)

structure TraceInfo where
  traceParent : String
  traceState : Option String

structure IDomainMessage where
  traceInfo : Option TraceInfo

namespace TraceTools

variable {V : Type} (C : Codec V) (vendor : String)

def vendorWithSign : String := vendor ++ "="

def traceState (message : IDomainMessage) : Option String :=
  message.traceInfo.bind (·.traceState)

def extractTraceStateFromMessage (message : IDomainMessage) : Parsed V :=
  match traceState message with
  | none => .null
  | some text =>
    match Occurrence.after (vendorWithSign vendor) text with
    | none => .null
    | some payloadEncoded => (C.parse (C.decode payloadEncoded)).getD .null

/-- `traceParent` is the one made up for a message without trace info. -/
def injectTraceStateToMessage (traceParent : String) (message : IDomainMessage)
    (toInject : KeyValue String V) : IDomainMessage :=
  let payloadEncoded := C.encode (C.stringify toInject)
  match message.traceInfo with
  | some info =>
    { traceInfo := some { info with traceState := some (vendorWithSign vendor ++ payloadEncoded) } }
  | none =>
    { traceInfo := some
        { traceParent := traceParent
          traceState := some (vendorWithSign vendor ++ payloadEncoded) } }

/-- `{ ...currentMsg, ...toInject }`: what is merged in wins. -/
def mergeObjectIntoTraceStateToMessage (traceParent : String) (message : IDomainMessage)
    (toInject : KeyValue String V) : IDomainMessage :=
  injectTraceStateToMessage C vendor traceParent message
    (toInject ∪ (extractTraceStateFromMessage C vendor message).spread)

/-! ## Lists of entries -/

structure Entry where
  name : String
  value : String

def Entry.text (e : Entry) : String := e.name ++ "=" ++ e.value

def listText (entries : List Entry) : String := ",".intercalate (entries.map Entry.text)

/-- The texts between the commas. -/
def entryTexts (text : String) : List String := (text.toList.splitOn ',').map String.ofList

/-- The message has this list; no trace state is the empty list. -/
def Lists (message : IDomainMessage) (entries : List Entry) : Prop :=
  match traceState message with
  | none => entries = []
  | some text => text = listText entries

structure Entry.WellFormed (e : Entry) : Prop where
  comma_notMem_name : ',' ∉ e.name.toList
  sign_notMem_name : '=' ∉ e.name.toList
  comma_notMem_value : ',' ∉ e.value.toList

/-- The configured vendor has at most one entry, with an encoded text of the object. -/
structure WellFormed (entries : List Entry) (previous : KeyValue String V) : Prop where
  comma_notMem_vendor : ',' ∉ vendor.toList
  sign_notMem_vendor : '=' ∉ vendor.toList
  entry : ∀ e ∈ entries, e.WellFormed
  once : (entries.filter (·.name = vendor) = [] ∧ previous = ∅) ∨
    ∃ json, C.parse json = some (.object previous) ∧
      entries.filter (·.name = vendor) = [⟨vendor, C.encode json⟩]

/-- The entry is one of the message's. -/
def Present (message : IDomainMessage) (e : Entry) : Prop :=
  ∃ text, traceState message = some text ∧ e.text ∈ entryTexts text

/-- After the merge the object is the union, the new one first, and every other vendor's entry
is still there. -/
structure Lossless (traceParent : String) (message : IDomainMessage) (entries : List Entry)
    (previous toInject : KeyValue String V) : Prop where
  merged : ∃ o, extractTraceStateFromMessage C vendor
      (mergeObjectIntoTraceStateToMessage C vendor traceParent message toInject) = .object o ∧
    ∀ key, o.get key = (toInject.get key).or (previous.get key)
  kept : ∀ e ∈ entries, e.name ≠ vendor →
    Present (mergeObjectIntoTraceStateToMessage C vendor traceParent message toInject) e

/-! ## One entry -/

section

variable {C vendor} {message : IDomainMessage} {traceParent : String}

theorem extract_of_traceState {json : String} {o : KeyValue String V}
    (h : traceState message = some (vendorWithSign vendor ++ C.encode json))
    (hparse : C.parse json = some (.object o)) :
    extractTraceStateFromMessage C vendor message = .object o := by
  rw [extractTraceStateFromMessage, h]
  dsimp only
  rw [Occurrence.after_append]
  dsimp only
  rw [C.decode_encode, hparse]
  rfl

/-- No text, no object. -/
theorem extract_of_empty (h : (traceState message).getD "" = "") :
    extractTraceStateFromMessage C vendor message = .null := by
  rw [extractTraceStateFromMessage]
  cases htext : traceState message with
  | none => rfl
  | some text =>
    rw [htext] at h
    change text = "" at h
    have hsign : vendorWithSign vendor ≠ "" := fun hnil =>
      absurd (String.append_eq_empty_iff.mp hnil).2 (by decide)
    rw [h]
    dsimp only
    rw [Occurrence.after_empty hsign]

theorem traceState_inject (toInject : KeyValue String V) :
    traceState (injectTraceStateToMessage C vendor traceParent message toInject) =
      some (vendorWithSign vendor ++ C.encode (C.stringify toInject)) := by
  rw [injectTraceStateToMessage]
  cases message.traceInfo <;> rfl

/-- What is merged can be extracted, whatever was there before. -/
theorem extract_merge (toInject : KeyValue String V) :
    extractTraceStateFromMessage C vendor
        (mergeObjectIntoTraceStateToMessage C vendor traceParent message toInject) =
      .object (toInject ∪ (extractTraceStateFromMessage C vendor message).spread) :=
  extract_of_traceState (traceState_inject _) (C.parse_stringify _)

/-- The names of two entries with the same text. -/
theorem name_eq_of_text_eq {e e' : Entry} (he : '=' ∉ e.name.toList) (he' : '=' ∉ e'.name.toList)
    (h : e.text = e'.text) : e.name = e'.name := by
  have hname (e : Entry) (hsign : '=' ∉ e.name.toList) :
      e.text.toList.takeWhile (· ≠ '=') = e.name.toList := by
    have hall : ∀ c ∈ e.name.toList, decide (c ≠ '=') = true := fun c hc =>
      decide_eq_true fun hsame => hsign (hsame ▸ hc)
    rw [Entry.text, String.toList_append, String.toList_append, List.append_assoc,
      List.takeWhile_append_of_pos hall]
    exact List.append_nil _
  refine String.toList_inj.mp ?_
  rw [← hname e he, ← hname e' he', h]

theorem entryTexts_eq {text : String} (h : ',' ∉ text.toList) : entryTexts text = [text] := by
  rw [entryTexts, List.splitOn_eq_singleton h, List.map_singleton, String.ofList_toList]

/-- After a merge the configured vendor's entry is the only one. -/
theorem entryTexts_merge {entries : List Entry} {previous : KeyValue String V}
    (hwell : WellFormed C vendor entries previous) (toInject : KeyValue String V) {e : Entry}
    (he : e ∈ entries) (hpresent : Present
      (mergeObjectIntoTraceStateToMessage C vendor traceParent message toInject) e) :
    e.name = vendor := by
  obtain ⟨text, htext, hmem⟩ := hpresent
  rw [mergeObjectIntoTraceStateToMessage, traceState_inject] at htext
  obtain rfl := Option.some.inj htext
  rw [entryTexts_eq, List.mem_singleton] at hmem
  · have hsame : e.text = Entry.text ⟨vendor, C.encode (C.stringify _)⟩ := hmem
    exact name_eq_of_text_eq (hwell.entry e he).sign_notMem_name hwell.sign_notMem_vendor hsame
  · rw [vendorWithSign, String.toList_append, String.toList_append, List.mem_append,
      List.mem_append]
    rintro ((hcomma | hcomma) | hcomma)
    · exact hwell.comma_notMem_vendor hcomma
    · exact absurd hcomma (by decide)
    · exact C.comma_notMem_encode _ hcomma

/-- The object before the merge, when no other vendor has an entry. -/
theorem spread_extract {entries : List Entry} {previous : KeyValue String V}
    (hlist : Lists message entries) (hwell : WellFormed C vendor entries previous)
    (halone : ∀ e ∈ entries, e.name = vendor) :
    (extractTraceStateFromMessage C vendor message).spread = previous := by
  have hall : entries.filter (·.name = vendor) = entries :=
    List.filter_eq_self.mpr fun e he => decide_eq_true (halone e he)
  rw [Lists] at hlist
  rcases hwell.once with ⟨hnone, hprevious⟩ | ⟨json, hparse, hone⟩
  · rw [hall] at hnone
    rw [extract_of_empty, hprevious]
    · rfl
    · cases htext : traceState message with
      | none => rfl
      | some text =>
        rw [htext, hnone] at hlist
        exact hlist
  · rw [hall] at hone
    have htext : traceState message = some (vendorWithSign vendor ++ C.encode json) := by
      cases htext : traceState message with
      | none =>
        rw [htext, hone] at hlist
        cases hlist
      | some text =>
        rw [htext, hone] at hlist
        change text = ",".intercalate [Entry.text _] at hlist
        rw [hlist, String.intercalate_singleton]
        rfl
    rw [extract_of_traceState htext hparse]
    rfl

end

/-- A merge loses nothing exactly when there is no entry of another vendor to lose. -/
theorem lossless_iff (traceParent : String) (message : IDomainMessage) (entries : List Entry)
    (previous toInject : KeyValue String V) (hlist : Lists message entries)
    (hwell : WellFormed C vendor entries previous) :
    Lossless C vendor traceParent message entries previous toInject ↔
      ∀ e ∈ entries, e.name = vendor := by
  constructor
  · intro h e he
    by_contra hother
    exact hother (entryTexts_merge hwell toInject he (h.kept e he hother))
  · intro halone
    refine ⟨⟨_, extract_merge toInject, fun key => ?_⟩, fun e he hother => ?_⟩
    · rw [spread_extract hlist hwell halone]
      exact KeyValue.get_union toInject previous key
    · exact absurd (halone e he) hother

/-- The codec with the empty object as the only one. -/
def sampleCodec : Codec Empty where
  encode text := Base64.encodeUrl text.toByteArray.data.toList
  decode text := (String.fromUTF8? ⟨(Base64.decode text).toArray⟩).getD ""
  stringify _ := "\x7b\x7d"
  parse text := if text = "\x7b\x7d" then some (.object ∅) else none
  decode_encode text := by
    rw [Base64.decode_encodeUrl, Array.toArray_toList, String.fromUTF8?, dif_pos text.isValidUTF8]
    rfl
  comma_notMem_encode text := by
    have hplain : ∀ d, Base64.urlChar (Base64.charOf d) ≠ ',' := by decide +kernel
    rw [Base64.encodeUrl, String.toList_ofList]
    intro hcomma
    obtain ⟨d, -, hd⟩ := List.mem_map.mp hcomma
    exact hplain d hd
  parse_stringify o := by
    have hempty : o = ∅ := by
      refine Finmap.ext_lookup fun key => ?_
      cases h : o.lookup key with
      | none => rfl
      | some v => exact v.elim
    rw [if_pos rfl, hempty]

/-- The entry of the object, and one of another vendor before it. -/
def ownEntry : Entry := ⟨"acmevendor", sampleCodec.encode (sampleCodec.stringify ∅)⟩

def otherEntry : Entry := ⟨"other", "1"⟩

theorem sample_wellFormed {C : Codec V} {json : String} {previous : KeyValue String V}
    (hparse : C.parse json = some (.object previous)) {entries : List Entry}
    (hentries : entries ⊆ [otherEntry, ⟨"acmevendor", C.encode json⟩])
    (hone : entries.filter (·.name = "acmevendor") = [⟨"acmevendor", C.encode json⟩]) :
    WellFormed C "acmevendor" entries previous := by
  refine ⟨by decide, by decide, fun e he => ?_, Or.inr ⟨json, hparse, hone⟩⟩
  rcases List.mem_cons.mp (hentries he) with rfl | hlast
  · exact ⟨by decide, by decide, by decide⟩
  · rw [List.mem_singleton.mp hlast]
    exact ⟨show ',' ∉ "acmevendor".toList by decide, show '=' ∉ "acmevendor".toList by decide,
      C.comma_notMem_encode _⟩

def sampleMessage (entries : List Entry) : IDomainMessage :=
  { traceInfo := some { traceParent := "00-1-2-3", traceState := some (listText entries) } }

/-! Two times of the tracing, with their texts. -/

def preparedAt : KeyValue String Nat := (∅ : KeyValue String Nat).set "timeApiPrepare" 1593424800000

def fulfilledAt : KeyValue String Nat :=
  (∅ : KeyValue String Nat).set "timeApiFulfil" 1593424801000

/-- Objects of the tracing, with what `JSON.stringify` makes of them. -/
def timesTexts : List (KeyValue String Nat × String) :=
  [(preparedAt, "\x7b\"timeApiPrepare\":1593424800000\x7d"),
    (fulfilledAt, "\x7b\"timeApiFulfil\":1593424801000\x7d"),
    (fulfilledAt ∪ preparedAt,
      "\x7b\"timeApiPrepare\":1593424800000,\"timeApiFulfil\":1593424801000\x7d")]

theorem timesTexts_one : ∀ p ∈ timesTexts, ∀ q ∈ timesTexts, p.2 = q.2 → p.1 = q.1 := by
  decide +kernel

theorem timesTexts_object : ∀ p ∈ timesTexts, '\x7b' ∈ p.2.toList := by decide +kernel

theorem object_notMem_repr (n : Nat) : '\x7b' ∉ n.repr.toList := by
  rw [Nat.toList_repr]
  exact fun h => absurd (Nat.isDigit_of_mem_toDigits (by decide) (by decide) h) (by decide)

/-- The objects can be numbered. -/
theorem exists_number : ∃ number : KeyValue String Nat → Nat, Function.Injective number := by
  have hchar : Countable Char :=
    Function.Injective.countable (f := Char.toNat) fun _ _ h => Char.toNat_inj.mp h
  have hstring : Countable String :=
    Function.Injective.countable (f := String.toList) fun _ _ h => String.toList_inj.mp h
  have hobject : Countable (KeyValue String Nat) :=
    Function.Injective.countable (f := Finmap.entries) fun _ _ h => Finmap.ext h
  exact hobject.exists_injective_nat

/-- Any other object gets a number for its text. -/
noncomputable def timesText (o : KeyValue String Nat) : String :=
  match timesTexts.find? (·.1 = o) with
  | some p => p.2
  | none => (exists_number.choose o).repr

theorem timesText_cases (o : KeyValue String Nat) :
    (∃ p ∈ timesTexts, p.1 = o ∧ timesText o = p.2) ∨
      timesText o = (exists_number.choose o).repr := by
  rw [timesText]
  cases hfound : timesTexts.find? (·.1 = o) with
  | none => exact Or.inr rfl
  | some p =>
    exact Or.inl ⟨p, List.mem_of_find?_eq_some hfound, by simpa using List.find?_some hfound, rfl⟩

theorem timesText_injective : Function.Injective timesText := by
  intro o o' h
  rcases timesText_cases o with ⟨p, hp, rfl, htext⟩ | htext <;>
    rcases timesText_cases o' with ⟨q, hq, rfl, htext'⟩ | htext' <;> rw [htext, htext'] at h
  · exact timesTexts_one p hp q hq h
  · exact absurd (h ▸ timesTexts_object p hp) (object_notMem_repr _)
  · exact absurd (h ▸ timesTexts_object q hq) (object_notMem_repr _)
  · have hnumber := congrArg (fun text => Nat.ofDigitChars 10 text.toList 0) h
    simp only [Nat.toList_repr, Nat.ofDigitChars_ten_toDigits] at hnumber
    exact exists_number.choose_spec hnumber

open Classical in
/-- The codec of objects of numbers. -/
noncomputable def timesCodec : Codec Nat where
  encode := sampleCodec.encode
  decode := sampleCodec.decode
  stringify := timesText
  parse text := if h : ∃ o, timesText o = text then some (.object h.choose) else none
  decode_encode := sampleCodec.decode_encode
  comma_notMem_encode := sampleCodec.comma_notMem_encode
  parse_stringify o := by
    have h : ∃ o', timesText o' = timesText o := ⟨o, rfl⟩
    rw [dif_pos h, timesText_injective h.choose_spec]

/-- The entry that the message got with the prepare. -/
def preparedEntry : Entry :=
  ⟨"acmevendor", sampleCodec.encode "\x7b\"timeApiPrepare\":1593424800000\x7d"⟩

theorem parse_preparedAt : timesCodec.parse "\x7b\"timeApiPrepare\":1593424800000\x7d" =
    some (.object preparedAt) := by
  have hfound : timesTexts.find? (·.1 = preparedAt) =
      some (preparedAt, "\x7b\"timeApiPrepare\":1593424800000\x7d") :=
    List.find?_cons_of_pos (decide_eq_true rfl)
  have htext : timesText preparedAt = "\x7b\"timeApiPrepare\":1593424800000\x7d" := by
    rw [timesText, hfound]
  rw [← htext]
  exact timesCodec.parse_stringify preparedAt

/-- Merged into `acmevendor`'s entry alone, and behind an entry of another vendor. -/
theorem lossless_iff_sample :
    (Lossless timesCodec "acmevendor" "" (sampleMessage [preparedEntry]) [preparedEntry]
        preparedAt fulfilledAt ↔ ∀ e ∈ [preparedEntry], e.name = "acmevendor") ∧
      (Lossless timesCodec "acmevendor" "" (sampleMessage [otherEntry, preparedEntry])
        [otherEntry, preparedEntry] preparedAt fulfilledAt ↔
          ∀ e ∈ [otherEntry, preparedEntry], e.name = "acmevendor") :=
  ⟨lossless_iff timesCodec "acmevendor" "" (sampleMessage [preparedEntry]) [preparedEntry]
      preparedAt fulfilledAt rfl
      (sample_wellFormed parse_preparedAt (List.subset_cons_self _ _) rfl),
    lossless_iff timesCodec "acmevendor" "" (sampleMessage [otherEntry, preparedEntry])
      [otherEntry, preparedEntry] preparedAt fulfilledAt rfl
      (sample_wellFormed parse_preparedAt (List.Subset.refl _) rfl)⟩

/-- `other=1,acmevendor=e30` -/
theorem other_entry_lost :
    Lists (sampleMessage [otherEntry, ownEntry]) [otherEntry, ownEntry] ∧
      WellFormed sampleCodec "acmevendor" [otherEntry, ownEntry] ∅ ∧
      ¬ Lossless sampleCodec "acmevendor" "" (sampleMessage [otherEntry, ownEntry])
        [otherEntry, ownEntry] ∅ ∅ := by
  have hwell : WellFormed sampleCodec "acmevendor" [otherEntry, ownEntry] ∅ :=
    sample_wellFormed (sampleCodec.parse_stringify ∅) (List.Subset.refl _) rfl
  refine ⟨rfl, hwell, fun h => ?_⟩
  have hname : otherEntry.name = "acmevendor" :=
    entryTexts_merge hwell ∅ List.mem_cons_self (h.kept _ List.mem_cons_self (by decide))
  exact absurd hname (by decide)

end TraceTools

end LibUtilities
end PocArchitecture
