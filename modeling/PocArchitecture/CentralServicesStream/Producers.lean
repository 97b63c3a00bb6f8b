/-
The producers of central-services-stream: `util/producer.js`.

The module keeps one producer a topic in `listOfProducers` and makes it when the first message
of the topic comes.  Making one takes a while, and the calls that come in the meantime do not
find it, make their own, and put it over the one of the call before.  `connectAll` does the
same without a message, one topic after the other.  `disconnect` leaves the list as it is.

A label is what happens next: a call begins, the connect a call waits for is answered, or a
producer of the list is disconnected, by itself or as one of all of them.  An error event of a
client that is connecting has no listener and ends the process, and the run with it.
-/
import PocArchitecture.Lib.KeyValue
import PocArchitecture.Lib.Machine

namespace PocArchitecture
namespace CentralServicesStream
namespace Producers

structure TopicConf where
  topicName : String
  key : Option String
  partition : Option Nat

inductive ConnectStatus where
  | connecting
  | connected
  | refused
  | disconnected
  deriving DecidableEq

/-- A producer, with the topic it was made for. -/
structure Producer where
  topicName : String
  status : ConnectStatus

def Producer.HasConnected (producer : Producer) : Prop :=
  producer.status = .connected ∨ producer.status = .disconnected

inductive Task (M : Type) where
  | produceMessage (messageProtocol : M) (topicConf : TopicConf)
  | connectAll (configs : List String)

inductive Status where
  /-- Waits for a producer of its own; the topics of the rest of the loop come after. -/
  | connecting (topicName : String) (producer : Nat) (rest : List String)
  | resolved
  | rejected

structure Call (M : Type) where
  task : Task M
  status : Status

/-- A message a producer took. -/
structure Produced (M : Type) where
  producer : Nat
  call : Nat
  messageProtocol : M
  topicConf : TopicConf

structure State (M : Type) where
  listOfProducers : KeyValue String Nat
  producers : List Producer
  calls : List (Call M)
  produced : List (Produced M)

inductive Label (M : Type) where
  | produceMessage (messageProtocol : M) (topicConf : TopicConf) (produces : Bool)
  | connectAll (configs : List String)
  | connected (call : Nat) (produces : Bool)
  | refused (call : Nat)
  | disconnect (topicName : String)

/-- What `listOfProducers['…']` finds in an object that holds nothing of its own. -/
def inherited : List String :=
  ["constructor", "hasOwnProperty", "isPrototypeOf", "propertyIsEnumerable", "toLocaleString",
    "toString", "valueOf", "__defineGetter__", "__defineSetter__", "__lookupGetter__",
    "__lookupSetter__", "__proto__"]

variable {M : Type}

namespace State

def start : State M := { listOfProducers := ∅, producers := [], calls := [], produced := [] }

/-- `new Producer(config)`, and the call that waits for its `connect`. -/
def make (s : State M) (task : Task M) (topicName : String) (rest : List String) : State M × Call M :=
  ({ s with producers := s.producers ++ [{ topicName := topicName, status := .connecting }] },
    { task := task, status := .connecting topicName s.producers.length rest })

/-- `producer.sendMessage(messageProtocol, topicConf)` -/
def sendMessage (s : State M) (call producer : Nat) (messageProtocol : M) (topicConf : TopicConf)
    (produces : Bool) : State M × Call M :=
  if produces then
    ({ s with
        produced := s.produced ++
          [{ producer := producer, call := call, messageProtocol := messageProtocol,
             topicConf := topicConf }] },
      { task := .produceMessage messageProtocol topicConf, status := .resolved })
  else (s, { task := .produceMessage messageProtocol topicConf, status := .rejected })

/-- The loop of `connectAll` from here to the next `await`. -/
def connectNext (s : State M) (configs : List String) : List String → State M × Call M
  | [] => (s, { task := .connectAll configs, status := .resolved })
  | topicName :: rest =>
    if topicName ∈ inherited ∨ (s.listOfProducers.get topicName).isSome then
      connectNext s configs rest
    else s.make (.connectAll configs) topicName rest

def produceMessage (s : State M) (messageProtocol : M) (topicConf : TopicConf) (produces : Bool) :
    State M × Call M :=
  -- what is found there has no `sendMessage`
  if topicConf.topicName ∈ inherited then
    (s, { task := .produceMessage messageProtocol topicConf, status := .rejected })
  else
    match s.listOfProducers.get topicConf.topicName with
    | some producer => s.sendMessage s.calls.length producer messageProtocol topicConf produces
    | none => s.make (.produceMessage messageProtocol topicConf) topicConf.topicName []

def setStatus (s : State M) (producer : Nat) (status : ConnectStatus) : State M :=
  { s with producers := s.producers.modify producer fun p => { p with status := status } }

/-- `listOfProducers[topicName] = producer` -/
def register (s : State M) (topicName : String) (producer : Nat) : State M :=
  { s.setStatus producer .connected with
    listOfProducers := s.listOfProducers.set topicName producer }

/-- After `await producer.connect()`. -/
def afterConnect (s : State M) (call producer : Nat) (rest : List String) (produces : Bool) :
    Task M → State M × Call M
  | .produceMessage messageProtocol topicConf =>
    s.sendMessage call producer messageProtocol topicConf produces
  | .connectAll configs => s.connectNext configs rest

/-- The `catch` blocks.  The one of `connectAll` names `config.topicConf.topicName` in a debug
line, and no config has a `topicConf`. -/
def afterRefusal (isDebugEnabled : Bool) (s : State M) (rest : List String) :
    Task M → State M × Call M
  | .produceMessage messageProtocol topicConf =>
    (s, { task := .produceMessage messageProtocol topicConf, status := .rejected })
  | .connectAll configs =>
    if isDebugEnabled then (s, { task := .connectAll configs, status := .rejected })
    else s.connectNext configs rest

/-- A call that begins. -/
def begin (r : State M × Call M) : State M := { r.1 with calls := r.1.calls ++ [r.2] }

/-- A call that goes on. -/
def resume (call : Nat) (r : State M × Call M) : State M :=
  { r.1 with calls := r.1.calls.set call r.2 }

end State

open State

def step (isDebugEnabled : Bool) (s : State M) : Label M → State M
  | .produceMessage messageProtocol topicConf produces =>
    begin (s.produceMessage messageProtocol topicConf produces)
  | .connectAll configs => begin (s.connectNext configs configs)
  | .connected call produces =>
    match s.calls[call]? with
    | some { task, status := .connecting topicName producer rest } =>
      resume call ((s.register topicName producer).afterConnect call producer rest produces task)
    | _ => s
  | .refused call =>
    match s.calls[call]? with
    | some { task, status := .connecting _ producer rest } =>
      resume call ((s.setStatus producer .refused).afterRefusal isDebugEnabled rest task)
    | _ => s
  | .disconnect topicName =>
    match s.listOfProducers.get topicName with
    | some producer => s.setStatus producer .disconnected
    | none => s

def run (isDebugEnabled : Bool) (labels : List (Label M)) : State M :=
  Machine.run (step isDebugEnabled) start labels

/-! ## What a call does up to its next `await` -/

/-- A call sends through the producer of the list, or stops, or makes a producer for a topic that
has none. -/
inductive Acts (s : State M) (call : Nat) (task : Task M) : State M × Call M → Prop
  | sent (messageProtocol : M) (topicConf : TopicConf) (producer : Nat)
      (htask : task = .produceMessage messageProtocol topicConf)
      (hlisted : s.listOfProducers.get topicConf.topicName = some producer) :
      Acts s call task
        ({ s with
            produced := s.produced ++
              [{ producer := producer, call := call, messageProtocol := messageProtocol,
                 topicConf := topicConf }] },
          { task := task, status := .resolved })
  | looped (configs : List String) (htask : task = .connectAll configs) :
      Acts s call task (s, { task := task, status := .resolved })
  | rejected : Acts s call task (s, { task := task, status := .rejected })
  | made (topicName : String) (rest : List String)
      (hnone : s.listOfProducers.get topicName = none)
      (htopic : ∀ messageProtocol topicConf, task = .produceMessage messageProtocol topicConf →
        topicConf.topicName = topicName) :
      Acts s call task (s.make task topicName rest)

section Acting

variable {s : State M} {call : Nat}

theorem acts_sendMessage {producer : Nat} {messageProtocol : M} {topicConf : TopicConf}
    (hlisted : s.listOfProducers.get topicConf.topicName = some producer) (produces : Bool) :
    Acts s call (.produceMessage messageProtocol topicConf)
      (s.sendMessage call producer messageProtocol topicConf produces) := by
  unfold sendMessage
  split
  · exact .sent messageProtocol topicConf producer rfl hlisted
  · exact .rejected

theorem acts_connectNext (configs rest : List String) :
    Acts s call (.connectAll configs) (s.connectNext configs rest) := by
  induction rest with
  | nil => exact .looped configs rfl
  | cons topicName rest ih =>
    unfold connectNext
    split
    · exact ih
    · rename_i hfound
      refine .made topicName rest ?_ fun messageProtocol topicConf htask => by cases htask
      simpa using fun h => hfound (Or.inr h)

theorem acts_produceMessage (messageProtocol : M) (topicConf : TopicConf) (produces : Bool) :
    Acts s s.calls.length (.produceMessage messageProtocol topicConf)
      (s.produceMessage messageProtocol topicConf produces) := by
  unfold produceMessage
  split
  · exact .rejected
  · split
    · rename_i producer hlisted
      exact acts_sendMessage hlisted produces
    · rename_i hnone
      refine .made topicConf.topicName [] hnone fun m conf htask => ?_
      cases htask
      rfl

theorem acts_afterConnect {producer : Nat} {topicName : String} {task : Task M}
    (hlisted : s.listOfProducers.get topicName = some producer)
    (htopic : ∀ messageProtocol topicConf, task = .produceMessage messageProtocol topicConf →
      topicConf.topicName = topicName) (rest : List String) (produces : Bool) :
    Acts s call task (s.afterConnect call producer rest produces task) := by
  cases task with
  | produceMessage messageProtocol topicConf =>
    apply acts_sendMessage
    rw [htopic messageProtocol topicConf rfl, hlisted]
  | connectAll configs => exact acts_connectNext configs rest

theorem acts_afterRefusal (isDebugEnabled : Bool) (rest : List String) (task : Task M) :
    Acts s call task (s.afterRefusal isDebugEnabled rest task) := by
  cases task with
  | produceMessage messageProtocol topicConf => exact .rejected
  | connectAll configs =>
    show Acts s call _ (if isDebugEnabled then _ else _)
    split
    · exact .rejected
    · exact acts_connectNext configs rest

end Acting

/-! ## Every state of every run -/

/-- What the producers took of this call. -/
def State.takenOf (s : State M) (call : Nat) : List (Produced M) :=
  s.produced.filter fun e => e.call == call

/-- A call of `produceMessage` that resolves has had its message taken once, by a producer that
was made for its topic and has connected; every other call nothing. -/
def Call.Sends (s : State M) (i : Nat) (call : Call M) : Prop :=
  match call.task, call.status with
  | .produceMessage messageProtocol topicConf, .resolved =>
    ∃ p producer, s.producers[p]? = some producer ∧ producer.topicName = topicConf.topicName ∧
      producer.HasConnected ∧
      s.takenOf i =
        [{ producer := p, call := i, messageProtocol := messageProtocol, topicConf := topicConf }]
  | _, _ => s.takenOf i = []

/-- A call waits for a producer that is connecting, and was made for its topic. -/
def Call.Waits (s : State M) (call : Call M) : Prop :=
  ∀ topicName p rest, call.status = .connecting topicName p rest →
    s.producers[p]? = some { topicName := topicName, status := .connecting } ∧
    ∀ messageProtocol topicConf, call.task = .produceMessage messageProtocol topicConf →
      topicConf.topicName = topicName

/-- All is well, but for a call that is at work. -/
structure SoundBut (hole : Option Nat) (s : State M) : Prop where
  listed : ∀ topicName p, s.listOfProducers.get topicName = some p →
    ∃ producer, s.producers[p]? = some producer ∧ producer.topicName = topicName ∧
      producer.HasConnected
  waits : ∀ (i : Nat) (call : Call M), some i ≠ hole → s.calls[i]? = some call → call.Waits s
  apart : ∀ (i j : Nat) (call call' : Call M) topicName topicName' p rest rest', some i ≠ hole →
    some j ≠ hole → s.calls[i]? = some call → s.calls[j]? = some call' →
    call.status = .connecting topicName p rest → call'.status = .connecting topicName' p rest' →
    i = j
  sends : ∀ (i : Nat) (call : Call M), some i ≠ hole → s.calls[i]? = some call → call.Sends s i
  known : ∀ e ∈ s.produced, e.call < s.calls.length

abbrev Sound (s : State M) : Prop := SoundBut none s

theorem sound_start : Sound (start : State M) where
  listed topicName p hp := by
    rw [start, KeyValue.get_empty] at hp
    cases hp
  waits i call _ hcall := by cases hcall
  apart i j call call' topicName topicName' p rest rest' _ _ hcall := by cases hcall
  sends i call _ hcall := by cases hcall
  known e he := absurd he List.not_mem_nil

section Segment

variable {s t : State M} {hole : Option Nat} {i p : Nat} {call : Call M} {task : Task M}
  {topicName : String} {rest : List String}

/-- A producer that has connected stays one. -/
def Keeps (s t : State M) : Prop :=
  ∀ (p : Nat) producer, s.producers[p]? = some producer → producer.HasConnected →
    ∃ producer', t.producers[p]? = some producer' ∧ producer'.topicName = producer.topicName ∧
      producer'.HasConnected

theorem Call.Sends.keep (h : call.Sends s i) (htaken : t.takenOf i = s.takenOf i)
    (hkeeps : Keeps s t) : call.Sends t i := by
  unfold Sends at h ⊢
  split at h
  · obtain ⟨p, producer, hp, htopic, hconnected, hsent⟩ := h
    obtain ⟨producer', hp', htopic', hconnected'⟩ := hkeeps p producer hp hconnected
    exact ⟨p, producer', hp', htopic'.trans htopic, hconnected', htaken.trans hsent⟩
  · exact htaken.trans h

theorem Call.Sends.takenOf_nil (h : call.Sends s i) (hstatus : call.status ≠ .resolved) :
    s.takenOf i = [] := by
  unfold Sends at h
  split at h
  · rename_i hresolved
    exact absurd hresolved hstatus
  · exact h

theorem Call.sends_of_nil (hstatus : ∀ messageProtocol topicConf,
      call.task = .produceMessage messageProtocol topicConf → call.status ≠ .resolved)
    (h : s.takenOf i = []) : call.Sends s i := by
  unfold Sends
  split
  · rename_i messageProtocol topicConf htask hresolved
    exact absurd hresolved (hstatus messageProtocol topicConf htask)
  · exact h

theorem takenOf_length (h : ∀ e ∈ s.produced, e.call < s.calls.length) :
    s.takenOf s.calls.length = [] := by
  apply List.filter_eq_nil_iff.mpr
  intro e he hcall
  have hlt := h e he
  have heq : e.call = s.calls.length := beq_iff_eq.mp hcall
  omega

theorem takenOf_append {e : Produced M} (h : t.produced = s.produced ++ [e]) (i : Nat) :
    t.takenOf i = s.takenOf i ++ if e.call = i then [e] else [] := by
  unfold State.takenOf
  rw [h, List.filter_append]
  by_cases he : e.call = i
  · rw [if_pos he, List.filter_cons_of_pos (by simpa using he), List.filter_nil]
  · rw [if_neg he, List.filter_cons_of_neg (by simpa using he), List.filter_nil]

theorem SoundBut.open (h : Sound s) (i : Nat) : SoundBut (some i) s where
  listed := h.listed
  waits j call _ := h.waits j call (Option.some_ne_none j)
  apart j k call call' topicName topicName' p rest rest' _ _ :=
    h.apart j k call call' topicName topicName' p rest rest' (Option.some_ne_none j)
      (Option.some_ne_none k)
  sends j call _ := h.sends j call (Option.some_ne_none j)
  known := h.known

/-- The call is done with its work. -/
theorem SoundBut.close (h : SoundBut (some i) s)
    (hlist : t.listOfProducers = s.listOfProducers)
    (hproducers : ∀ (p : Nat) producer, s.producers[p]? = some producer →
      t.producers[p]? = some producer)
    (htaken : ∀ j, j ≠ i → t.takenOf j = s.takenOf j) (hi : t.calls[i]? = some call)
    (hother : ∀ j, j ≠ i → t.calls[j]? = s.calls[j]?) (hwaits : call.Waits t)
    (hapart : ∀ topicName p rest, call.status = .connecting topicName p rest →
      s.producers[p]? = none)
    (hsends : call.Sends t i) (hknown : ∀ e ∈ t.produced, e.call < t.calls.length) : Sound t := by
  have hkeeps : Keeps s t :=
    fun p producer hp hconnected => ⟨producer, hproducers p producer hp, rfl, hconnected⟩
  have hold : ∀ (j : Nat) (c : Call M), j ≠ i → t.calls[j]? = some c →
      s.calls[j]? = some c ∧ some j ≠ some i := by
    intro j c hj hc
    exact ⟨(hother j hj).symm.trans hc, fun he => hj (Option.some.inj he)⟩
  have hpast : ∀ (j : Nat) (c : Call M) topicName p rest, j ≠ i → t.calls[j]? = some c →
      c.status = .connecting topicName p rest →
      s.producers[p]? = some { topicName := topicName, status := .connecting } := by
    intro j c topicName p rest hj hc hstatus
    obtain ⟨hc', hne⟩ := hold j c hj hc
    exact (h.waits j c hne hc' topicName p rest hstatus).1
  refine { listed := ?_, waits := ?_, apart := ?_, sends := ?_, known := hknown }
  · intro topicName p hp
    rw [hlist] at hp
    obtain ⟨producer, hproducer, htopic, hconnected⟩ := h.listed topicName p hp
    exact ⟨producer, hproducers p producer hproducer, htopic, hconnected⟩
  · intro j c _ hc
    by_cases hj : j = i
    · subst hj
      obtain rfl := Option.some.inj (hi.symm.trans hc)
      exact hwaits
    · obtain ⟨hc', hne⟩ := hold j c hj hc
      intro topicName p rest hstatus
      obtain ⟨hp, htopic⟩ := h.waits j c hne hc' topicName p rest hstatus
      exact ⟨hproducers p _ hp, htopic⟩
  · intro j k c c' topicName topicName' p rest rest' _ _ hc hc' hstatus hstatus'
    by_cases hj : j = i
    · by_cases hk : k = i
      · exact hj.trans hk.symm
      · subst hj
        obtain rfl := Option.some.inj (hi.symm.trans hc)
        have hnone := hapart topicName p rest hstatus
        rw [hpast k c' topicName' p rest' hk hc' hstatus'] at hnone
        cases hnone
    · obtain ⟨hcs, hne⟩ := hold j c hj hc
      by_cases hk : k = i
      · subst hk
        obtain rfl := Option.some.inj (hi.symm.trans hc')
        have hnone := hapart topicName' p rest' hstatus'
        rw [hpast j c topicName p rest hj hc hstatus] at hnone
        cases hnone
      · obtain ⟨hcs', hne'⟩ := hold k c' hk hc'
        exact h.apart j k c c' topicName topicName' p rest rest' hne hne' hcs hcs' hstatus hstatus'
  · intro j c _ hc
    by_cases hj : j = i
    · subst hj
      obtain rfl := Option.some.inj (hi.symm.trans hc)
      exact hsends
    · obtain ⟨hcs, hne⟩ := hold j c hj hc
      exact (h.sends j c hne hcs).keep (htaken j hj) hkeeps

theorem SoundBut.act {r : State M × Call M} (h : SoundBut (some i) s) (hacts : Acts s i task r)
    (hnil : s.takenOf i = []) (calls : List (Call M)) (hi : calls[i]? = some r.2)
    (hother : ∀ j, j ≠ i → calls[j]? = s.calls[j]?) (hlength : s.calls.length ≤ calls.length) :
    Sound { r.1 with calls := calls } := by
  have hlt : i < calls.length := (List.getElem?_eq_some_iff.mp hi).1
  have hknown : ∀ e ∈ s.produced, e.call < calls.length :=
    fun e he => Nat.lt_of_lt_of_le (h.known e he) hlength
  cases hacts with
  | sent messageProtocol topicConf p htask hlisted =>
    refine h.close rfl (fun _ _ hp => hp) ?_ hi hother ?_ ?_ ?_ ?_
    · intro j hj
      rw [takenOf_append (s := s) rfl, if_neg fun he => hj he.symm, List.append_nil]
    · intro topicName p rest hstatus
      cases hstatus
    · intro topicName p rest hstatus
      cases hstatus
    · subst htask
      obtain ⟨producer, hp, htopic, hconnected⟩ := h.listed _ _ hlisted
      refine ⟨p, producer, hp, htopic, hconnected, ?_⟩
      rw [takenOf_append (s := s) rfl, if_pos rfl, hnil, List.nil_append]
    · intro e he
      rcases List.mem_append.mp he with he | he
      · exact hknown e he
      · rw [List.mem_singleton.mp he]
        exact hlt
  | looped configs htask =>
    refine h.close rfl (fun _ _ hp => hp) (fun _ _ => rfl) hi hother ?_ ?_ ?_ hknown
    · intro topicName p rest hstatus
      cases hstatus
    · intro topicName p rest hstatus
      cases hstatus
    · refine Call.sends_of_nil (fun messageProtocol topicConf htask' => ?_) hnil
      cases htask.symm.trans htask'
  | rejected =>
    refine h.close rfl (fun _ _ hp => hp) (fun _ _ => rfl) hi hother ?_ ?_ ?_ hknown
    · intro topicName p rest hstatus
      cases hstatus
    · intro topicName p rest hstatus
      cases hstatus
    · exact Call.sends_of_nil (fun _ _ _ hstatus => by cases hstatus) hnil
  | made topicName rest hnone htopic =>
    refine h.close rfl ?_ (fun _ _ => rfl) hi hother ?_ ?_ ?_ hknown
    · intro p producer hp
      obtain ⟨hlt, -⟩ := List.getElem?_eq_some_iff.mp hp
      exact (List.getElem?_append_left hlt).trans hp
    · intro topicName' p rest' hstatus
      cases hstatus
      exact ⟨List.getElem?_concat_length, htopic⟩
    · intro topicName' p rest' hstatus
      cases hstatus
      exact List.getElem?_eq_none (Nat.le_refl _)
    · exact Call.sends_of_nil (fun _ _ _ hstatus => by cases hstatus) hnil

theorem getElem?_setStatus (s : State M) (p : Nat) (status : ConnectStatus) (q : Nat) :
    (s.setStatus p status).producers[q]? = if q = p then
      s.producers[q]?.map fun producer => { producer with status := status }
      else s.producers[q]? := by
  show (s.producers.modify p _)[q]? = _
  rw [List.getElem?_modify]
  by_cases hq : q = p
  · simp [hq]
  · have hne : ¬ p = q := fun he => hq he.symm
    simp [hq, hne]

/-- A producer nobody waits for gets another status. -/
theorem SoundBut.setStatus (h : SoundBut hole s) {status : ConnectStatus}
    (hkeep : (∃ producer, s.producers[p]? = some producer ∧ producer.HasConnected) →
      status = .connected ∨ status = .disconnected)
    (hfree : ∀ (j : Nat) (c : Call M) topicName rest, some j ≠ hole → s.calls[j]? = some c →
      c.status ≠ .connecting topicName p rest) : SoundBut hole (s.setStatus p status) := by
  have hkeeps : Keeps s (s.setStatus p status) := by
    intro q producer hq hconnected
    rw [getElem?_setStatus, hq]
    by_cases he : q = p
    · subst he
      rw [if_pos rfl]
      exact ⟨_, rfl, rfl, hkeep ⟨producer, hq, hconnected⟩⟩
    · rw [if_neg he]
      exact ⟨producer, rfl, rfl, hconnected⟩
  refine { listed := ?_, waits := ?_, apart := h.apart, sends := ?_, known := h.known }
  · intro topicName q hq
    obtain ⟨producer, hproducer, htopic, hconnected⟩ := h.listed topicName q hq
    obtain ⟨producer', hproducer', htopic', hconnected'⟩ := hkeeps q producer hproducer hconnected
    exact ⟨producer', hproducer', htopic'.trans htopic, hconnected'⟩
  · intro j c hj hc topicName q rest hstatus
    obtain ⟨hq, htopic⟩ := h.waits j c hj hc topicName q rest hstatus
    have hne : q ≠ p := by
      intro he
      subst he
      exact hfree j c topicName rest hj hc hstatus
    rw [getElem?_setStatus, if_neg hne]
    exact ⟨hq, htopic⟩
  · intro j c hj hc
    exact (h.sends j c hj hc).keep rfl hkeeps

/-- The connect a call waits for is answered. -/
theorem SoundBut.answered (h : Sound s) (hcall : s.calls[i]? = some call)
    (hstatus : call.status = .connecting topicName p rest) (status : ConnectStatus) :
    SoundBut (some i) (s.setStatus p status) := by
  apply (SoundBut.open h i).setStatus
  · rintro ⟨producer, hproducer, hconnected⟩
    obtain ⟨hp, -⟩ := h.waits i call (Option.some_ne_none i) hcall topicName p rest hstatus
    obtain rfl := Option.some.inj (hp.symm.trans hproducer)
    rcases hconnected with hconnected | hconnected <;> cases hconnected
  · intro j c topicName' rest' hj hc hstatus'
    apply hj
    rw [h.apart j i c call topicName' topicName p rest' rest (Option.some_ne_none j)
      (Option.some_ne_none i) hc hcall hstatus' hstatus]

theorem SoundBut.register (h : Sound s) (hcall : s.calls[i]? = some call)
    (hstatus : call.status = .connecting topicName p rest) :
    SoundBut (some i) (s.register topicName p) := by
  have hset := SoundBut.answered h hcall hstatus .connected
  refine { listed := ?_, waits := hset.waits, apart := hset.apart, sends := hset.sends,
           known := hset.known }
  intro topicName' q hq
  by_cases he : topicName' = topicName
  · subst he
    obtain rfl := Option.some.inj ((KeyValue.get_set_self _ _ _).symm.trans hq)
    obtain ⟨hp, -⟩ := h.waits i call (Option.some_ne_none i) hcall topicName' p rest hstatus
    refine ⟨{ topicName := topicName', status := .connected }, ?_, rfl, Or.inl rfl⟩
    show (s.setStatus p .connected).producers[p]? = _
    rw [getElem?_setStatus, if_pos rfl, hp]
    rfl
  · exact hset.listed topicName' q ((KeyValue.get_set_ne _ _ he).symm.trans hq)

/-- A call begins. -/
theorem SoundBut.begin {r : State M × Call M} (h : Sound s)
    (hacts : Acts s s.calls.length task r) (hcalls : r.1.calls = s.calls) : Sound (begin r) := by
  refine (SoundBut.open h s.calls.length).act hacts (takenOf_length h.known)
    (r.1.calls ++ [r.2]) ?_ ?_ ?_
  · rw [hcalls]
    exact List.getElem?_concat_length
  · intro j hj
    rw [hcalls]
    rcases Nat.lt_or_gt_of_ne hj with hlt | hgt
    · exact List.getElem?_append_left hlt
    · rw [List.getElem?_eq_none (by simp; omega), List.getElem?_eq_none (by omega)]
  · rw [hcalls, List.length_append]
    omega

/-- A call goes on. -/
theorem SoundBut.resume {r : State M × Call M} (h : SoundBut (some i) s)
    (hacts : Acts s i task r) (hcalls : r.1.calls = s.calls) (hlt : i < s.calls.length)
    (hnil : s.takenOf i = []) : Sound (resume i r) := by
  refine h.act hacts hnil (r.1.calls.set i r.2) ?_ ?_ ?_
  · rw [hcalls, List.getElem?_set_self hlt]
  · intro j hj
    rw [hcalls, List.getElem?_set_ne fun he => hj he.symm]
  · rw [hcalls, List.length_set]

theorem Acts.calls_eq {r : State M × Call M} (h : Acts s i task r) : r.1.calls = s.calls := by
  cases h <;> rfl

end Segment

/-- What a step can do. -/
inductive Effect (s : State M) : State M → Prop
  | begins (task : Task M) (r : State M × Call M) (hacts : Acts s s.calls.length task r) :
      Effect s (begin r)
  | connected (call : Nat) (task : Task M) (topicName : String) (p : Nat) (rest : List String)
      (r : State M × Call M)
      (hcall : s.calls[call]? = some { task := task, status := .connecting topicName p rest })
      (hacts : Acts (s.register topicName p) call task r) : Effect s (resume call r)
  | refused (call : Nat) (task : Task M) (topicName : String) (p : Nat) (rest : List String)
      (r : State M × Call M)
      (hcall : s.calls[call]? = some { task := task, status := .connecting topicName p rest })
      (hacts : Acts (s.setStatus p .refused) call task r) : Effect s (resume call r)
  | disconnected (topicName : String) (p : Nat)
      (hp : s.listOfProducers.get topicName = some p) : Effect s (s.setStatus p .disconnected)
  | idle : Effect s s

theorem Sound.effect {s : State M} (h : Sound s) (isDebugEnabled : Bool) (label : Label M) :
    Effect s (step isDebugEnabled s label) := by
  cases label with
  | produceMessage messageProtocol topicConf produces =>
    exact .begins _ _ (acts_produceMessage messageProtocol topicConf produces)
  | connectAll configs => exact .begins _ _ (acts_connectNext configs configs)
  | connected call produces =>
    rw [step]
    split
    · rename_i task topicName p rest hcall
      refine .connected call task topicName p rest _ hcall ?_
      exact acts_afterConnect (KeyValue.get_set_self _ _ _)
        (h.waits call _ (Option.some_ne_none call) hcall topicName p rest rfl).2 rest produces
    · exact .idle
  | refused call =>
    rw [step]
    split
    · rename_i task topicName p rest hcall
      exact .refused call task topicName p rest _ hcall (acts_afterRefusal isDebugEnabled rest task)
    · exact .idle
  | disconnect topicName =>
    rw [step]
    split
    · rename_i p hp
      exact .disconnected topicName p hp
    · exact .idle

/-- A call that waits has not sent anything. -/
theorem Sound.waiting_nil {s : State M} (h : Sound s) {call p : Nat} {task : Task M}
    {topicName : String} {rest : List String}
    (hcall : s.calls[call]? = some { task := task, status := .connecting topicName p rest }) :
    call < s.calls.length ∧ s.takenOf call = [] :=
  ⟨(List.getElem?_eq_some_iff.mp hcall).1,
    (h.sends call _ (Option.some_ne_none call) hcall).takenOf_nil fun hr => by cases hr⟩

theorem Sound.step {s : State M} (h : Sound s) (isDebugEnabled : Bool) (label : Label M) :
    Sound (step isDebugEnabled s label) := by
  have heffect := h.effect isDebugEnabled label
  generalize Producers.step isDebugEnabled s label = s' at heffect ⊢
  cases heffect with
  | begins task r hacts => exact h.begin hacts hacts.calls_eq
  | connected call task topicName p rest r hcall hacts =>
    obtain ⟨hlt, hnil⟩ := h.waiting_nil hcall
    exact (SoundBut.register h hcall rfl).resume hacts hacts.calls_eq hlt hnil
  | refused call task topicName p rest r hcall hacts =>
    obtain ⟨hlt, hnil⟩ := h.waiting_nil hcall
    exact (SoundBut.answered h hcall rfl _).resume hacts hacts.calls_eq hlt hnil
  | disconnected topicName p hp =>
    apply h.setStatus
    · exact fun _ => Or.inr rfl
    · intro j c topicName' rest hj hc hstatus
      obtain ⟨producer, hproducer, -, hconnected⟩ := h.listed topicName p hp
      obtain ⟨hwaiting, -⟩ := h.waits j c hj hc topicName' p rest hstatus
      obtain rfl := Option.some.inj (hwaiting.symm.trans hproducer)
      rcases hconnected with hconnected | hconnected <;> cases hconnected
  | idle => exact h

theorem sound_run (isDebugEnabled : Bool) (labels : List (Label M)) :
    Sound (run isDebugEnabled labels) :=
  Machine.run_always (fun _ label h => h.step isDebugEnabled label) sound_start labels

/-- In every run a call that resolves has had its message taken exactly once, and through a
connected producer of its topic; a call that does not resolve, not at all. -/
theorem sends_once (isDebugEnabled : Bool) (labels : List (Label M)) (i : Nat) (call : Call M)
    (hcall : (run isDebugEnabled labels).calls[i]? = some call) :
    call.Sends (run isDebugEnabled labels) i :=
  (sound_run isDebugEnabled labels).sends i call (Option.some_ne_none i) hcall

/-- Two messages of a topic, the first of which has to connect. -/
def sampleLabels : List (Label String) :=
  [.produceMessage "one" { topicName := "prepare", key := none, partition := none } true,
    .connected 0 true,
    .produceMessage "two" { topicName := "prepare", key := none, partition := none } true]

theorem sends_once_sample :
    Call.Sends (run false sampleLabels) 1
      { task := .produceMessage "two" { topicName := "prepare", key := none, partition := none },
        status := .resolved } :=
  sends_once false sampleLabels 1 _ rfl

/-! ## A topic that is in the list -/

/-- The topic has its producer, and no call is making another one. -/
structure Settled (topicName : String) (p : Nat) (s : State M) : Prop where
  listed : s.listOfProducers.get topicName = some p
  still : ∀ call ∈ s.calls, ∀ q rest, call.status ≠ .connecting topicName q rest

/-- How many producers were made for the topic. -/
def State.madeFor (s : State M) (topicName : String) : Nat :=
  s.producers.countP fun producer => producer.topicName == topicName

def State.producedFor (s : State M) (topicName : String) : List (Produced M) :=
  s.produced.filter fun e => e.topicConf.topicName == topicName

/-- Since `s` the messages of the topic went through its producer in the order of the calls, and
no other producer was made. -/
structure Served (topicName : String) (p : Nat) (s s' : State M) : Prop where
  settled : Settled topicName p s'
  length : s.calls.length ≤ s'.calls.length
  made : s'.madeFor topicName = s.madeFor topicName
  since : ∃ more, s'.producedFor topicName = s.producedFor topicName ++ more ∧
    (∀ e ∈ more, e.producer = p ∧ s.calls.length ≤ e.call) ∧
    more.Pairwise fun e e' => e.call < e'.call

section Listed

variable {topicName : String} {p : Nat} {s s' : State M}

theorem served_refl (h : Settled topicName p s) : Served topicName p s s where
  settled := h
  length := Nat.le_refl _
  made := rfl
  since := ⟨[], (List.append_nil _).symm, fun _ he => absurd he List.not_mem_nil, .nil⟩

theorem madeFor_setStatus (s : State M) (q : Nat) (status : ConnectStatus) (topicName : String) :
    (s.setStatus q status).madeFor topicName = s.madeFor topicName := by
  show (s.producers.modify q _).countP _ = _
  unfold State.madeFor
  generalize s.producers = producers
  induction producers generalizing q with
  | nil => cases q <;> rfl
  | cons producer producers ih =>
    cases q with
    | zero => simp [List.countP_cons]
    | succ q =>
      rw [List.modify_succ_cons, List.countP_cons, List.countP_cons, ih]

/-- What an acting call leaves for a topic that has its producer. -/
structure Spared (topicName : String) (p call : Nat) (task : Task M) (s : State M)
    (r : State M × Call M) : Prop where
  listed : r.1.listOfProducers.get topicName = some p
  made : r.1.madeFor topicName = s.madeFor topicName
  still : ∀ q rest, r.2.status ≠ .connecting topicName q rest
  produced : r.1.producedFor topicName = s.producedFor topicName ∨
    (∃ messageProtocol topicConf, task = .produceMessage messageProtocol topicConf ∧
      topicConf.topicName = topicName) ∧
    ∃ e, r.1.producedFor topicName = s.producedFor topicName ++ [e] ∧ e.producer = p ∧
      e.call = call

theorem Acts.spared {call : Nat} {task : Task M} {r : State M × Call M}
    (h : Acts s call task r) (hlisted : s.listOfProducers.get topicName = some p) :
    Spared topicName p call task s r := by
  cases h with
  | sent messageProtocol topicConf q htask hq =>
    refine ⟨hlisted, rfl, fun _ _ hr => (by cases hr), ?_⟩
    unfold State.producedFor
    rw [List.filter_append]
    by_cases htopic : topicConf.topicName = topicName
    · rw [htopic, hlisted] at hq
      right
      refine ⟨⟨messageProtocol, topicConf, htask, htopic⟩, ?_⟩
      rw [List.filter_cons_of_pos (by simpa using htopic), List.filter_nil]
      exact ⟨_, rfl, (Option.some.inj hq).symm, rfl⟩
    · left
      rw [List.filter_cons_of_neg (by simpa using htopic), List.filter_nil, List.append_nil]
  | looped configs htask => exact ⟨hlisted, rfl, fun _ _ hr => (by cases hr), Or.inl rfl⟩
  | rejected => exact ⟨hlisted, rfl, fun _ _ hr => (by cases hr), Or.inl rfl⟩
  | made topicName' rest hnone htopic =>
    have hne : topicName' ≠ topicName := by
      intro he
      subst he
      rw [hlisted] at hnone
      cases hnone
    refine ⟨hlisted, ?_, fun q rest' hr => ?_, Or.inl rfl⟩
    · show (s.producers ++ [_]).countP _ = _
      rw [List.countP_append, List.countP_singleton, if_neg (by simpa using hne)]
      rfl
    · cases hr
      exact hne rfl

/-- A call of another topic goes on. -/
theorem Served.resume {t u : State M} {call : Nat} {task : Task M} {r : State M × Call M}
    (h : Served topicName p s t) (hacts : Acts u call task r)
    (hlisted : u.listOfProducers.get topicName = some p) (hcalls : u.calls = t.calls)
    (hmade : u.madeFor topicName = t.madeFor topicName) (hproduced : u.produced = t.produced)
    (htask : ∀ messageProtocol topicConf, task = .produceMessage messageProtocol topicConf →
      topicConf.topicName ≠ topicName) : Served topicName p s (resume call r) := by
  have hspared := hacts.spared hlisted
  have hset : (State.resume call r).calls = t.calls.set call r.2 := by
    show r.1.calls.set call r.2 = _
    rw [hacts.calls_eq, hcalls]
  refine { settled := ⟨hspared.listed, fun c hc q rest => ?_⟩, length := ?_,
           made := hspared.made.trans (hmade.trans h.made), since := ?_ }
  · rw [hset] at hc
    rcases List.mem_or_eq_of_mem_set hc with hc | rfl
    · exact h.settled.still c hc q rest
    · exact hspared.still q rest
  · rw [hset, List.length_set]
    exact h.length
  · obtain ⟨more, hmore, hvia, hsorted⟩ := h.since
    refine ⟨more, ?_, hvia, hsorted⟩
    rcases hspared.produced with hnone | ⟨⟨messageProtocol, topicConf, he, htopic⟩, -⟩
    · refine Eq.trans ?_ hmore
      refine hnone.trans ?_
      rw [State.producedFor, hproduced]
      rfl
    · exact absurd htopic (htask messageProtocol topicConf he)

theorem Served.begin {t : State M} {task : Task M} {r : State M × Call M}
    (h : Served topicName p s t) (ht : Sound t) (hacts : Acts t t.calls.length task r) :
    Served topicName p s (begin r) := by
  obtain ⟨more, hmore, hvia, hsorted⟩ := h.since
  have hspared := hacts.spared h.settled.listed
  have hcalls : (State.begin r).calls = t.calls ++ [r.2] := congrArg (· ++ _) hacts.calls_eq
  have hlength := h.length
  refine { settled := ⟨hspared.listed, fun c hc q rest => ?_⟩, length := ?_,
           made := hspared.made.trans h.made, since := ?_ }
  · rw [hcalls] at hc
    rcases List.mem_append.mp hc with hc | hc
    · exact h.settled.still c hc q rest
    · rw [List.mem_singleton.mp hc]
      exact hspared.still q rest
  · rw [hcalls, List.length_append]
    omega
  · rcases hspared.produced with hnone | ⟨-, e, he, hep, hecall⟩
    · exact ⟨more, hnone.trans hmore, hvia, hsorted⟩
    · refine ⟨more ++ [e], ?_, ?_, ?_⟩
      · rw [← List.append_assoc, ← hmore]
        exact he
      · intro e' he'
        rcases List.mem_append.mp he' with he' | he'
        · exact hvia e' he'
        · rw [List.mem_singleton.mp he', hecall]
          exact ⟨hep, hlength⟩
      · -- the calls that have sent already began before this one
        refine List.pairwise_append.mpr ⟨hsorted, List.pairwise_singleton _ _, ?_⟩
        intro e₁ he₁ e₂ he₂
        rw [List.mem_singleton.mp he₂, hecall]
        apply ht.known
        have hmem : e₁ ∈ t.producedFor topicName := by
          rw [hmore]
          exact List.mem_append_right _ he₁
        exact (List.mem_filter.mp hmem).1

/-- A step leaves the producer of the topic, and sends the messages of the calls that begin. -/
theorem Served.next {t : State M} (h : Served topicName p s t) (ht : Sound t)
    (heffect : Effect t s') : Served topicName p s s' := by
  have hother : ∀ {call q : Nat} {task : Task M} {topicName' : String} {rest : List String},
      t.calls[call]? = some { task := task, status := .connecting topicName' q rest } →
      topicName ≠ topicName' ∧ ∀ messageProtocol topicConf,
        task = .produceMessage messageProtocol topicConf → topicConf.topicName ≠ topicName := by
    intro call q task topicName' rest hcall
    have hne : topicName ≠ topicName' := by
      intro he
      subst he
      exact h.settled.still _ (List.mem_of_getElem? hcall) q rest rfl
    refine ⟨hne, fun messageProtocol topicConf htask he => ?_⟩
    have htopic := (ht.waits call _ (Option.some_ne_none call) hcall topicName' q rest rfl).2
      messageProtocol topicConf htask
    exact hne (he.symm.trans htopic)
  cases heffect with
  | begins task r hacts => exact h.begin ht hacts
  | connected call task topicName' q rest r hcall hacts =>
    obtain ⟨hne, htask⟩ := hother hcall
    exact h.resume hacts ((KeyValue.get_set_ne _ _ hne).trans h.settled.listed) rfl
      (madeFor_setStatus t q _ topicName) rfl htask
  | refused call task topicName' q rest r hcall hacts =>
    obtain ⟨-, htask⟩ := hother hcall
    exact h.resume hacts h.settled.listed rfl (madeFor_setStatus t q _ topicName) rfl htask
  | disconnected topicName' q hq =>
    exact { settled := { listed := h.settled.listed, still := h.settled.still },
            length := h.length, made := (madeFor_setStatus t q _ topicName).trans h.made,
            since := h.since }
  | idle => exact h

end Listed

/-- Once a topic is in the list and no call is making another producer for it, it keeps the
producer, no other one is made, and the messages go through it in the order in which the calls
begin, whatever else goes on. -/
theorem in_order (isDebugEnabled : Bool) (before after : List (Label M)) (topicName : String)
    (p : Nat) (h : Settled topicName p (run isDebugEnabled before)) :
    Served topicName p (run isDebugEnabled before) (run isDebugEnabled (before ++ after)) := by
  have hrun : run isDebugEnabled (before ++ after) =
      Machine.run (step isDebugEnabled) (run isDebugEnabled before) after :=
    Machine.run_append _ _ _ _
  rw [hrun]
  refine (Machine.run_always (I := fun t => Sound t ∧
    Served topicName p (run isDebugEnabled before) t) ?_ ?_ after).2
  · rintro t label ⟨ht, hserved⟩
    exact ⟨ht.step isDebugEnabled label, hserved.next ht (ht.effect isDebugEnabled label)⟩
  · exact ⟨sound_run isDebugEnabled before, served_refl h⟩

/-- The second message goes through the producer of the first. -/
theorem in_order_sample :
    Served "prepare" 0 (run false (sampleLabels.take 2))
      (run false (sampleLabels.take 2 ++ sampleLabels.drop 2)) := by
  refine in_order false (sampleLabels.take 2) (sampleLabels.drop 2) "prepare" 0 ⟨rfl, ?_⟩
  intro call hcall q rest hstatus
  have hcalls : (run false (sampleLabels.take 2)).calls =
      [{ task := .produceMessage "one" { topicName := "prepare", key := none, partition := none },
         status := .resolved }] := rfl
  rw [hcalls] at hcall
  rw [List.mem_singleton.mp hcall] at hstatus
  cases hstatus

/-! ## Producers that are left behind -/

/-- No two calls are making a producer for the same topic. -/
def Alone (s : State M) : Prop :=
  ∀ (i j : Nat) (call call' : Call M) topicName p p' rest rest', s.calls[i]? = some call →
    s.calls[j]? = some call' → call.status = .connecting topicName p rest →
    call'.status = .connecting topicName p' rest' → i = j

/-- Every producer that has connected is in the list. -/
def Reached (s : State M) : Prop :=
  ∀ (p : Nat) producer, s.producers[p]? = some producer → producer.HasConnected →
    s.listOfProducers.get producer.topicName = some p

/-- A topic for which a call is making a producer is not in the list; a call that is at work
may be beside. -/
def Awaited (hole : Nat → Prop) (s : State M) : Prop :=
  ∀ (i : Nat) (call : Call M) topicName p rest, ¬ hole i → s.calls[i]? = some call →
    call.status = .connecting topicName p rest → s.listOfProducers.get topicName = none

section LeftBehind

variable {s : State M} {i : Nat} {task : Task M} {r : State M × Call M}

theorem Acts.reached (h : Acts s i task r) (hreached : Reached s) : Reached r.1 := by
  cases h with
  | sent messageProtocol topicConf p htask hlisted => exact hreached
  | looped configs htask => exact hreached
  | rejected => exact hreached
  | made topicName rest hnone htopic =>
    intro p producer hp hconnected
    rcases Nat.lt_or_ge p s.producers.length with hlt | hge
    · exact hreached p producer ((List.getElem?_append_left hlt).symm.trans hp) hconnected
    · have hmem := List.mem_of_getElem? ((List.getElem?_append_right hge).symm.trans hp)
      rw [List.mem_singleton.mp hmem] at hconnected
      rcases hconnected with hconnected | hconnected <;> cases hconnected

theorem Acts.list_eq (h : Acts s i task r) : r.1.listOfProducers = s.listOfProducers := by
  cases h <;> rfl

theorem Acts.awaits (h : Acts s i task r) {topicName : String} {p : Nat} {rest : List String}
    (hstatus : r.2.status = .connecting topicName p rest) :
    s.listOfProducers.get topicName = none := by
  cases h with
  | sent messageProtocol topicConf p htask hlisted => cases hstatus
  | looped configs htask => cases hstatus
  | rejected => cases hstatus
  | made topicName rest hnone htopic =>
    cases hstatus
    exact hnone

theorem Acts.awaited_begin (h : Acts s s.calls.length task r)
    (hawaited : Awaited (fun _ => False) s) : Awaited (fun _ => False) (begin r) := by
  intro j call topicName p rest hj hcall hstatus
  show r.1.listOfProducers.get topicName = none
  rw [h.list_eq]
  have hcalls : (begin r).calls = s.calls ++ [r.2] := congrArg (· ++ _) h.calls_eq
  rw [hcalls] at hcall
  rcases Nat.lt_or_ge j s.calls.length with hlt | hge
  · rw [List.getElem?_append_left hlt] at hcall
    exact hawaited j call topicName p rest hj hcall hstatus
  · rw [List.getElem?_append_right hge] at hcall
    rw [List.mem_singleton.mp (List.mem_of_getElem? hcall)] at hstatus
    exact h.awaits hstatus

theorem Acts.awaited_resume (h : Acts s i task r) (hawaited : Awaited (· = i) s) :
    Awaited (fun _ => False) (resume i r) := by
  intro j call topicName p rest hj hcall hstatus
  show r.1.listOfProducers.get topicName = none
  rw [h.list_eq]
  have hcalls : (resume i r).calls = s.calls.set i r.2 := by
    show r.1.calls.set i r.2 = _
    rw [h.calls_eq]
  rw [hcalls] at hcall
  by_cases he : j = i
  · subst he
    rw [List.getElem?_set_self (by
      have hlt := (List.getElem?_eq_some_iff.mp hcall).1
      rwa [List.length_set] at hlt)] at hcall
    rw [← Option.some.inj hcall] at hstatus
    exact h.awaits hstatus
  · rw [List.getElem?_set_ne fun hji => he hji.symm] at hcall
    exact hawaited j call topicName p rest he hcall hstatus

/-- Another status leaves the list as it is. -/
theorem reached_setStatus {p : Nat} {status : ConnectStatus} (h : Reached s)
    (hp : (status = .connected ∨ status = .disconnected) →
      ∀ producer, s.producers[p]? = some producer →
        s.listOfProducers.get producer.topicName = some p) :
    Reached (s.setStatus p status) := by
  intro q producer hq hconnected
  rw [getElem?_setStatus] at hq
  by_cases he : q = p
  · subst he
    rw [if_pos rfl] at hq
    obtain ⟨producer', hq', rfl⟩ := Option.map_eq_some_iff.mp hq
    exact hp hconnected producer' hq'
  · rw [if_neg he] at hq
    exact h q producer hq hconnected

/-- The producer a call has made gets into the list, and none is there for its topic. -/
theorem reached_register {topicName : String} {p : Nat} {rest : List String} (h : Reached s)
    (hs : Sound s) (hawaited : Awaited (fun _ => False) s)
    (hcall : s.calls[i]? = some { task := task, status := .connecting topicName p rest }) :
    Reached (s.register topicName p) := by
  have hnone := hawaited i _ topicName p rest not_false hcall rfl
  obtain ⟨hp, -⟩ := hs.waits i _ (Option.some_ne_none i) hcall topicName p rest rfl
  intro q producer hq hconnected
  have hq' : (s.setStatus p .connected).producers[q]? = some producer := hq
  rw [getElem?_setStatus] at hq'
  by_cases he : q = p
  · subst he
    rw [if_pos rfl, hp] at hq'
    rw [← Option.some.inj hq']
    exact KeyValue.get_set_self _ _ _
  · rw [if_neg he] at hq'
    have hlisted := h q producer hq' hconnected
    have hne : producer.topicName ≠ topicName := by
      intro htopic
      rw [htopic, hnone] at hlisted
      cases hlisted
    exact (KeyValue.get_set_ne _ _ hne).trans hlisted

theorem awaited_register {topicName : String} {p : Nat} {rest : List String} (halone : Alone s)
    (hawaited : Awaited (fun _ => False) s)
    (hcall : s.calls[i]? = some { task := task, status := .connecting topicName p rest }) :
    Awaited (· = i) (s.register topicName p) := by
  intro j call topicName' q rest' hj hc hstatus
  have hne : topicName' ≠ topicName := by
    intro htopic
    subst htopic
    exact hj (halone j i call _ topicName' q p rest' rest hc hcall hstatus rfl)
  exact (KeyValue.get_set_ne _ _ hne).trans
    (hawaited j call topicName' q rest' not_false hc hstatus)

end LeftBehind

/-- As long as no two calls make a producer for the same topic at a time, every producer that has
connected is in the list, and the only one of its topic there is to disconnect. -/
theorem none_left_behind (isDebugEnabled : Bool) (labels : List (Label M))
    (h : Machine.Along (step isDebugEnabled) (fun s label => Alone (step isDebugEnabled s label))
      start labels) : Reached (run isDebugEnabled labels) := by
  refine (Machine.run_invariant (I := fun s => Sound s ∧ Alone s ∧ Reached s ∧
    Awaited (fun _ => False) s) ?_ ?_ h).2.2.1
  · rintro s label ⟨hs, halone, hreached, hawaited⟩ hnext
    refine ⟨hs.step isDebugEnabled label, hnext, ?_⟩
    have heffect := hs.effect isDebugEnabled label
    generalize step isDebugEnabled s label = s' at heffect ⊢
    cases heffect with
    | begins task r hacts => exact ⟨hacts.reached hreached, hacts.awaited_begin hawaited⟩
    | connected call task topicName p rest r hcall hacts =>
      exact ⟨hacts.reached (reached_register hreached hs hawaited hcall),
        hacts.awaited_resume (awaited_register halone hawaited hcall)⟩
    | refused call task topicName p rest r hcall hacts =>
      have hset : Reached (s.setStatus p .refused) :=
        reached_setStatus hreached fun hstatus => by
          rcases hstatus with hstatus | hstatus <;> cases hstatus
      refine ⟨hacts.reached hset, hacts.awaited_resume fun j c topicName' q rest' _ hc hstatus => ?_⟩
      exact hawaited j c topicName' q rest' not_false hc hstatus
    | disconnected topicName p hp =>
      obtain ⟨producer, hproducer, htopic, -⟩ := hs.listed topicName p hp
      refine ⟨reached_setStatus hreached fun _ producer' hproducer' => ?_, hawaited⟩
      obtain rfl := Option.some.inj (hproducer.symm.trans hproducer')
      rw [htopic]
      exact hp
    | idle => exact ⟨hreached, hawaited⟩
  · refine ⟨sound_start, ?_, ?_, ?_⟩
    · intro i j call call' topicName p p' rest rest' hcall
      cases hcall
    · intro p producer hp
      cases hp
    · intro i call topicName p rest _ hcall
      cases hcall

/-- The topic a call is making a producer for. -/
def Call.connecting (call : Call M) : Option String :=
  match call.status with
  | .connecting topicName _ _ => some topicName
  | _ => none

theorem alone_of_nodup {s : State M} (h : (s.calls.filterMap Call.connecting).Nodup) : Alone s := by
  rw [List.Nodup, List.pairwise_filterMap, List.pairwise_iff_getElem] at h
  intro i j call call' topicName p p' rest rest' hi hj hstatus hstatus'
  obtain ⟨hi', rfl⟩ := List.getElem?_eq_some_iff.mp hi
  obtain ⟨hj', rfl⟩ := List.getElem?_eq_some_iff.mp hj
  have hfirst : s.calls[i].connecting = some topicName := by rw [Call.connecting, hstatus]
  have hsecond : s.calls[j].connecting = some topicName := by rw [Call.connecting, hstatus']
  rcases Nat.lt_trichotomy i j with hlt | heq | hlt
  · exact absurd rfl (h i j hi' hj' hlt topicName hfirst topicName hsecond)
  · exact heq
  · exact absurd rfl (h j i hj' hi' hlt topicName hsecond topicName hfirst)

/-- `connectAll` and three messages: one whose producer is refused in the meantime, one that is
sent, and one for which the producer is disconnected. -/
def aloneLabels : List (Label String) :=
  [.connectAll ["prepare", "fulfil"],
    .produceMessage "one" { topicName := "notify", key := none, partition := none } true,
    .connected 0 true, .refused 1,
    .produceMessage "two" { topicName := "prepare", key := none, partition := none } true,
    .connected 0 true, .disconnect "prepare",
    .produceMessage "three" { topicName := "prepare", key := none, partition := none } false]

theorem none_left_behind_sample : Reached (run false aloneLabels) :=
  none_left_behind false aloneLabels
    ⟨alone_of_nodup (by decide), alone_of_nodup (by decide), alone_of_nodup (by decide),
      alone_of_nodup (by decide), alone_of_nodup (by decide), alone_of_nodup (by decide),
      alone_of_nodup (by decide), alone_of_nodup (by decide), trivial⟩

example : (run false aloneLabels).producers.map (·.status) =
    [.disconnected, .refused, .connected] := by
  decide

/-- Two calls at a time. -/
def overlappingLabels : List (Label String) :=
  [.produceMessage "one" { topicName := "prepare", key := none, partition := none } true,
    .produceMessage "two" { topicName := "prepare", key := none, partition := none } true,
    .connected 0 true, .connected 1 true]

/-- The producer of the first has sent its message, and is not in the list. -/
example : (run false overlappingLabels).produced.map (·.producer) = [0, 1] ∧
    (run false overlappingLabels).listOfProducers.get "prepare" = some 1 := by
  decide

end Producers
end CentralServicesStream
end PocArchitecture
