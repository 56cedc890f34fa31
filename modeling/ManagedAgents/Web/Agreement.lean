import Mathlib.Data.List.Infix
import Mathlib.Tactic.Lemma
import ManagedAgents.Web.Steps

/-!
What the client of a streamed run sees, against the canonical history.

The client's list is the fold of the events it was written. Every agent message of a task that was
read is in it after the pass that read the task, unless a snapshot that was to replace preview text
could not be read while the task had something new to show; and a run finishes only after a
snapshot that was read after the task was found finished.
-/

namespace ManagedAgents.Web

open ManagedAgents.Lib ManagedAgents.Preview

/-! ### The client's list -/

/-- Extend the last message of this id. -/
def appendTo (id : MessageId) (delta : Units) : List Message → List Message
  | [] => []
  | m :: rest =>
    if m.id = id ∧ ∀ r ∈ rest, r.id ≠ id then { m with content := m.content ++ delta } :: rest
    else m :: appendTo id delta rest

/-- The client's list after one more event. -/
def draw (messages : List Message) : BaseEvent → List Message
  | .messagesSnapshot snapshot => snapshot
  | .textMessageStart id => messages ++ [{ id, role := .assistant, content := [] }]
  | .textMessageContent id delta => appendTo id delta messages
  | _ => messages

def Entry.draw (messages : List Message) : Entry → List Message
  | .wrote event => Web.draw messages event
  | _ => messages

/-- The fold of all events written so far. -/
def shown (log : List Entry) : List Message := log.foldl Entry.draw []

/-- The text of a canonical assistant message. -/
def spoken (id : String) (content : Units) : Message :=
  { id := .canonical id, role := .assistant, content }

lemma appendTo_last {id : MessageId} {delta : Units} {messages : List Message} {m : Message}
    (hm : m.id = id) :
    appendTo id delta (messages ++ [m]) =
      messages ++ [{ m with content := m.content ++ delta }] := by
  induction messages with
  | nil => simp [appendTo, hm]
  | cons a rest ih =>
    have hlast : ¬ (a.id = id ∧ ∀ r ∈ rest ++ [m], r.id ≠ id) := by
      rintro ⟨-, hr⟩
      exact hr m (by simp) hm
    rw [List.cons_append, appendTo, if_neg hlast, ih, List.cons_append]

lemma mem_appendTo {id : MessageId} {delta : Units} {messages : List Message} {m : Message}
    (hm : m ∈ messages) (hid : m.id ≠ id) : m ∈ appendTo id delta messages := by
  induction messages with
  | nil => simp at hm
  | cons a rest ih =>
    unfold appendTo
    rcases List.mem_cons.mp hm with rfl | hm
    · simp [hid]
    · split
      · simp [hm]
      · simp [ih hm]

@[simp] lemma shown_append (log more : List Entry) :
    shown (log ++ more) = more.foldl Entry.draw (shown log) := by
  simp [shown, List.foldl_append]

/-- Entries that take nothing canonical from the client's list. -/
def Entry.gentle : Entry → Bool
  | .wrote (.messagesSnapshot _) | .wrote (.textMessageContent (.canonical _) _) => false
  | _ => true

lemma mem_draw {e : Entry} {messages : List Message} {id : String} {content : Units}
    (he : e.gentle) (hm : spoken id content ∈ messages) : spoken id content ∈ e.draw messages := by
  cases e with
  | wrote event =>
    cases event with
    | messagesSnapshot => simp [Entry.gentle] at he
    | textMessageStart => simp [Entry.draw, draw, hm]
    | textMessageContent id' delta =>
      have hid : (spoken id content).id ≠ id' := by
        rintro rfl
        simp [Entry.gentle, spoken] at he
      exact mem_appendTo hm hid
    | _ => exact hm
  | _ => exact hm

/-! ### The canonical record -/

def Entry.tasks : Entry → List Task
  | .got task => [task]
  | .listed tasks => tasks
  | _ => []

def agentMessages (task : Task) : List A2AMessage := task.history.filter (·.role == .agent)

/-- A listing holds every task read before it, with its agent messages and perhaps more. -/
def Entry.Kept (earlier later : Entry) : Prop :=
  ∀ tasks, later = .listed tasks → ∀ task ∈ earlier.tasks, ∃ task' ∈ tasks,
    task'.id = task.id ∧ agentMessages task <+: agentMessages task'

/-- The reads of a run are canonical: an id names one message, of the agent or not, and agent
messages are only appended. -/
structure Canonical (record : String → Option Units) (log : List Entry) : Prop where
  named : ∀ entry ∈ log, ∀ task ∈ entry.tasks, ∀ m ∈ task.history,
    record m.messageId = if m.role = .agent then some (text m) else none
  kept : log.Pairwise Entry.Kept

/-- The agent said this, and it was read. -/
def Read (record : String → Option Units) (log : List Entry) (id : String) : Prop :=
  ∀ content, record id = some content →
    ∃ entry ∈ log, ∃ task ∈ entry.tasks, ∃ m ∈ agentMessages task, m.messageId = id

/-- The client sees what the agent said under this id. -/
def Shown (record : String → Option Units) (log : List Entry) (id : String) : Prop :=
  ∀ content, record id = some content → content ≠ [] → spoken id content ∈ shown log

variable {record : String → Option Units} {log more : List Entry} {id : String} {task : Task}
  {tasks : List Task} {messages : List Message} {m : A2AMessage}

lemma Canonical.left (h : Canonical record (log ++ more)) : Canonical record log where
  named entry hentry := h.named entry (by simp [hentry])
  kept := (List.pairwise_append.mp h.kept).1

lemma Canonical.earlier (h : Canonical record log) {before : List Entry} (hlog : before <+: log) :
    Canonical record before := by
  obtain ⟨more, rfl⟩ := hlog
  exact h.left

lemma Read.mono (h : Read record log id) : Read record (log ++ more) id := by
  intro content hcontent
  obtain ⟨entry, hentry, hrest⟩ := h content hcontent
  exact ⟨entry, by simp [hentry], hrest⟩

lemma Canonical.agent (h : Canonical record log) {entry : Entry} (hentry : entry ∈ log)
    (htask : task ∈ entry.tasks) (hm : m ∈ task.history) (hrole : m.role = .agent) :
    record m.messageId = some (text m) := by
  rw [h.named entry hentry task htask m hm, if_pos hrole]

/-- What was read of a task is read, as far as the agent said it. -/
lemma Canonical.read (h : Canonical record log) {entry : Entry} (hentry : entry ∈ log)
    (htask : task ∈ entry.tasks) (hm : m ∈ task.history) : Read record log m.messageId := by
  intro content hcontent
  rw [h.named entry hentry task htask m hm] at hcontent
  by_cases hrole : m.role = .agent
  · exact ⟨entry, hentry, task, htask, m, by simp [agentMessages, hm, hrole], rfl⟩
  · simp [hrole] at hcontent

/-! ### Snapshots -/

lemma addMessage_keeps {x : Message} (hx : x ∈ messages) : x ∈ addMessage messages m := by
  unfold addMessage
  split
  · split
    · exact hx
    · simp [hx]
  · exact hx

lemma foldl_addMessage_keeps {x : Message} {ms : List A2AMessage} (hx : x ∈ messages) :
    x ∈ ms.foldl addMessage messages := by
  induction ms generalizing messages with
  | nil => exact hx
  | cons a rest ih => exact ih (addMessage_keeps hx)

lemma message_agent (hrole : m.role = .agent) : message m = some (spoken m.messageId (text m)) := by
  simp [message, hrole, spoken]

/-- Every message of a snapshot comes from one that was read. -/
lemma mem_addMessage {x : Message} (hx : x ∈ addMessage messages m) :
    x ∈ messages ∨ message m = some x := by
  unfold addMessage at hx
  split at hx
  · split at hx
    · exact .inl hx
    · rename_i converted hconverted _
      rcases List.mem_append.mp hx with hx | hx
      · exact .inl hx
      · rw [List.mem_singleton.mp hx]
        exact .inr hconverted
  · exact .inl hx

/-- An agent message is in the history, under the one text its id stands for. -/
lemma mem_foldl_addMessage (record : String → Option Units) {ms : List A2AMessage} (hm : m ∈ ms)
    (hrole : m.role = .agent)
    (hnamed : ∀ a ∈ ms, record a.messageId = if a.role = .agent then some (text a) else none)
    (hmessages : ∀ x ∈ messages, x.id = .canonical m.messageId → x = spoken m.messageId (text m)) :
    spoken m.messageId (text m) ∈ ms.foldl addMessage messages := by
  induction ms generalizing messages with
  | nil => simp at hm
  | cons a rest ih =>
    have hsame : ∀ x, message a = some x → x.id = .canonical m.messageId →
        x = spoken m.messageId (text m) := by
      intro x hx hid
      have hmn := hnamed m hm
      have han := hnamed a (by simp)
      cases harole : a.role with
      | unspecified => simp [message, harole] at hx
      | user =>
        simp only [message, harole, Option.some.injEq] at hx
        subst hx
        simp only [MessageId.canonical.injEq] at hid
        rw [hid, hmn] at han
        simp [hrole, harole] at han
      | agent =>
        rw [message_agent harole, Option.some.injEq] at hx
        subst hx
        simp only [spoken, MessageId.canonical.injEq] at hid
        rw [hid, hmn, if_pos hrole, if_pos harole, Option.some.injEq] at han
        simp [spoken, hid, han]
    rcases List.mem_cons.mp hm with rfl | hm
    · rw [List.foldl_cons]
      refine foldl_addMessage_keeps ?_
      unfold addMessage
      simp only [message_agent hrole]
      split
      · rename_i hany
        obtain ⟨x, hx, hid⟩ := List.any_eq_true.mp hany
        have heq := hmessages x hx (by simpa [spoken] using hid)
        exact heq ▸ hx
      · simp
    · refine ih hm (fun b hb => hnamed b (by simp [hb])) fun x hx hid => ?_
      rcases mem_addMessage hx with hx | hx
      · exact hmessages x hx hid
      · exact hsame x hx hid

lemma mem_foldl_cases {x : Message} {ms : List A2AMessage} (hx : x ∈ ms.foldl addMessage messages) :
    x ∈ messages ∨ ∃ a ∈ ms, message a = some x := by
  induction ms generalizing messages with
  | nil => exact .inl hx
  | cons a rest ih =>
    rcases ih hx with hx | ⟨b, hb, hx⟩
    · rcases mem_addMessage hx with hx | hx
      · exact .inl hx
      · exact .inr ⟨a, by simp, hx⟩
    · exact .inr ⟨b, by simp [hb], hx⟩

lemma pendingMessage_id {pending : Option Message} (h : pendingMessage task = some pending) :
    ∀ m ∈ pending.toList, m.id = .pending task.id := by
  simp only [pendingMessage, Option.bind_eq_bind, Option.bind_eq_some_iff] at h
  obtain ⟨items, -, h⟩ := h
  split at h <;> cases h <;> simp

lemma history_eq (h : history tasks = some messages) :
    ∃ pending, messages = (tasks.flatMap (·.history)).foldl addMessage [] ++ pending ∧
      ∀ m ∈ pending, ∃ taskId, m.id = .pending taskId := by
  unfold history at h
  split at h
  · cases h
    exact ⟨[], by simp⟩
  · simp only [Option.bind_eq_bind, Option.bind_eq_some_iff] at h
    obtain ⟨pending, hpending, heq⟩ := h
    cases heq
    exact ⟨_, rfl, fun m hm => ⟨_, pendingMessage_id hpending m hm⟩⟩

/-- A canonical message of the history is one of a task. -/
lemma mem_history {x : Message} (h : history tasks = some messages) (hx : x ∈ messages)
    (hid : x.id = .canonical id) : ∃ task ∈ tasks, ∃ m ∈ task.history, message m = some x := by
  obtain ⟨pending, rfl, hpending⟩ := history_eq h
  rcases List.mem_append.mp hx with hx | hx
  · rcases mem_foldl_cases hx with hx | ⟨m, hm, hx⟩
    · simp at hx
    · obtain ⟨task, htask, hm⟩ := List.mem_flatMap.mp hm
      exact ⟨task, htask, m, hm, hx⟩
  · obtain ⟨taskId, hpending⟩ := hpending x hx
    rw [hpending] at hid
    cases hid

/-- A snapshot read after a task shows what the agent said in it. -/
lemma Canonical.snapshot {o : StreamOptions} {waiting : Bool}
    (h : Canonical record (log ++ [.listed tasks])) (hread : Read record log id)
    (hmessages : history tasks = some messages) :
    Shown record (log ++
      [.listed tasks, .wrote (.messagesSnapshot (Stream.replacement o waiting messages))]) id := by
  intro content hcontent hne
  obtain ⟨entry, hentry, task, htask, m, hm, rfl⟩ := hread content hcontent
  have hkept := (List.pairwise_append.mp h.kept).2.2 entry hentry _ (List.mem_singleton.mpr rfl)
  obtain ⟨task', htask', -, hprefix⟩ := hkept tasks rfl task htask
  have hm' := hprefix.subset hm
  simp only [agentMessages, List.mem_filter, beq_iff_eq] at hm'
  obtain ⟨hm', hrole⟩ := hm'
  have hlisted : Entry.listed tasks ∈ log ++ [.listed tasks] := by simp
  have hcontent' := h.agent hlisted htask' hm' hrole
  rw [hcontent, Option.some.injEq] at hcontent'
  subst hcontent'
  obtain ⟨pending, rfl, -⟩ := history_eq hmessages
  have hspoken : spoken m.messageId (text m) ∈ (tasks.flatMap (·.history)).foldl addMessage [] := by
    refine mem_foldl_addMessage record (List.mem_flatMap.mpr ⟨task', htask', hm'⟩) hrole
      (fun a ha => ?_) (by simp)
    obtain ⟨t, ht, ha⟩ := List.mem_flatMap.mp ha
    exact h.named _ hlisted t ht a ha
  have hmem : spoken m.messageId (text m) ∈ Stream.replacement o waiting
      ((tasks.flatMap (·.history)).foldl addMessage [] ++ pending) := by
    refine List.mem_filter.mpr ⟨List.mem_append_left _ hspoken, ?_⟩
    simp [spoken]
  simpa [Entry.draw, Web.draw] using hmem

/-! ### What a pass keeps -/

/-- Entries that do not finish the run. -/
def Entry.running : Entry → Bool
  | .wrote (.runFinished _ _ _) => false
  | _ => true

/-- The later log adds entries that do not finish the run. -/
def Stream.Adds (s s' : Stream) : Prop :=
  ∃ more, s'.log = s.log ++ more ∧ ∀ e ∈ more, e.running = true

/-- The later state has read, sent and shown at least as much. -/
structure Stream.Keeps (s s' : Stream) : Prop where
  log : s.log <+: s'.log
  spoken : ∀ id content, spoken id content ∈ shown s.log → spoken id content ∈ shown s'.log
  seen : s'.seen = s.seen
  key : s'.canonicalKey = s.canonicalKey

namespace Stream

variable {o : StreamOptions} {s s' s'' : Stream}

lemma Adds.refl : s.Adds s := ⟨[], by simp⟩

lemma Adds.trans (h : s.Adds s') (h' : s'.Adds s'') : s.Adds s'' := by
  obtain ⟨more, hlog, hmore⟩ := h
  obtain ⟨more', hlog', hmore'⟩ := h'
  refine ⟨more ++ more', by simp [hlog, hlog'], fun e he => ?_⟩
  rcases List.mem_append.mp he with he | he
  · exact hmore e he
  · exact hmore' e he

lemma Adds.grows (h : s.Adds s') : s.log <+: s'.log := by
  obtain ⟨more, hlog, -⟩ := h
  exact ⟨more, hlog.symm⟩

lemma Adds.of_log (h : s'.log = s.log) : s.Adds s' := ⟨[], by simp [h]⟩

lemma adds_note {e : Entry} (he : e.running) : s.Adds (s.note e) := ⟨[e], rfl, by simpa using he⟩

lemma adds_foldl {α : Type} {f : Stream → α → Stream} {items : List α}
    (hf : ∀ s : Stream, ∀ a ∈ items, s.Adds (f s a)) : s.Adds (items.foldl f s) := by
  induction items generalizing s with
  | nil => exact .refl
  | cons a rest ih =>
    have hfirst := hf s a (by simp)
    exact hfirst.trans (ih fun s b hb => hf s b (by simp [hb]))

lemma Keeps.refl : s.Keeps s := ⟨List.prefix_rfl, fun _ _ h => h, rfl, rfl⟩

lemma Keeps.trans (h : s.Keeps s') (h' : s'.Keeps s'') : s.Keeps s'' where
  log := h.log.trans h'.log
  spoken id content hm := h'.spoken id content (h.spoken id content hm)
  seen := h'.seen.trans h.seen
  key := h'.key.trans h.key

lemma Keeps.of_log (hlog : s'.log = s.log) (hseen : s'.seen = s.seen)
    (hkey : s'.canonicalKey = s.canonicalKey) : s.Keeps s' :=
  ⟨by rw [hlog], fun _ _ h => by rwa [hlog], hseen, hkey⟩

lemma keeps_note {e : Entry} (he : e.gentle) : s.Keeps (s.note e) where
  log := ⟨[e], rfl⟩
  spoken id content hm := by simpa [note] using mem_draw he hm
  seen := rfl
  key := rfl

lemma keeps_foldl {α : Type} {f : Stream → α → Stream} {items : List α}
    (hf : ∀ s : Stream, ∀ a ∈ items, s.Keeps (f s a)) : s.Keeps (items.foldl f s) := by
  induction items generalizing s with
  | nil => exact .refl
  | cons a rest ih =>
    have hfirst := hf s a (by simp)
    exact hfirst.trans (ih fun s b hb => hf s b (by simp [hb]))

lemma mem_drawn {p : Frame} {update : Update} {e : BaseEvent} (he : e ∈ drawn p update) :
    (Entry.wrote e).gentle = true ∧ (Entry.wrote e).running = true := by
  simp only [drawn, List.mem_append, List.mem_ite_nil_right, List.mem_singleton] at he
  rcases he with (⟨-, rfl⟩ | ⟨-, rfl⟩) | ⟨-, rfl⟩ <;> exact ⟨rfl, rfl⟩

lemma keeps_writeAll {events : List BaseEvent} (h : ∀ e ∈ events, (Entry.wrote e).gentle) :
    s.Keeps (s.writeAll events) := keeps_foldl fun _ e he => keeps_note (h e he)

lemma adds_writeAll {events : List BaseEvent} (h : ∀ e ∈ events, (Entry.wrote e).running) :
    s.Adds (s.writeAll events) := adds_foldl fun _ e he => adds_note (h e he)

lemma keeps_preview {p : Frame} : s.Keeps (s.preview p) := by
  obtain ⟨s₁, events, heq, hlog, hseen, hkey, -, hevents⟩ := preview_cases (s := s) (p := p)
  have hfirst : s.Keeps s₁ :=
    (keeps_note (e := .took p) rfl).trans (.of_log (by simp [note, hlog]) hseen hkey)
  rw [heq]
  refine hfirst.trans (keeps_writeAll fun e he => ?_)
  rcases hevents with ⟨-, rfl⟩ | ⟨update, -, rfl⟩
  · simp at he
  · exact (mem_drawn he).1

lemma adds_preview {p : Frame} : s.Adds (s.preview p) := by
  obtain ⟨s₁, events, heq, hlog, -, -, -, hevents⟩ := preview_cases (s := s) (p := p)
  have hfirst : s.Adds s₁ := ⟨[.took p], hlog, by simp [Entry.running]⟩
  rw [heq]
  refine hfirst.trans (adds_writeAll fun e he => ?_)
  rcases hevents with ⟨-, rfl⟩ | ⟨update, -, rfl⟩
  · simp at he
  · exact (mem_drawn he).2

lemma keeps_pass {i : Iteration} : s.Keeps (s.pass i) := by
  have hframes : s.Keeps (i.frames.foldl preview s) := keeps_foldl fun _ _ _ => keeps_preview
  rcases pass_cases (s := s) (i := i) with h | h | h <;> rw [h]
  · exact .refl
  · exact hframes
  · exact hframes.trans (keeps_note rfl)

lemma adds_pass {i : Iteration} : s.Adds (s.pass i) := by
  have hframes : s.Adds (i.frames.foldl preview s) := adds_foldl fun _ _ _ => adds_preview
  rcases pass_cases (s := s) (i := i) with h | h | h <;> rw [h]
  · exact .refl
  · exact hframes
  · exact hframes.trans (adds_note rfl)

/-- A message that is new to the client is shown whole. -/
lemma shown_emit (hrole : m.role = .agent) (hseen : .canonical m.messageId ∉ s.seen)
    (htext : text m ≠ []) :
    shown (s.emit m).log = shown s.log ++ [spoken m.messageId (text m)] := by
  have hnew :
      (m.role == .agent && !s.seen.contains (.canonical m.messageId) && text m != []) = true := by
    simp [hrole, hseen, htext]
  simp only [emit, hnew, if_true, writeAll, List.foldl_cons, List.foldl_nil, write, note]
  simp only [List.append_assoc, shown_append, List.cons_append, List.nil_append, List.foldl_cons,
    List.foldl_nil, Entry.draw, Web.draw]
  refine (appendTo_last (m := { id := .canonical m.messageId, role := .assistant, content := [] })
    rfl).trans ?_
  simp [spoken]

lemma adds_emit : s.Adds (s.emit m) := by
  rcases emit_cases (s := s) (m := m) with heq | ⟨-, -, -, heq⟩ <;> rw [heq]
  · exact .refl
  · exact adds_writeAll (by simp [Entry.running])

lemma keeps_emit : s.Keeps (s.emit m) := by
  rcases emit_cases (s := s) (m := m) with heq | ⟨hrole, hseen, hne, heq⟩
  · rw [heq]
    exact .refl
  · refine ⟨adds_emit.grows, fun id content hm => ?_, by rw [heq]; rfl, by rw [heq]; rfl⟩
    simp [shown_emit hrole hseen hne, hm]

/-- Every message of the agent that is new is shown after the loop over the history. -/
lemma shown_emits {ms : List A2AMessage} (hm : m ∈ ms) (hrole : m.role = .agent)
    (hseen : .canonical m.messageId ∉ s.seen) (htext : text m ≠ []) :
    spoken m.messageId (text m) ∈ shown (ms.foldl emit s).log := by
  induction ms generalizing s with
  | nil => simp at hm
  | cons a rest ih =>
    have hrest : (s.emit a).Keeps (rest.foldl emit (s.emit a)) :=
      keeps_foldl fun _ _ _ => keeps_emit
    rw [List.foldl_cons]
    rcases List.mem_cons.mp hm with rfl | hm
    · exact hrest.spoken _ _ (by simp [shown_emit hrole hseen htext])
    · exact ih hm (by rwa [keeps_emit.seen])

/-! ### Agreement -/

/-- What was sent, and what the last key stands for, the client sees. -/
structure Agrees (record : String → Option Units) (s : Stream) : Prop where
  seen : ∀ id, .canonical id ∈ s.seen → Shown record s.log id ∧ Read record s.log id
  keyed : ∀ key, s.canonicalKey = some key → isOver key.state = false →
    ∀ p ∈ key.messages, Shown record s.log p.1

/-- The client sees what the agent said in a task. -/
def Visible (record : String → Option Units) (log : List Entry) (task : Task) : Prop :=
  ∀ m ∈ task.history, Shown record log m.messageId

lemma Keeps.shown (h : s.Keeps s') (hid : Shown record s.log id) : Shown record s'.log id :=
  fun content hcontent hne => h.spoken id content (hid content hcontent hne)

lemma Keeps.read (h : s.Keeps s') (hid : Read record s.log id) : Read record s'.log id := by
  obtain ⟨more, hmore⟩ := h.log
  exact hmore ▸ hid.mono

lemma Agrees.keep (h : Agrees record s) (hkeeps : s.Keeps s') : Agrees record s' where
  seen id hid := by
    have hseen := h.seen id (hkeeps.seen ▸ hid)
    exact ⟨hkeeps.shown hseen.1, hkeeps.read hseen.2⟩
  keyed key hkey hover p hp := hkeeps.shown (h.keyed key (hkeeps.key ▸ hkey) hover p hp)

/-- The events that finish a run leave the list alone. -/
lemma finish_gentle {threadId runId : String} {events : List BaseEvent}
    (h : finish task threadId runId = some (some events)) :
    ∀ e ∈ events, (Entry.wrote e).gentle := by
  unfold finish at h
  cases hstate : task.state? with
  | none =>
    rw [hstate] at h
    cases h
  | some state =>
    rw [hstate] at h
    cases state with
    | inputRequired =>
      simp only [Option.bind_eq_bind, Option.bind_eq_some_iff] at h
      obtain ⟨pending, -, h⟩ := h
      intro e he
      split at h
      · cases h
        rw [List.mem_singleton.mp he]
        rfl
      · cases h
        rcases List.mem_append.mp he with he | he
        · obtain ⟨call, -, he⟩ := List.mem_flatMap.mp he
          simp only [ToolCall.events, List.mem_cons, List.not_mem_nil, or_false] at he
          rcases he with rfl | rfl | rfl <;> rfl
        · rw [List.mem_singleton.mp he]
          rfl
    | _ =>
      cases h <;> simp [Entry.gentle]

/-- With the messages of a task sent or shown before, the client sees the task. -/
lemma Agrees.see (h : ∀ id, .canonical id ∈ s.seen → Shown record s.log id ∧ Read record s.log id)
    (hvisible : Visible record s.log task)
    (hread : ∀ m ∈ task.history, Read record s.log m.messageId)
    (hkey : ∀ key, s.canonicalKey = some key → isOver key.state = false →
      ∀ p ∈ key.messages, ∃ m ∈ task.history, m.messageId = p.1) : Agrees record (s.see task) where
  seen id hid := by
    simp only [Stream.see, List.mem_append, List.mem_map] at hid
    rcases hid with hid | ⟨m, hm, heq⟩
    · exact h id hid
    · cases heq
      exact ⟨hvisible m hm, hread m hm⟩
  keyed key hsome hover p hp := by
    obtain ⟨m, hm, heq⟩ := hkey key hsome hover p hp
    exact heq ▸ hvisible m hm

lemma mem_key {ids : List CodePoints} {p : String × Units}
    (hp : p ∈ (Web.canonicalKey task ids).messages) : ∃ m ∈ task.history, m.messageId = p.1 := by
  simp only [Web.canonicalKey, List.mem_map] at hp
  obtain ⟨m, hm, rfl⟩ := hp
  exact ⟨m, hm, rfl⟩

/-- After the loop over the history the client sees the task. -/
lemma visible_emits (hcanon : Canonical record s.log) (hgot : .got task ∈ s.log)
    (hs : ∀ id, .canonical id ∈ s.seen → Shown record s.log id ∧ Read record s.log id) :
    Visible record (task.history.foldl emit s).log task := by
  intro m hm content hcontent hne
  have hnamed := hcanon.named _ hgot task (by simp [Entry.tasks]) m hm
  have hkeeps : s.Keeps (task.history.foldl emit s) := keeps_foldl fun _ _ _ => keeps_emit
  by_cases hrole : m.role = .agent
  · rw [if_pos hrole, hcontent, Option.some.injEq] at hnamed
    subst hnamed
    by_cases hseen : .canonical m.messageId ∈ s.seen
    · exact hkeeps.spoken _ _ ((hs _ hseen).1 _ hcontent hne)
    · exact shown_emits hm hrole hseen hne
  · rw [if_neg hrole, hcontent] at hnamed
    cases hnamed

/-- The block that brings the client up to date keeps the agreement, and shows the task. -/
lemma present_agrees (ids : List CodePoints) {waiting ended : Bool}
    {read : Except Failure (List Task)} (hs : Agrees record s) (hgot : .got task ∈ s.log)
    (hcanon : Canonical record
      (s.present o task (Web.canonicalKey task ids) waiting ended read).1.log)
    (hover : isOver task.state? = ended)
    (hlost : s.provisional = true → ended = false →
      s.canonicalKey ≠ some (Web.canonicalKey task ids) → Unread read →
      Visible record s.log task) :
    Agrees record (s.present o task (Web.canonicalKey task ids) waiting ended read).1 ∧
    ((s.present o task (Web.canonicalKey task ids) waiting ended read).2 = .completed →
      Visible record (s.present o task (Web.canonicalKey task ids) waiting ended read).1.log
        task) := by
  have hread : ∀ {log}, .got task ∈ log → Canonical record log →
      ∀ m ∈ task.history, Read record log m.messageId :=
    fun hgot hcanon m hm => hcanon.read hgot (by simp [Entry.tasks]) hm
  unfold present at hcanon ⊢
  by_cases hsame : s.canonicalKey = some (Web.canonicalKey task ids) ∧ ended = false
  · obtain ⟨hkey, rfl⟩ := hsame
    simp only [hkey, bne_self_eq_false, Bool.or_self, Bool.false_eq_true, if_false] at hcanon ⊢
    refine ⟨hs, fun _ m hm => ?_⟩
    exact hs.keyed _ hkey hover (m.messageId, text m)
      (List.mem_map.mpr ⟨m, hm, rfl⟩)
  · have hchanged : (s.canonicalKey != some (Web.canonicalKey task ids) || ended) = true := by
      cases ended <;> simp_all
    simp only [hchanged, if_true] at hcanon ⊢
    by_cases hreplace : (s.provisional || ended) = true
    · simp only [hreplace, if_true] at hcanon ⊢
      rcases replace_cases o { s with
        canonicalKey := some (Web.canonicalKey task ids)
        provisional := false } waiting read
        with ⟨tasks, messages, -, hmessages, heq⟩ | ⟨hunread, s', e, heq, hs'⟩
      · -- the snapshot shows everything that was read before it
        simp only [heq] at hcanon ⊢
        have hlog : ((Stream.note { s with
            canonicalKey := some (Web.canonicalKey task ids)
            provisional := false } (.listed tasks)).snapshot
              (replacement o waiting messages)).log =
            s.log ++ [.listed tasks,
              .wrote (.messagesSnapshot (replacement o waiting messages))] := by
          simp [snapshot, note, write]
        have hcanon' : Canonical record (s.log ++ [.listed tasks,
            .wrote (.messagesSnapshot (replacement o waiting messages))]) := hlog ▸ hcanon
        have hsnapshot : ∀ id, Read record s.log id → Shown record (s.log ++ [.listed tasks,
            .wrote (.messagesSnapshot (replacement o waiting messages))]) id := by
          intro id hid
          exact Canonical.snapshot (hcanon'.earlier ⟨[_], (List.append_assoc _ [_] [_])⟩) hid
            hmessages
        have hbefore : Canonical record s.log := hcanon'.left
        have hvisible : Visible record (s.log ++ [.listed tasks,
            .wrote (.messagesSnapshot (replacement o waiting messages))]) task :=
          fun m hm => hsnapshot _ (hread hgot hbefore m hm)
        refine ⟨Agrees.see (fun id hid => ?_) (hlog ▸ hvisible) (fun m hm => ?_) ?_,
          fun _ => hlog ▸ hvisible⟩
        · have hold := (hs.seen id hid).2
          exact ⟨hlog ▸ hsnapshot id hold, hlog ▸ hold.mono⟩
        · exact hlog ▸ (hread hgot hbefore m hm).mono
        · intro key hkey hrest p hp
          cases hkey
          exact mem_key hp
      · -- nothing is replaced, so what the key stands for has to be visible already
        simp only [heq]
        refine ⟨?_, fun h => by simp at h⟩
        have hkeeps : Keeps { s with
            canonicalKey := some (Web.canonicalKey task ids)
            provisional := false } s' := by
          rcases hs' with rfl | ⟨tasks, rfl⟩
          · exact .refl
          · exact keeps_note rfl
        refine Agrees.keep ?_ hkeeps
        refine ⟨hs.seen, fun key hkey hrest p hp => ?_⟩
        cases hkey
        obtain rfl : ended = false := hover.symm.trans hrest
        have hprovisional : s.provisional = true := by simpa using hreplace
        obtain ⟨m, hm, heq⟩ := mem_key hp
        have hnew : s.canonicalKey ≠ some (Web.canonicalKey task ids) := fun h => hsame ⟨h, rfl⟩
        exact heq ▸ hlost hprovisional rfl hnew hunread m hm
    · simp only [hreplace, Bool.false_eq_true, if_false] at hcanon ⊢
      have hkeeps : Keeps { s with canonicalKey := some (Web.canonicalKey task ids) }
          (task.history.foldl emit { s with
            canonicalKey := some (Web.canonicalKey task ids) }) :=
        keeps_foldl fun _ _ _ => keeps_emit
      have hbefore : Canonical record s.log := hcanon.earlier hkeeps.log
      have hvisible := visible_emits (s := { s with
        canonicalKey := some (Web.canonicalKey task ids) }) hbefore hgot hs.seen
      refine ⟨Agrees.see (fun id hid => ?_) hvisible (fun m hm => ?_) ?_, fun _ => hvisible⟩
      · have hold := hs.seen id (hkeeps.seen ▸ hid)
        exact ⟨hkeeps.shown hold.1, hkeeps.read hold.2⟩
      · exact hkeeps.read (hread hgot hbefore m hm)
      · intro key hkey hrest p hp
        rw [hkeeps.key] at hkey
        cases hkey
        exact mem_key hp

/-! ### Runs -/

lemma adds_reconnect : s.Adds s.reconnect :=
  let s₁ : Stream := s.snapshot s.lastCanonical
  have hsnapshot : s.Adds s₁ := adds_note (s := { s with lastCanonical := s.lastCanonical }) rfl
  hsnapshot.trans (adds_note rfl)

lemma adds_leave {expired : Bool} : s.Adds (s.leave expired) := by
  unfold leave
  split
  · exact adds_reconnect
  · exact .of_log rfl

lemma adds_failed {e : Failure} : s.Adds (s.failed e) := by
  cases e with
  | aborted expired => exact adds_leave
  | transient =>
    unfold failed
    dsimp only
    split
    · exact adds_reconnect (s := { s with failures := s.failures + 1 })
    · exact .of_log rfl

lemma adds_replace (o : StreamOptions) (s : Stream) (waiting : Bool)
    (read : Except Failure (List Task)) :
    s.Adds (replace o s waiting read).1 := by
  rcases replace_cases o s waiting read with
    ⟨tasks, messages, -, -, heq⟩ | ⟨-, s', e, heq, rfl | ⟨tasks, rfl⟩⟩ <;> rw [heq]
  · exact (adds_note rfl).trans (adds_note rfl)
  · exact .refl
  · exact adds_note rfl

lemma adds_present (o : StreamOptions) (s : Stream) (task : Task) (key : CanonicalKey)
    (waiting ended : Bool) (read : Except Failure (List Task)) :
    s.Adds (s.present o task key waiting ended read).1 := by
  unfold present
  split
  · dsimp only
    split
    · have hadds := adds_replace o { s with canonicalKey := some key, provisional := false }
        waiting read
      cases hreplace : replace o { s with canonicalKey := some key, provisional := false } waiting
          read with
      | mk s' outcome =>
        rw [hreplace] at hadds
        cases outcome <;> exact hadds
    · have hemits : Adds { s with canonicalKey := some key }
          (task.history.foldl emit { s with canonicalKey := some key }) :=
        adds_foldl fun _ _ _ => adds_emit
      exact hemits
  · exact .refl

lemma grows_writeAll (s : Stream) (events : List BaseEvent) :
    s.log <+: (s.writeAll events).log := by
  induction events generalizing s with
  | nil => exact List.prefix_rfl
  | cons e rest ih =>
    have hfirst : s.log <+: (s.write e).log := ⟨[.wrote e], rfl⟩
    exact hfirst.trans (ih _)

lemma grows_conclude {terminal : Option (List BaseEvent)} {late : Bool}
    {result : Stream × Outcome} :
    result.1.log <+: (conclude terminal late result).1.log := by
  obtain ⟨s', outcome⟩ := result
  cases outcome with
  | completed =>
    cases terminal with
    | some events => exact grows_writeAll _ _
    | none =>
      unfold conclude
      dsimp only
      split
      · exact adds_reconnect.grows
      · exact List.prefix_rfl
  | _ => exact List.prefix_rfl

lemma grows_follow {r : Reads} : s.log <+: (follow o s task r).1.log := by
  rcases follow_cases o s task r with
    ⟨s₁, hlog, -, -, -, heq⟩ |
      ⟨pending, terminal, s₁, -, -, -, -, hlog, -, -, -, -, waiting, -, -, heq⟩
  · rw [heq, hlog]
  · rw [heq, ← hlog]
    exact (adds_present ..).grows.trans grows_conclude

/-- A task that was read is in the log. -/
lemma got_mem {r : Reads} (htask : r.task = .ok task) :
    .got task ∈ (canonicalRead o s r).1.log := by
  simp only [canonicalRead, htask]
  exact grows_follow.subset (by simp [note])

lemma grows_canonicalRead {r : Reads} : s.log <+: (canonicalRead o s r).1.log := by
  unfold canonicalRead
  cases r.task with
  | error e => exact List.prefix_rfl
  | ok task =>
    have hgot : s.log <+: (Stream.note { s with failures := 0 } (.got task)).log :=
      ⟨[.got task], rfl⟩
    exact hgot.trans grows_follow

lemma grows_readStep {r : Reads} : s.log <+: (s.readStep o r).log := by
  have hgrows := grows_canonicalRead (o := o) (s := s) (r := r)
  unfold readStep
  cases hread : canonicalRead o s r with
  | mk s' outcome =>
    rw [hread] at hgrows
    cases outcome with
    | threw e => exact hgrows.trans adds_failed.grows
    | _ => exact hgrows

lemma grows_iterate {i : Iteration} : s.log <+: (iterate o s i).log := by
  unfold iterate
  split
  · exact List.prefix_rfl
  · cases i.aborted with
    | some expired => exact adds_leave.grows
    | none =>
      dsimp only
      split
      · exact adds_reconnect.grows
      · cases i.reads with
        | none => exact keeps_pass.log
        | some r => exact grows_readStep.trans keeps_pass.log

/-- The read that was to replace preview text failed while the task had something new to show. -/
def Loses (s : Stream) (r : Reads) : Prop :=
  ∃ task pending, r.task = .ok task ∧ interrupts task = some pending ∧
    isOver task.state? = false ∧ s.provisional = true ∧
    s.canonicalKey ≠ some (Web.canonicalKey task (pending.map (·.id))) ∧ Unread r.history ∧
    ∃ m ∈ task.history, m.role = .agent ∧ text m ≠ [] ∧ .canonical m.messageId ∉ s.seen

lemma visible_of_seen (hs : Agrees record s) (hcanon : Canonical record log)
    (hgot : .got task ∈ log)
    (hseen : ∀ m ∈ task.history, m.role = .agent → text m ≠ [] → .canonical m.messageId ∈ s.seen) :
    Visible record s.log task := by
  intro m hm content hcontent hne
  have hnamed := hcanon.named _ hgot task (by simp [Entry.tasks]) m hm
  by_cases hrole : m.role = .agent
  · rw [if_pos hrole, hcontent, Option.some.injEq] at hnamed
    subst hnamed
    exact (hs.seen _ (hseen m hm hrole hne)).1 _ hcontent hne
  · rw [if_neg hrole, hcontent] at hnamed
    cases hnamed

/-- A canonical read keeps the agreement, and shows the task unless it throws. -/
lemma canonicalRead_agrees (hresume : o.resumedIds = []) {r : Reads} (hs : Agrees record s)
    (hcanon : Canonical record (canonicalRead o s r).1.log) (hloses : ¬ s.Loses r) :
    Agrees record (canonicalRead o s r).1 ∧
    ∀ task, r.task = .ok task → (∀ e, (canonicalRead o s r).2 ≠ .threw e) →
      Visible record (canonicalRead o s r).1.log task := by
  unfold canonicalRead at hcanon ⊢
  cases htask : r.task with
  | error e => exact ⟨hs, fun _ h => by cases h⟩
  | ok task =>
    rw [htask] at hcanon
    dsimp only at hcanon ⊢
    have hgot : Entry.got task ∈ (Stream.note { s with failures := 0 } (.got task)).log := by
      simp [note]
    have hkept : s.Keeps (Stream.note { s with failures := 0 } (.got task)) :=
      let h := keeps_note (s := { s with failures := 0 }) (e := .got task) rfl
      ⟨h.log, h.spoken, h.seen, h.key⟩
    have hs' := hs.keep hkept
    rcases follow_cases o (Stream.note { s with failures := 0 } (.got task)) task r with
      ⟨s₁, hlog, hseen, hkey, -, heq⟩ |
      ⟨pending, terminal, s₁, hpending, hover, -, hfinish, hlog, hseen, hkey, hprovisional, -,
        waiting, hwaiting, -, heq⟩
    · rw [heq]
      have hkeeps : Keeps (Stream.note { s with failures := 0 } (.got task)) s₁ :=
        .of_log hlog hseen hkey
      exact ⟨hs'.keep hkeeps, fun _ _ h => absurd rfl (h .transient)⟩
    · obtain rfl := hwaiting hresume
      rw [heq] at hcanon ⊢
      have hkeeps : Keeps (Stream.note { s with failures := 0 } (.got task)) s₁ :=
        .of_log hlog hseen hkey
      have hs₁ := hs'.keep hkeeps
      have hcanon₁ := hcanon.earlier grows_conclude
      have hbefore := hcanon₁.earlier (adds_present ..).grows
      obtain ⟨hagrees, hvisible⟩ := present_agrees (pending.map (·.id)) hs₁ (hlog ▸ hgot)
        hcanon₁ (hover hresume).symm fun hprov hrest hnew hunread => by
          refine visible_of_seen hs₁ hbefore (hlog ▸ hgot) fun m hm hrole hne => ?_
          by_contra hunseen
          refine hloses ⟨task, pending, htask, hpending, (hover hresume) ▸ hrest,
            hprovisional ▸ hprov, hkey ▸ hnew, hunread, m, hm, hrole, hne, hseen ▸ hunseen⟩
      cases hpresent : s₁.present o task (Web.canonicalKey task (pending.map (·.id))) false
          terminal.isSome r.history with
      | mk s₂ outcome =>
        rw [hpresent] at hagrees hvisible
        cases outcome with
        | completed =>
          have hvisible := hvisible rfl
          cases terminal with
          | none =>
            refine ⟨hagrees, fun task' htask' _ => ?_⟩
            cases htask'
            exact hvisible
          | some events =>
            have hwrites : s₂.Keeps (s₂.writeAll events).done :=
              let h := keeps_writeAll (s := s₂) (finish_gentle (hfinish events rfl))
              ⟨h.log, h.spoken, h.seen, h.key⟩
            refine ⟨hagrees.keep hwrites, fun task' htask' _ => ?_⟩
            cases htask'
            exact fun m hm => hwrites.shown (hvisible m hm)
        | threw e => exact ⟨hagrees, fun _ _ h => absurd rfl (h e)⟩
        | returned => exact absurd (congrArg Prod.snd hpresent) present_goes_on

lemma readStep_grows {r : Reads} : (canonicalRead o s r).1.log <+: (s.readStep o r).log := by
  unfold readStep
  cases canonicalRead o s r with
  | mk s' outcome =>
    cases outcome with
    | threw e => exact adds_failed.grows
    | _ => exact List.prefix_rfl

/-- A pass that loses nothing keeps the agreement, until the run is over. -/
lemma iterate_agrees (hresume : o.resumedIds = []) {i : Iteration} (hs : Agrees record s)
    (hcanon : Canonical record (iterate o s i).log)
    (hloses : ∀ r, s.Reading i r → ¬ s.Loses r) :
    Agrees record (iterate o s i) ∨ (iterate o s i).returned = true := by
  by_cases hreturned : s.returned = true
  · exact .inr (by simp [iterate, hreturned])
  simp only [Bool.not_eq_true] at hreturned
  cases haborted : i.aborted with
  | some expired =>
    refine .inr ?_
    cases expired <;> simp [iterate, hreturned, haborted, leave, done, reconnect]
  | none =>
    cases hdeadline : i.deadline with
    | true => exact .inr (by simp [iterate, hreturned, haborted, hdeadline, done, reconnect])
    | false =>
      cases hreads : i.reads with
      | none =>
        have heq : iterate o s i = s.pass i := by
          simp [iterate, hreturned, haborted, hdeadline, hreads]
        exact .inl (heq ▸ hs.keep keeps_pass)
      | some r =>
        have hreading : s.Reading i r := ⟨hreturned, haborted, hdeadline, hreads⟩
        rw [hreading.iterate_eq] at hcanon ⊢
        have hcanon' := hcanon.earlier (readStep_grows.trans keeps_pass.log)
        have hagrees := (canonicalRead_agrees hresume hs hcanon' (hloses r hreading)).1
        have hstep : Agrees record (s.readStep o r) ∨ (s.readStep o r).returned = true := by
          unfold readStep
          cases hread : canonicalRead o s r with
          | mk s' outcome =>
            rw [hread] at hagrees
            cases outcome with
            | threw e =>
              cases e with
              | aborted expired =>
                refine .inr ?_
                cases expired <;> simp [failed, leave, done, reconnect]
              | transient =>
                by_cases hfive : s'.failures + 1 ≥ 5
                · exact .inr (by simp [failed, hfive, done, reconnect])
                · have heq : s'.failed .transient = { s' with failures := s'.failures + 1 } := by
                    simp [failed, hfive]
                  dsimp only
                  rw [heq]
                  exact .inl (hagrees.keep (.of_log rfl rfl rfl))
            | _ => exact .inl hagrees
        rcases hstep with hstep | hstep
        · exact .inl (hstep.keep keeps_pass)
        · exact .inr (by simp [pass, hstep])

lemma run_grows {initial : Except Failure (List Task)} {before after : List Iteration} :
    (run o initial before).log <+: (run o initial (before ++ after)).log := by
  induction after using List.reverseRecOn with
  | nil => simp
  | append_singleton after i ih =>
    rw [← List.append_assoc, run_snoc]
    exact ih.trans grows_iterate

/-- The initial snapshot shows what it counts as sent. -/
lemma begin_agrees {initial : Except Failure (List Task)}
    (hcanon : Canonical record (begin o initial).log) :
    Agrees record (begin o initial) ∨ (begin o initial).returned = true := by
  unfold begin at hcanon ⊢
  cases initial with
  | error e => exact .inr rfl
  | ok tasks =>
    dsimp only at hcanon ⊢
    cases hhistory : history tasks with
    | none => exact .inr rfl
    | some messages =>
      rw [hhistory] at hcanon
      refine .inl ⟨fun id hid => ?_, fun key hkey => by cases hkey⟩
      obtain ⟨x, hx, hxid⟩ := List.mem_map.mp hid
      obtain ⟨hx, hassistant⟩ := List.mem_filter.mp hx
      obtain ⟨task, htask, m, hm, hconverted⟩ := mem_history hhistory (List.mem_filter.mp hx).1 hxid
      have hlisted : Entry.listed tasks ∈ ((Stream.note (Stream.write {} (.runStarted o.threadId
          o.runId)) (.listed tasks)).snapshot
            (replacement o (!o.resumedIds.isEmpty) messages)).log := by
        simp [snapshot, write, note]
      have hrole : m.role = .agent := by
        cases hrole : m.role with
        | agent => rfl
        | _ =>
          simp only [message, hrole, Option.some.injEq, reduceCtorEq] at hconverted
          all_goals (subst hconverted; simp at hassistant)
      rw [message_agent hrole, Option.some.injEq] at hconverted
      subst hconverted
      cases hxid
      refine ⟨fun content hcontent _ => ?_, hcanon.read hlisted htask hm⟩
      have hnamed := hcanon.agent hlisted htask hm hrole
      rw [hcontent, Option.some.injEq] at hnamed
      subst hnamed
      simpa [snapshot, write, note, shown, Entry.draw, draw] using hx

lemma run_agrees (hresume : o.resumedIds = []) {initial : Except Failure (List Task)}
    {its : List Iteration} (hcanon : Canonical record (run o initial its).log)
    (hloses : ∀ before i after r, its = before ++ i :: after → (run o initial before).Reading i r →
      ¬ (run o initial before).Loses r) (before after : List Iteration)
    (hits : its = before ++ after) :
    Agrees record (run o initial before) ∨ (run o initial before).returned = true := by
  induction before using List.reverseRecOn generalizing after with
  | nil =>
    have hgrows : (run o initial []).log <+: (run o initial its).log := hits ▸ run_grows
    exact begin_agrees (hcanon.earlier hgrows)
  | append_singleton before i ih =>
    have hgrows : (run o initial (before ++ [i])).log <+: (run o initial its).log :=
      hits ▸ run_grows
    have hbefore := hcanon.earlier hgrows
    rw [List.append_assoc] at hits
    rw [run_snoc] at hbefore ⊢
    rcases ih _ hits with hs | hreturned
    · exact iterate_agrees hresume hs hbefore fun r hr => hloses before i after r hits hr
    · exact .inr (by simp [iterate, hreturned])

/-- The canonical read of a pass completes. -/
def Completes (o : StreamOptions) (s : Stream) (r : Reads) : Prop :=
  ∀ e, (canonicalRead o s r).2 ≠ .threw e

/-- After every pass whose canonical read completes, the client's list holds every agent message
with text of the task that was read. -/
def ShowsHistory (o : StreamOptions) (initial : Except Failure (List Task)) (its : List Iteration) :
    Prop :=
  ∀ before i after r task, its = before ++ i :: after → (run o initial before).Reading i r →
    Completes o (run o initial before) r → r.task = .ok task →
    ∀ m ∈ task.history, m.role = .agent → text m ≠ [] →
      spoken m.messageId (text m) ∈ shown (run o initial (before ++ [i])).log

/-- A run that loses nothing shows the history. -/
lemma run_shows (hresume : o.resumedIds = []) {initial : Except Failure (List Task)}
    {its : List Iteration} (hcanon : Canonical record (run o initial its).log)
    (hloses : ∀ before i after r, its = before ++ i :: after → (run o initial before).Reading i r →
      ¬ (run o initial before).Loses r) : ShowsHistory o initial its := by
  intro before i after r task hits hreading hcompletes htask m hm hrole hne
  have hgrows : (run o initial (before ++ [i])).log <+: (run o initial its).log := by
    rw [hits, show before ++ i :: after = before ++ [i] ++ after by simp]
    exact run_grows
  have hcanon' := hcanon.earlier hgrows
  rw [run_snoc, hreading.iterate_eq] at hcanon' ⊢
  have hread := hcanon'.earlier (readStep_grows.trans keeps_pass.log)
  have hagrees : Agrees record (run o initial before) := by
    rcases run_agrees hresume hcanon hloses before (i :: after) hits with hs | hreturned
    · exact hs
    · rw [hreading.1] at hreturned
      cases hreturned
  have hvisible := (canonicalRead_agrees hresume hagrees hread
    (hloses before i after r hits hreading)).2 task htask hcompletes
  have hstep : (run o initial before).readStep o r =
    (canonicalRead o (run o initial before) r).1 := by
    unfold readStep
    cases hread : canonicalRead o (run o initial before) r with
    | mk s' outcome =>
      cases outcome with
      | threw e => exact absurd (congrArg Prod.snd hread) (hcompletes e)
      | _ => rfl
  rw [hstep] at hcanon' ⊢
  exact keeps_pass.spoken _ _ (hvisible m hm _ (hread.agent (got_mem htask) (by simp [Entry.tasks])
    hm hrole) hne)

/-! ### How a run finishes -/

/-- The last task that was read is over, and a snapshot was read and sent after it. -/
def Settled (log : List Entry) : Prop :=
  ∃ before task tasks messages after, log = before ++
      .got task :: .listed tasks :: .wrote (.messagesSnapshot messages) :: after ∧
    isOver task.state? = true ∧ history tasks = some messages

/-- Runs finish after such a snapshot only. -/
def FinishesSettled (log : List Entry) : Prop :=
  ∀ before after threadId runId outcome,
    log = before ++ .wrote (.runFinished threadId runId outcome) :: after → Settled before

lemma Settled.append (h : Settled log) : Settled (log ++ more) := by
  obtain ⟨before, task, tasks, messages, after, rfl, hover, hmessages⟩ := h
  exact ⟨before, task, tasks, messages, after ++ more, by simp, hover, hmessages⟩

lemma FinishesSettled.append (h : FinishesSettled log)
    (hmore : Settled log ∨ ∀ e ∈ more, e.running = true) : FinishesSettled (log ++ more) := by
  intro before after threadId runId outcome heq
  rcases List.append_eq_append_iff.mp heq with ⟨rest, hbefore, hmore'⟩ | ⟨rest, hlog, hrest⟩
  · rcases hmore with hsettled | hrunning
    · exact hbefore ▸ hsettled.append
    · have := hrunning (.wrote (.runFinished threadId runId outcome)) (by simp [hmore'])
      simp [Entry.running] at this
  · cases rest with
    | nil =>
      simp only [List.append_nil] at hlog
      rcases hmore with hsettled | hrunning
      · exact hlog ▸ hsettled
      · rw [List.nil_append] at hrest
        have := hrunning (.wrote (.runFinished threadId runId outcome)) (by rw [← hrest]; simp)
        simp [Entry.running] at this
    | cons e rest =>
      simp only [List.cons_append, List.cons.injEq] at hrest
      obtain ⟨rfl, -⟩ := hrest
      exact h before rest threadId runId outcome hlog

lemma Adds.finishes (h : s.Adds s') (hs : FinishesSettled s.log) : FinishesSettled s'.log := by
  obtain ⟨more, hlog, hmore⟩ := h
  exact hlog ▸ hs.append (.inr hmore)

/-- Once a task is found over, its last block ends with a snapshot. -/
lemma present_settled (o : StreamOptions) {before : List Entry} (key : CanonicalKey)
    (read : Except Failure (List Task)) (hlog : s.log = before ++ [.got task])
    (hover : isOver task.state? = true)
    (hdone : (s.present o task key false true read).2 = .completed) :
    Settled (s.present o task key false true read).1.log := by
  unfold present at hdone ⊢
  simp only [Bool.or_true, if_true] at hdone ⊢
  rcases replace_cases o { s with canonicalKey := some key, provisional := false } false read
    with ⟨tasks, messages, -, hmessages, heq⟩ | ⟨-, s', e, heq, -⟩
  · have hall : replacement o false messages = messages := by simp [replacement]
    simp only [heq, hall]
    exact ⟨before, task, tasks, messages, [], by simp [see, snapshot, write, note, hlog], hover,
      hmessages⟩
  · simp [heq] at hdone

lemma canonicalRead_finishes {r : Reads} (hs : FinishesSettled s.log) :
    FinishesSettled (canonicalRead o s r).1.log := by
  unfold canonicalRead
  cases r.task with
  | error e => exact hs
  | ok task =>
    have hgot : s.Adds (Stream.note { s with failures := 0 } (.got task)) :=
      ⟨[.got task], rfl, by simp [Entry.running]⟩
    have hs' := hgot.finishes hs
    dsimp only
    rcases follow_cases o (Stream.note { s with failures := 0 } (.got task)) task r with
      ⟨s₁, hlog, -, -, -, heq⟩ |
      ⟨pending, terminal, s₁, -, -, hover, -, hlog, -, -, -, -, waiting, -, hwaiting, heq⟩
    · rw [heq, hlog]
      exact hs'
    · rw [heq]
      rw [← hlog] at hs'
      have hpresent := (adds_present o s₁ task (Web.canonicalKey task (pending.map (·.id))) waiting
        terminal.isSome r.history).finishes hs'
      have hsettled := fun h : terminal.isSome = true =>
        present_settled o (Web.canonicalKey task (pending.map (·.id))) r.history hlog (hover h)
      cases hresult : s₁.present o task (Web.canonicalKey task (pending.map (·.id))) waiting
          terminal.isSome r.history with
      | mk s₂ outcome =>
        rw [hresult] at hpresent
        cases outcome with
        | completed =>
          cases terminal with
          | some events =>
            obtain rfl := hwaiting rfl
            have hsettled := hsettled rfl
            rw [Option.isSome_some] at hresult
            rw [hresult] at hsettled
            obtain ⟨more, hmore⟩ := grows_writeAll s₂ events
            have hwrites : ((s₂.writeAll events).done).log = s₂.log ++ more := hmore.symm
            exact hwrites ▸ hpresent.append (.inl (hsettled rfl))
          | none =>
            unfold conclude
            dsimp only
            split
            · exact adds_reconnect.finishes hpresent
            · exact hpresent
        | _ => exact hpresent

lemma iterate_finishes {i : Iteration} (hs : FinishesSettled s.log) :
    FinishesSettled (iterate o s i).log := by
  unfold iterate
  split
  · exact hs
  · cases i.aborted with
    | some expired => exact adds_leave.finishes hs
    | none =>
      dsimp only
      split
      · exact adds_reconnect.finishes hs
      · cases i.reads with
        | none => exact adds_pass.finishes hs
        | some r =>
          have hread := canonicalRead_finishes (o := o) (r := r) hs
          refine adds_pass.finishes ?_
          unfold readStep
          cases hresult : canonicalRead o s r with
          | mk s' outcome =>
            rw [hresult] at hread
            cases outcome with
            | threw e => exact adds_failed.finishes hread
            | _ => exact hread

lemma adds_begin {initial : Except Failure (List Task)} : Adds {} (begin o initial) := by
  have hstarted : Adds {} (Stream.write {} (.runStarted o.threadId o.runId)) := adds_note rfl
  unfold begin
  refine hstarted.trans ?_
  cases initial with
  | error e => exact .of_log rfl
  | ok tasks =>
    have hlisted := adds_note (s := Stream.write {} (.runStarted o.threadId o.runId))
      (e := .listed tasks) rfl
    refine hlisted.trans ?_
    dsimp only
    cases history tasks with
    | none => exact .of_log rfl
    | some messages => exact ⟨[_], rfl, by simp [Entry.running]⟩

lemma run_finishes {initial : Except Failure (List Task)} {its : List Iteration} :
    FinishesSettled (run o initial its).log := by
  induction its using List.reverseRecOn with
  | nil =>
    refine (adds_begin (o := o)).finishes fun before after _ _ _ h => ?_
    simp at h
  | append_singleton its i ih =>
    rw [run_snoc]
    exact iterate_finishes ih

/-! ### The main result -/

/-- **Agreement.** In a run that loses nothing the client sees the canonical history, and the run
finishes only after a snapshot that was read once its task was found over. -/
theorem agrees_with_history (hresume : o.resumedIds = []) {initial : Except Failure (List Task)}
    {its : List Iteration} (hcanon : Canonical record (run o initial its).log)
    (hloses : ∀ before i after r, its = before ++ i :: after → (run o initial before).Reading i r →
      ¬ (run o initial before).Loses r) :
    ShowsHistory o initial its ∧ FinishesSettled (run o initial its).log :=
  ⟨run_shows hresume hcanon hloses, run_finishes⟩

/-! ### Two runs -/

def answered (state : TaskState) (history : List A2AMessage) : Task :=
  { id := "task", status := some { state }, history }

def hello : A2AMessage :=
  { messageId := "answer", role := .agent, parts := [.text (ascii "hello")] }

def helloRecord (id : String) : Option Units :=
  if id = "answer" then some (ascii "hello") else none

def options : StreamOptions := { threadId := "thread", taskId := "task", runId := "run" }

/-- A preview begins, and the next canonical read finds the answer. -/
def previewed (history : Except Failure (List Task)) (state : TaskState) : List Iteration :=
  [{ frames := [{ previewId := ascii "p", offset := 0, type := .start }] },
    { reads := some { task := .ok (answered .working [hello]), history } },
    { reads := some { task := .ok (answered state [hello]), history } }]

/-- The answer replaces the preview, and the run finishes. -/
theorem agrees_with_history_previewed :
    ShowsHistory options (.ok [answered .working []])
      (previewed (.ok [answered .completed [hello]]) .completed) ∧
    FinishesSettled (run options (.ok [answered .working []])
      (previewed (.ok [answered .completed [hello]]) .completed)).log := by
  have hcanon : Canonical helloRecord (run options (.ok [answered .working []])
      (previewed (.ok [answered .completed [hello]]) .completed)).log := by
    refine ⟨by decide, ?_⟩
    change List.Pairwise Entry.Kept [.wrote _, .listed [answered .working []], .wrote _, .took _,
      .wrote _, .got (answered .working [hello]), .listed [answered .completed [hello]], .wrote _,
      .got (answered .completed [hello]), .listed [answered .completed [hello]], .wrote _, .wrote _]
    simp [Entry.Kept, Entry.tasks, agentMessages, answered, hello]
  refine agrees_with_history rfl hcanon ?_
  · rintro before i after r hits ⟨-, -, -, hreads⟩ ⟨-, -, -, -, -, -, -, hunread, -⟩
    have hi : i ∈ previewed (.ok [answered .completed [hello]]) .completed := hits ▸ by simp
    have hhistory : r.history = .ok [answered .completed [hello]] := by
      simp only [previewed, List.mem_cons, List.not_mem_nil, or_false] at hi
      rcases hi with rfl | rfl | rfl <;> cases hreads <;> rfl
    have hread : (history [answered .completed [hello]]).isSome = true := rfl
    rw [hunread _ hhistory] at hread
    cases hread

/-- The snapshot that was to replace the preview fails, and the next read finds nothing new. -/
theorem lost_message_hidden :
    Canonical helloRecord
      (run options (.ok [answered .working []]) (previewed (.error .transient) .working)).log ∧
    ¬ ShowsHistory options (.ok [answered .working []])
      (previewed (.error .transient) .working) := by
  refine ⟨⟨?_, ?_⟩, fun h => ?_⟩
  · decide
  · change List.Pairwise Entry.Kept [.wrote _, .listed [answered .working []], .wrote _, .took _,
      .wrote _, .got (answered .working [hello]), .got (answered .working [hello])]
    simp [Entry.Kept, Entry.tasks]
  · have := h (previewed (.error .transient) .working |>.take 2) _ [] _ _ rfl
      ⟨rfl, rfl, rfl, rfl⟩ (fun e h => by cases h) rfl hello (by simp [answered]) rfl (by decide)
    have hids := List.mem_map_of_mem (f := (·.id)) this
    revert hids
    decide

end Stream

end ManagedAgents.Web
