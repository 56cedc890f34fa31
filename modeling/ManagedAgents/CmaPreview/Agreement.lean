import ManagedAgents.CmaPreview.Frames

/-!
The observer and the consumers agree on the frames, as long as no pending text outgrows a frame.

While the observer is not aborted, what it published and what is queued are together all it ever had
to send: of each message a story, the start, the deltas of the accepted text up to what is pending,
and the end once the message is over. What was published is a beginning of that, and nothing is
published once the observer is aborted.
-/

namespace ManagedAgents.CmaPreview

open ManagedAgents.Lib
open ManagedAgents.Preview (FrameType maxPreviewBytes)

variable {hint : Hint} {m : Message} {text : Units}

/-! ### What is published -/

def framesOf (id : Units) (frames : List Preview) : List Preview :=
  frames.filter fun p => p.previewId = id

def Observer.idOf (o : Observer) (eventId : Units) : Option HexDigest :=
  (o.messages.get? eventId).map Message.id

/-- The published frames are accepted; each is one of a message, whose frames are in order and carry
a beginning of the accepted text, all of it when the end is among them. -/
structure Agrees (hint : Hint) (published : List Preview) (accepted : Units → Units)
    (idOf : Units → Option HexDigest) : Prop where
  parsed : ∀ p ∈ published, parsePreview p hint.taskId = some p
  named : ∀ p ∈ published, ∃ e id, idOf e = some id ∧ p.previewId = id.1
  orderly : ∀ id, Orderly (framesOf id published)
  content : ∀ e id, idOf e = some id →
    (framesOf id.1 published).flatMap Preview.content <+: accepted e
  whole : ∀ e id, idOf e = some id → (∃ p ∈ framesOf id.1 published, p.type = .end) →
    (framesOf id.1 published).flatMap Preview.content = accepted e

/-- While the observer is not aborted: what was published and what is queued tells every message. -/
structure Live (hint : Hint) (published : List Preview) (accepted : Units → Units) (o : Observer) :
    Prop where
  bytes : o.bytes ≤ maxPreviewBytes
  ids : ∀ e m e' m', o.messages.get? e = some m → o.messages.get? e' = some m' →
    m.id.1 = m'.id.1 → e = e'
  owned : ∀ p ∈ published ++ o.queue, ∃ e m, o.messages.get? e = some m ∧ p.previewId = m.id.1
  told : ∀ e m, o.messages.get? e = some m →
    Told hint m (framesOf m.id.1 (published ++ o.queue)) (accepted e)
  parsed : ∀ p ∈ published ++ o.queue, parsePreview p hint.taskId = some p
  fits : ∀ e m, o.messages.get? e = some m → m.pending ≠ [] →
    byteLength (deltaFrame hint m).stringify ≤ maxFrameBytes
  emptied : ∀ e m, o.messages.get? e = some m → m.ended = true → m.pending = []
  weighed : ∀ e m, o.messages.get? e = some m → (accepted e).length ≤ o.bytes
  silent : ∀ e, o.messages.get? e = none → accepted e = []

variable {published : List Preview} {accepted accepted' : Units → Units} {o o' : Observer}
  {eventId : Units}

lemma framesOf_append (id : Units) (frames more : List Preview) :
    framesOf id (frames ++ more) = framesOf id frames ++ framesOf id more :=
  List.filter_append frames more

lemma framesOf_own {id : Units} {frames : List Preview} (h : ∀ p ∈ frames, p.previewId = id) :
    framesOf id frames = frames :=
  List.filter_eq_self.mpr fun p hp => by simp [h p hp]

lemma framesOf_other {id : Units} {frames : List Preview} (h : ∀ p ∈ frames, p.previewId ≠ id) :
    framesOf id frames = [] :=
  List.filter_eq_nil_iff.mpr fun p hp => by simp [h p hp]

/-- One message changes, and sends some frames. -/
lemma Live.change (m' : Message) (frames : List Preview) (h : Live hint published accepted o)
    (hm : o.messages.get? eventId = some m) (hid : m'.id = m.id)
    (hget : ∀ e, o'.messages.get? e = if e = eventId then some m' else o.messages.get? e)
    (hqueue : o'.queue = o.queue ++ frames)
    (hframes : ∀ p ∈ frames, p.previewId = m.id.1 ∧ parsePreview p hint.taskId = some p)
    (hle : o.bytes ≤ o'.bytes) (hbytes : o'.bytes ≤ maxPreviewBytes)
    (haccepted : ∀ e, e ≠ eventId → accepted' e = accepted e)
    (htold : Told hint m' (framesOf m.id.1 (published ++ o.queue) ++ frames) (accepted' eventId))
    (hfits : m'.pending ≠ [] → byteLength (deltaFrame hint m').stringify ≤ maxFrameBytes)
    (hover : m'.ended = true → m'.pending = [])
    (hweighed : (accepted' eventId).length ≤ o'.bytes) : Live hint published accepted' o' := by
  have hsplit : ∀ {e m₁}, o'.messages.get? e = some m₁ →
      e = eventId ∧ m₁ = m' ∨ e ≠ eventId ∧ o.messages.get? e = some m₁ := by
    intro e m₁ he
    rw [hget] at he
    split at he
    · exact .inl ⟨by assumption, (Option.some.inj he).symm⟩
    · exact .inr ⟨by assumption, he⟩
  have hold : ∀ {e m₁}, o'.messages.get? e = some m₁ →
      ∃ m₀, o.messages.get? e = some m₀ ∧ m₀.id = m₁.id := by
    intro e m₁ he
    rcases hsplit he with ⟨rfl, rfl⟩ | ⟨-, he⟩
    · exact ⟨m, hm, hid.symm⟩
    · exact ⟨m₁, he, rfl⟩
  have hall : published ++ o'.queue = (published ++ o.queue) ++ frames := by
    rw [hqueue, List.append_assoc]
  refine ⟨hbytes, ?_, ?_, ?_, ?_, ?_, ?_, ?_, ?_⟩
  · intro e m₁ e' m₂ he he' heq
    obtain ⟨m₁', hm₁, hid₁⟩ := hold he
    obtain ⟨m₂', hm₂, hid₂⟩ := hold he'
    exact h.ids e m₁' e' m₂' hm₁ hm₂ (by rw [hid₁, hid₂, heq])
  · intro p hp
    rw [hall] at hp
    rcases List.mem_append.mp hp with hp | hp
    · obtain ⟨e, m₁, he, hpid⟩ := h.owned p hp
      by_cases heq : e = eventId
      · subst heq
        rw [hm, Option.some.injEq] at he
        exact ⟨e, m', by rw [hget, if_pos rfl], by rw [hpid, ← he, hid]⟩
      · exact ⟨e, m₁, by rw [hget, if_neg heq, he], hpid⟩
    · exact ⟨eventId, m', by rw [hget, if_pos rfl], by rw [(hframes p hp).1, hid]⟩
  · intro e m₁ he
    rw [hall, framesOf_append]
    rcases hsplit he with ⟨rfl, rfl⟩ | ⟨hne, he⟩
    · rw [hid, framesOf_own fun p hp => (hframes p hp).1]
      exact htold
    · have hother : framesOf m₁.id.1 frames = [] := framesOf_other fun p hp heq =>
        hne (h.ids e m₁ eventId m he hm (by rw [← heq, (hframes p hp).1]))
      rw [hother, List.append_nil, haccepted e hne]
      exact h.told e m₁ he
  · intro p hp
    rw [hall] at hp
    rcases List.mem_append.mp hp with hp | hp
    · exact h.parsed p hp
    · exact (hframes p hp).2
  · intro e m₁ he
    rcases hsplit he with ⟨rfl, rfl⟩ | ⟨-, he⟩
    · exact hfits
    · exact h.fits e m₁ he
  · intro e m₁ he
    rcases hsplit he with ⟨rfl, rfl⟩ | ⟨-, he⟩
    · exact hover
    · exact h.emptied e m₁ he
  · intro e m₁ he
    rcases hsplit he with ⟨rfl, rfl⟩ | ⟨hne, he⟩
    · exact hweighed
    · rw [haccepted e hne]
      exact Nat.le_trans (h.weighed e m₁ he) hle
  · intro e he
    rw [hget] at he
    split at he
    · cases he
    · rename_i hne
      rw [haccepted e hne]
      exact h.silent e he

lemma Live.offset_lt (h : Live hint published accepted o) (hm : o.messages.get? eventId = some m)
    (halive : m.ended = false) : m.offset < 10 ^ 6 := by
  have hoffset := (h.told eventId m hm).offset_le halive
  have hweighed := h.weighed eventId m hm
  have hbytes := h.bytes
  unfold maxPreviewBytes at hbytes
  omega

/-! ### The observer's operations -/

namespace Observer

lemma get?_put (m' : Message) (hm : o.messages.get? eventId = some m)
    (hkey : m'.eventId = m.eventId) (e : Units) :
    (o.put m').messages.get? e = if e = eventId then some m' else o.messages.get? e := by
  simp only [put, Table.get?_modify, hkey, Table.get?_key hm]
  split
  · rename_i he
    rw [he, hm, Option.map_some, ← hkey]
  · rfl

@[simp] lemma queue_put : (o.put m).queue = o.queue := rfl
@[simp] lemma bytes_put : (o.put m).bytes = o.bytes := rfl
@[simp] lemma aborted_put : (o.put m).aborted = o.aborted := rfl

lemma idOf_put (m' : Message) (hm : o.messages.get? eventId = some m)
    (hkey : m'.eventId = m.eventId) (hid : m'.id = m.id) : (o.put m').idOf = o.idOf := by
  funext e
  simp only [idOf, get?_put m' hm hkey]
  split
  · rename_i he
    rw [he, hm, Option.map_some, Option.map_some, hid]
  · rfl

@[simp] lemma messages_enqueue (p : Preview) : (o.enqueue p).messages = o.messages := by
  unfold enqueue
  split <;> rfl

@[simp] lemma bytes_enqueue (p : Preview) : (o.enqueue p).bytes = o.bytes := by
  unfold enqueue
  split <;> rfl

@[simp] lemma idOf_enqueue (p : Preview) : (o.enqueue p).idOf = o.idOf := by
  funext e
  simp [idOf]

/-- A frame is queued, or the observer is aborted. -/
lemma enqueue_alive {p : Preview} (h : (o.enqueue p).aborted = false) :
    o.aborted = false ∧ (o.enqueue p).queue = o.queue ++ [p] := by
  unfold enqueue at h ⊢
  split at h
  · cases h
  · rename_i hroom
    exact ⟨h, by rw [if_neg hroom]⟩

end Observer

open Observer

/-- What a flush makes of a message. -/
def Message.flushed (m : Message) : Message :=
  if m.pending = [] then m else { m with offset := m.offset + 1, pending := [] }

lemma flushed_id (m : Message) : m.flushed.id = m.id := by
  unfold Message.flushed
  split <;> rfl

lemma flushed_pending (m : Message) : m.flushed.pending = [] := by
  unfold Message.flushed
  split
  · assumption
  · rfl

lemma flushed_flushed (m : Message) : m.flushed.flushed = m.flushed := by
  have hpending := flushed_pending m
  generalize m.flushed = r at hpending
  rw [Message.flushed, if_pos hpending]

lemma get?_flushMessage (hint : Hint) (o : Observer) (eventId e : Units) :
    (o.flushMessage hint eventId).messages.get? e =
      if e = eventId then (o.messages.get? e).map Message.flushed else o.messages.get? e := by
  unfold flushMessage
  cases hm : o.messages.get? eventId with
  | none =>
    by_cases he : e = eventId
    · simp [he, hm]
    · simp [he]
  | some m =>
    have hkey := Table.get?_key hm
    dsimp only
    split
    · rename_i hpending
      split
      · rename_i he
        rw [he, hm]
        simp [Message.flushed, hpending]
      · rfl
    · rename_i hpending
      rw [get?_put { m with offset := m.offset + 1, pending := [] } (m := m) (by simpa using hm)
        rfl, messages_enqueue]
      split
      · rename_i he
        rw [he, hm]
        simp [Message.flushed, hpending, hkey]
      · rfl

/-- A flush leaves nothing pending. -/
lemma get?_flush (o : Observer) (e : Units) :
    (o.flush hint).messages.get? e = (o.messages.get? e).map Message.flushed := by
  have hloop : ∀ (l : List Units) (o : Observer),
      (l.foldl (flushMessage hint) o).messages.get? e =
        if e ∈ l then (o.messages.get? e).map Message.flushed else o.messages.get? e := by
    intro l
    induction l with
    | nil => intro o; simp
    | cons k l ih =>
      intro o
      rw [List.foldl_cons, ih, get?_flushMessage]
      by_cases hk : e = k
      · cases hm : o.messages.get? e <;> simp [hk, flushed_flushed]
      · simp [hk]
  unfold flush
  rw [hloop]
  split
  · rfl
  · rename_i hnot
    have hnone : o.messages.get? e = none := by
      rw [Option.eq_none_iff_forall_ne_some]
      intro m hm
      obtain ⟨hmem, hkey⟩ := Table.get?_eq_some.mp hm
      exact hnot (List.mem_map.mpr ⟨m, hmem, hkey⟩)
    rw [hnone]
    rfl

lemma idOf_flush (o : Observer) : (o.flush hint).idOf = o.idOf := by
  funext e
  simp [idOf, get?_flush, Function.comp_def, flushed_id]

lemma idOf_finishMessage (o : Observer) (eventId : Units) :
    (o.finishMessage hint eventId).idOf = o.idOf := by
  unfold finishMessage
  split
  · rfl
  · rename_i m hm
    split
    · rfl
    · have hflush : (o.flush hint).messages.get? eventId = some m.flushed := by
        rw [get?_flush, hm]
        rfl
      have hkey : m.flushed.eventId = eventId := Table.get?_key hflush
      simp only [hflush]
      rw [idOf_put { m.flushed with ended := true, offset := m.flushed.offset + 1 }
        (m := m.flushed) (by simpa using hflush) rfl rfl, idOf_enqueue, idOf_flush]

/-- Operations that, when they abort nothing, keep what is published and queued telling the
messages. -/
def Keeps (hint : Hint) (published : List Preview) (accepted : Units → Units)
    (f : Observer → Observer) : Prop :=
  ∀ o, (f o).aborted = false → o.aborted = false ∧
    (Live hint published accepted o → Live hint published accepted (f o))

lemma Keeps.foldl {f : Observer → Units → Observer}
    (h : ∀ e, Keeps hint published accepted fun o => f o e) (l : List Units) :
    Keeps hint published accepted fun o => l.foldl f o := by
  induction l with
  | nil => exact fun o halive => ⟨halive, id⟩
  | cons e l ih =>
    intro o halive
    obtain ⟨hfirst, hrest⟩ := ih (f o e) halive
    obtain ⟨halive', hlive⟩ := h e o hfirst
    exact ⟨halive', fun h => hrest (hlive h)⟩

lemma keeps_flushMessage (e : Units) :
    Keeps hint published accepted fun o => o.flushMessage hint e := by
  intro o halive
  have hget := get?_flushMessage hint o e
  dsimp only at halive ⊢
  unfold flushMessage at halive hget ⊢
  cases hm : o.messages.get? e with
  | none =>
    simp only [hm] at halive
    exact ⟨halive, id⟩
  | some m =>
    have hkey := Table.get?_key hm
    simp only [hm] at halive hget ⊢
    split at halive
    · rename_i hpending
      rw [if_pos hpending]
      exact ⟨halive, id⟩
    · rename_i hpending
      simp only [if_neg hpending] at hget ⊢
      obtain ⟨halive, hqueue⟩ := enqueue_alive halive
      refine ⟨halive, fun h => ?_⟩
      have hended : m.ended = false := by
        by_contra hended
        exact hpending (h.emptied e m hm (by simpa using hended))
      have hflushed : m.flushed = { m with offset := m.offset + 1, pending := [] } :=
        if_neg hpending
      refine h.change m.flushed [deltaFrame hint m] hm (flushed_id m) ?_ hqueue ?_ (by simp)
        (by simpa using h.bytes) (fun _ _ => rfl) ?_ ?_ ?_ ?_
      · intro e'
        rw [hget]
        split
        · rename_i he
          rw [he, hm]
          rfl
        · rfl
      · intro p hp
        rw [List.mem_singleton.mp hp]
        exact ⟨rfl, parse_delta hpending (h.offset_lt hm hended) (h.fits e m hm hpending)⟩
      · rw [hflushed]
        exact (h.told e m hm).sent hpending hended
      · intro hne
        exact absurd (flushed_pending m) hne
      · intro _
        exact flushed_pending m
      · simpa using h.weighed e m hm

lemma keeps_flush : Keeps hint published accepted fun o => o.flush hint :=
  fun o => Keeps.foldl keeps_flushMessage o.eventIds o

lemma keeps_finishMessage (e : Units) :
    Keeps hint published accepted fun o => o.finishMessage hint e := by
  intro o halive
  dsimp only at halive ⊢
  unfold finishMessage at halive ⊢
  cases hm : o.messages.get? e with
  | none =>
    simp only [hm] at halive
    exact ⟨halive, id⟩
  | some m =>
    simp only [hm] at halive ⊢
    split at halive
    · rename_i hended
      rw [if_pos hended]
      exact ⟨halive, id⟩
    · rename_i hended
      rw [if_neg hended]
      have hflush : (o.flush hint).messages.get? e = some m.flushed := by
        rw [get?_flush, hm]
        rfl
      have hkey : m.flushed.eventId = e := Table.get?_key hflush
      simp only [hflush] at halive ⊢
      obtain ⟨halive, hqueue⟩ := enqueue_alive halive
      obtain ⟨halive, hlive⟩ := (keeps_flush : Keeps hint published accepted _) o halive
      refine ⟨halive, fun h => ?_⟩
      have hended : m.flushed.ended = false := by
        unfold Message.flushed
        split <;> simpa using hended
      refine (hlive h).change { m.flushed with ended := true, offset := m.flushed.offset + 1 }
        [endFrame hint m.flushed] hflush rfl ?_ hqueue ?_ (by simp)
        (by simpa using (hlive h).bytes) (fun _ _ => rfl) ?_ ?_ ?_ ?_
      · intro e'
        rw [get?_put { m.flushed with ended := true, offset := m.flushed.offset + 1 }
          (m := m.flushed) (by simpa using hflush) rfl, messages_enqueue]
      · intro p hp
        rw [List.mem_singleton.mp hp]
        exact ⟨rfl, parse_end ((hlive h).offset_lt hflush hended)⟩
      · exact ((hlive h).told e m.flushed hflush).ends hended
      · intro hne
        exact absurd (flushed_pending m) hne
      · intro _
        exact flushed_pending m
      · simpa using (hlive h).weighed e m.flushed hflush

lemma keeps_finishAll : Keeps hint published accepted fun o => o.finishAll hint :=
  fun o => Keeps.foldl keeps_finishMessage o.eventIds o

lemma idOf_finishAll (o : Observer) : (o.finishAll hint).idOf = o.idOf := by
  have hloop : ∀ (l : List Units) (o : Observer),
      (l.foldl (finishMessage hint) o).idOf = o.idOf := by
    intro l
    induction l with
    | nil => exact fun o => rfl
    | cons e l ih => exact fun o => (ih _).trans (idOf_finishMessage o e)
  exact hloop _ o

/-! ### An accepted delta -/

/-- The accepted texts with one more for a message. -/
def extend (accepted : Units → Units) (eventId text : Units) (e : Units) : Units :=
  if e = eventId then accepted e ++ text else accepted e

lemma extend_append (a b : Units) :
    extend (extend accepted eventId a) eventId b = extend accepted eventId (a ++ b) := by
  funext e
  by_cases he : e = eventId <;> simp [extend, he]

lemma extend_nil : extend accepted eventId [] = accepted := by
  funext e
  simp [extend]

/-- No code point is made pending when the frame of the longer text would be too large. -/
def Roomy (hint : Hint) (eventId : Units) : List Units → Observer → Prop
  | [], _ => True
  | char :: chars, o =>
    o.aborted = false → o.bytes + byteLength char ≤ maxPreviewBytes →
      (∀ m, o.messages.get? eventId = some m →
        byteLength (deltaFrame hint { m with pending := m.pending ++ char }).stringify
          ≤ maxFrameBytes) ∧
      Roomy hint eventId chars
        ({ o with bytes := o.bytes + byteLength char }.append hint eventId char)

/-- The observer with the size of a code point counted. -/
abbrev Observer.count (o : Observer) (char : Units) : Observer :=
  { o with bytes := o.bytes + byteLength char }

lemma append_alive {char : Units} (h : (o.append hint eventId char).aborted = false) :
    o.aborted = false := by
  unfold append at h
  split at h
  · exact h
  · dsimp only at h
    split at h
    · exact ((keeps_flush : Keeps hint [] (fun _ => []) _) _ h).1
    · exact h

lemma appendAll_alive {chars : List Units}
    (h : (o.appendAll hint eventId chars).aborted = false) : o.aborted = false := by
  induction chars generalizing o with
  | nil => exact h
  | cons char chars ih =>
    unfold appendAll at h
    dsimp only at h
    split at h
    · cases h
    · exact append_alive (o := o.count char) (ih h)

lemma get?_append (hint : Hint) (hm : o.messages.get? eventId = some m) (char : Units) :
    ∃ m', (o.append hint eventId char).messages.get? eventId = some m' ∧ m'.ended = m.ended := by
  have hkey := Table.get?_key hm
  unfold append
  simp only [hm]
  have hput := get?_put { m with pending := m.pending ++ char } hm rfl eventId
  rw [if_pos rfl] at hput
  split
  · refine ⟨_, by rw [get?_flush, hput]; rfl, ?_⟩
    unfold Message.flushed
    split <;> rfl
  · exact ⟨_, hput, rfl⟩

/-- One code point more is accepted. -/
lemma Live.append (h : Live hint published accepted o) (hm : o.messages.get? eventId = some m)
    (hended : m.ended = false) {char : Units}
    (hbytes : o.bytes + byteLength char ≤ maxPreviewBytes)
    (hfits : byteLength (deltaFrame hint { m with pending := m.pending ++ char }).stringify
      ≤ maxFrameBytes)
    (halive : ((o.count char).append hint eventId char).aborted = false) :
    Live hint published (extend accepted eventId char)
      ((o.count char).append hint eventId char) := by
  have hkey := Table.get?_key hm
  have hput := get?_put { m with pending := m.pending ++ char } (o := o.count char) hm rfl
  have hlive : Live hint published (extend accepted eventId char)
      ((o.count char).put { m with pending := m.pending ++ char }) := by
    refine h.change { m with pending := m.pending ++ char } [] hm rfl hput
      (List.append_nil _).symm (by simp) (Nat.le_add_right _ _) hbytes
      (fun e he => by simp [extend, he]) ?_ (fun _ => hfits) (fun hover => ?_) ?_
    · rw [List.append_nil]
      simpa [extend] using (h.told eventId m hm).append char
    · simp [hended] at hover
    · have hweighed := h.weighed eventId m hm
      have hchar := length_le_byteLength char
      simp only [extend, if_true, List.length_append, bytes_put]
      omega
  unfold Observer.append at halive ⊢
  simp only [hm] at halive ⊢
  split at halive
  · rename_i hlong
    rw [if_pos hlong]
    exact (keeps_flush _ halive).2 hlive
  · rename_i hlong
    rw [if_neg hlong]
    exact hlive

lemma Live.appendAll {chars : List Units} (h : Live hint published accepted o)
    (hm : o.messages.get? eventId = some m) (hended : m.ended = false)
    (hroomy : Roomy hint eventId chars o)
    (halive : (o.appendAll hint eventId chars).aborted = false) :
    Live hint published (extend accepted eventId chars.flatten)
      (o.appendAll hint eventId chars) := by
  induction chars generalizing o accepted m with
  | nil =>
    rw [List.flatten_nil, extend_nil]
    exact h
  | cons char chars ih =>
    have hbegin := appendAll_alive halive
    unfold Observer.appendAll at halive ⊢
    dsimp only at halive ⊢
    split at halive
    · cases halive
    · rename_i hle
      rw [if_neg hle]
      have hroom := hroomy hbegin (Nat.not_lt.mp hle)
      obtain ⟨m', hm', hended'⟩ := get?_append hint (o := o.count char) hm char
      have hfirst := h.append hm hended (Nat.not_lt.mp hle) (hroom.1 m hm) (appendAll_alive halive)
      rw [List.flatten_cons, ← extend_append]
      exact ih hfirst hm' (hended'.trans hended) hroom.2 halive

/-! ### The events -/

variable {digest : Units → HexDigest}

/-- A message that begins has an id that no other has; of an accepted text, no code point is made
pending that the frame has no room for. -/
def Sendable (hint : Hint) (digest : Units → HexDigest) (o : Observer) : Action → Prop
  | .event (.eventStart e) => o.messages.get? e = none →
      ∀ e' m, o.messages.get? e' = some m → m.id.1 ≠ (previewId hint digest e).1
  | .event e => ∀ m text, o.accepted e = some (m, text) →
      Roomy hint m.eventId (codePoints text) (o.put m)
  | _ => True

/-- A message begins. -/
lemma get?_begin (hint : Hint) (digest : Units → HexDigest)
    (hnone : o.messages.get? eventId = none) (e : Units) :
    (o.begin hint digest eventId).messages.get? e =
      if e = eventId then some (newMessage hint digest eventId) else o.messages.get? e := by
  obtain ⟨messages, hinsert, -⟩ := Table.insert_free (r := newMessage hint digest eventId) hnone
  simp only [begin, hinsert, messages_enqueue]
  exact Table.get?_insert hinsert e

lemma begin_alive (hnone : o.messages.get? eventId = none)
    (h : (o.begin hint digest eventId).aborted = false) :
    o.aborted = false ∧ (o.begin hint digest eventId).bytes = o.bytes ∧
      (o.begin hint digest eventId).queue =
        o.queue ++ [startFrame hint (previewId hint digest eventId)] := by
  obtain ⟨messages, hinsert, -⟩ := Table.insert_free (r := newMessage hint digest eventId) hnone
  simp only [begin, hinsert] at h ⊢
  obtain ⟨halive, hqueue⟩ := enqueue_alive h
  exact ⟨halive, bytes_enqueue _, hqueue⟩

lemma Live.begin (h : Live hint published accepted o) (hnone : o.messages.get? eventId = none)
    (hfresh : ∀ e m, o.messages.get? e = some m → m.id.1 ≠ (previewId hint digest eventId).1)
    (halive : (o.begin hint digest eventId).aborted = false) :
    Live hint published accepted (o.begin hint digest eventId) := by
  have hget := get?_begin hint digest hnone
  obtain ⟨-, hbytes, hqueue⟩ := begin_alive hnone halive
  have hsplit : ∀ {e m}, (o.begin hint digest eventId).messages.get? e = some m →
      e = eventId ∧ m = newMessage hint digest eventId ∨
        e ≠ eventId ∧ o.messages.get? e = some m := by
    intro e m he
    rw [hget] at he
    split at he
    · exact .inl ⟨by assumption, (Option.some.inj he).symm⟩
    · exact .inr ⟨by assumption, he⟩
  have hall : published ++ (o.begin hint digest eventId).queue =
      (published ++ o.queue) ++ [startFrame hint (previewId hint digest eventId)] := by
    rw [hqueue, List.append_assoc]
  have hothers : ∀ p ∈ published ++ o.queue,
      p.previewId ≠ (previewId hint digest eventId).1 := by
    intro p hp heq
    obtain ⟨e, m, hm, hpid⟩ := h.owned p hp
    exact hfresh e m hm (hpid.symm.trans heq)
  refine ⟨hbytes ▸ h.bytes, ?_, ?_, ?_, ?_, ?_, ?_, ?_, ?_⟩
  · intro e m e' m' he he' heq
    rcases hsplit he with ⟨hnew, rfl⟩ | ⟨-, hold⟩ <;>
      rcases hsplit he' with ⟨hnew', rfl⟩ | ⟨-, hold'⟩
    · rw [hnew, hnew']
    · exact absurd heq.symm (hfresh e' m' hold')
    · exact absurd heq (hfresh e m hold)
    · exact h.ids e m e' m' hold hold' heq
  · intro p hp
    rw [hall] at hp
    rcases List.mem_append.mp hp with hp | hp
    · obtain ⟨e, m, he, hpid⟩ := h.owned p hp
      have hne : e ≠ eventId := by
        rintro rfl
        rw [hnone] at he
        cases he
      exact ⟨e, m, by rw [hget, if_neg hne, he], hpid⟩
    · rw [List.mem_singleton.mp hp]
      exact ⟨eventId, _, by rw [hget, if_pos rfl], rfl⟩
  · intro e m he
    rw [hall, framesOf_append]
    rcases hsplit he with ⟨rfl, rfl⟩ | ⟨hne, he⟩
    · have hbegins : framesOf (previewId hint digest e).1
          [startFrame hint (previewId hint digest e)]
            = [startFrame hint (previewId hint digest e)] :=
        framesOf_own fun p hp => by rw [List.mem_singleton.mp hp]; rfl
      refine ⟨[], ?_, (h.silent e hnone).symm, rfl, by simp⟩
      simp only [newMessage, framesOf_other hothers, hbegins]
      rfl
    · have hnot : framesOf m.id.1 [startFrame hint (previewId hint digest eventId)] = [] :=
        framesOf_other fun p hp heq => by
          rw [List.mem_singleton.mp hp] at heq
          exact hfresh e m he heq.symm
      rw [hnot, List.append_nil]
      exact h.told e m he
  · intro p hp
    rw [hall] at hp
    rcases List.mem_append.mp hp with hp | hp
    · exact h.parsed p hp
    · rw [List.mem_singleton.mp hp]
      exact parse_start _
  · intro e m he
    rcases hsplit he with ⟨rfl, rfl⟩ | ⟨-, he⟩
    · exact fun hne => absurd rfl hne
    · exact h.fits e m he
  · intro e m he
    rcases hsplit he with ⟨rfl, rfl⟩ | ⟨-, he⟩
    · exact fun _ => rfl
    · exact h.emptied e m he
  · intro e m he
    rw [hbytes]
    rcases hsplit he with ⟨rfl, rfl⟩ | ⟨-, he⟩
    · rw [h.silent e hnone]
      exact Nat.zero_le _
    · exact h.weighed e m he
  · intro e he
    rw [hget] at he
    split at he
    · cases he
    · exact h.silent e he

/-- The accepted texts with that of an event. -/
def accepts (accepted : Units → Units) (o : Observer) (ev : Event) : Units → Units :=
  match o.accepted ev with
  | none => accepted
  | some (m, text) => extend accepted m.eventId text

lemma Live.index (h : Live hint published accepted o) (hm : o.messages.get? eventId = some m)
    (n : ℤ) : Live hint published accepted (o.put { m with index := n }) := by
  have hkey := Table.get?_key hm
  have hget := get?_put { m with index := n } hm rfl
  refine h.change { m with index := n } [] hm rfl hget (List.append_nil _).symm (by simp)
    (Nat.le_refl _) h.bytes (fun _ _ => rfl) ?_ (h.fits eventId m hm) (h.emptied eventId m hm)
    (h.weighed eventId m hm)
  rw [List.append_nil]
  exact h.told eventId m hm

/-- A delta is passed over, or ends its message, or its text is accepted. -/
lemma onEventDelta_cases (hint : Hint) (o : Observer) (eventId : Units) (index : Index)
    (text : Option Units) :
    (o.accepted (.eventDelta eventId index text) = none ∧
      (o.onEventDelta hint eventId index text = o ∨
        o.onEventDelta hint eventId index text = o.finishMessage hint eventId)) ∨
    ∃ m n t, o.messages.get? eventId = some m ∧ m.ended = false ∧
      o.accepted (.eventDelta eventId index text) = some ({ m with index := n }, t) ∧
      o.onEventDelta hint eventId index text =
        (o.put { m with index := n }).appendAll hint eventId (codePoints t) := by
  cases text with
  | none =>
    refine .inl ⟨rfl, .inl ?_⟩
    unfold onEventDelta
    split
    · simp_all
    · rfl
  | some t =>
    simp only [Observer.accepted, onEventDelta]
    cases hm : o.messages.get? eventId with
    | none => exact .inl ⟨rfl, .inl rfl⟩
    | some m =>
      simp only
      cases hended : m.ended with
      | true => exact .inl ⟨by simp, .inl (by simp)⟩
      | false =>
        cases hindex : index.follows m.index with
        | none => exact .inl ⟨by simp, .inr (by simp)⟩
        | some n => exact .inr ⟨m, n, t, rfl, hended, by simp [hended], by simp [hended]⟩

lemma Live.leaving (h : Live hint published accepted o) (reader : Reader) :
    Live hint published accepted { o with reader } :=
  ⟨h.bytes, h.ids, h.owned, h.told, h.parsed, h.fits, h.emptied, h.weighed, h.silent⟩

lemma Live.onEventStart {e : Units} (h : Live hint published accepted o)
    (hs : Sendable hint digest o (.event (.eventStart e)))
    (halive : (o.onEventStart hint digest e).aborted = false) :
    Live hint published accepted (o.onEventStart hint digest e) := by
  unfold Observer.onEventStart at halive ⊢
  by_cases hthere : (o.messages.get? e).isSome = true
  · rw [if_pos hthere]
    exact h
  · have hnone : o.messages.get? e = none := by simpa using hthere
    rw [if_neg hthere] at halive ⊢
    by_cases hfull : 32 ≤ o.messages.rows.length
    · rw [if_pos hfull]
      exact h.leaving _
    · rw [if_neg hfull] at halive ⊢
      exact h.begin hnone (hs hnone) halive

/-- What an event of the session does, unless it aborts. -/
lemma Live.handle {ev : Event} (h : Live hint published accepted o)
    (hs : Sendable hint digest o (.event ev))
    (halive : (o.handle hint digest ev).aborted = false) :
    Live hint published (accepts accepted o ev) (o.handle hint digest ev) := by
  cases ev with
  | eventStart e => exact h.onEventStart hs halive
  | eventDelta e index text =>
    simp only [Observer.handle] at halive ⊢
    unfold accepts
    rcases onEventDelta_cases hint o e index text with
      ⟨hnone, heq | heq⟩ | ⟨m, n, t, hm, hended, hsome, heq⟩
    · rw [hnone, heq]
      exact h
    · rw [heq] at halive
      rw [hnone, heq]
      exact (keeps_finishMessage e o halive).2 h
    · obtain rfl := Table.get?_key hm
      have hget := get?_put { m with index := n } hm rfl m.eventId
      rw [if_pos rfl] at hget
      rw [heq] at halive
      rw [hsome, heq]
      have hlive := (h.index hm n).appendAll hget hended (hs _ t hsome) halive
      rwa [codePoints_flatten] at hlive
  | message e => exact (keeps_finishMessage e o halive).2 h
  | modelRequestEnd => exact (keeps_finishAll o halive).2 h
  | stop => exact h.leaving _
  | other => exact h

lemma idOf_append (o : Observer) (eventId char : Units) :
    (o.append hint eventId char).idOf = o.idOf := by
  unfold append
  split
  · rfl
  · rename_i m hm
    have hput := idOf_put { m with pending := m.pending ++ char } hm rfl rfl
    dsimp only
    split
    · rw [idOf_flush, hput]
    · exact hput

lemma idOf_appendAll (o : Observer) (eventId : Units) (chars : List Units) :
    (o.appendAll hint eventId chars).idOf = o.idOf := by
  induction chars generalizing o with
  | nil => rfl
  | cons char chars ih =>
    unfold appendAll
    dsimp only
    split
    · rfl
    · exact (ih _).trans (idOf_append (o.count char) eventId char)

/-- Messages keep their ids; one that begins gets its own. -/
lemma idOf_handle (hint : Hint) (digest : Units → HexDigest) (o : Observer) (ev : Event) :
    (o.handle hint digest ev).idOf = o.idOf ∨
    ∃ e, ev = .eventStart e ∧ o.messages.get? e = none ∧ ∀ e', (o.handle hint digest ev).idOf e' =
      if e' = e then some (previewId hint digest e) else o.idOf e' := by
  cases ev with
  | eventStart e =>
    simp only [handle, onEventStart]
    split
    · exact .inl rfl
    · rename_i hthere
      have hnone : o.messages.get? e = none := by simpa using hthere
      split
      · exact .inl rfl
      · refine .inr ⟨e, rfl, hnone, fun e' => ?_⟩
        simp only [idOf, get?_begin hint digest hnone]
        split <;> rfl
  | eventDelta e index text =>
    refine .inl ?_
    rcases onEventDelta_cases hint o e index text with
      ⟨-, heq | heq⟩ | ⟨m, n, t, hm, -, -, heq⟩
    · simp only [handle, heq]
    · simp only [handle, heq, idOf_finishMessage]
    · simp only [handle, heq, idOf_appendAll]
      exact idOf_put { m with index := n } hm rfl rfl
  | message e => exact .inl (idOf_finishMessage o e)
  | modelRequestEnd => exact .inl (idOf_finishAll o)
  | stop => exact .inl rfl
  | other => exact .inl rfl

/-- What was published and is queued agrees, and so does every beginning of it. Texts may grow that
have no end yet, and messages may begin that have sent nothing. -/
lemma Live.agrees {frames : List Preview} {accepted' : Units → Units}
    {idOf' : Units → Option HexDigest} (h : Live hint published accepted o)
    (hframes : frames <+: published ++ o.queue)
    (hkept : ∀ e id, o.idOf e = some id → idOf' e = some id)
    (hgrown : ∀ e m, o.messages.get? e = some m → accepted e <+: accepted' e)
    (hended : ∀ e m, o.messages.get? e = some m → m.ended = true → accepted' e = accepted e)
    (hnew : ∀ e id, idOf' e = some id → o.idOf e = some id ∨
      ∀ p ∈ published ++ o.queue, p.previewId ≠ id.1) :
    Agrees hint frames accepted' idOf' := by
  have hmem : ∀ p ∈ frames, p ∈ published ++ o.queue := fun p hp => hframes.subset hp
  have hown : ∀ e id, idOf' e = some id → (∃ m, o.messages.get? e = some m ∧ m.id = id) ∨
      framesOf id.1 frames = [] := by
    intro e id hid
    rcases hnew e id hid with hold | hfree
    · exact .inl (Option.map_eq_some_iff.mp hold)
    · exact .inr (framesOf_other fun p hp => hfree p (hmem p hp))
  have hbegin : ∀ id, framesOf id frames <+: framesOf id (published ++ o.queue) :=
    fun id => hframes.filter _
  refine ⟨fun p hp => h.parsed p (hmem p hp), ?_, ?_, ?_, ?_⟩
  · intro p hp
    obtain ⟨e, m, hm, hid⟩ := h.owned p (hmem p hp)
    exact ⟨e, m.id, hkept e m.id (by simp [idOf, hm]), hid⟩
  · intro id
    by_cases hsome : ∃ p ∈ framesOf id (published ++ o.queue), p.previewId = id
    · obtain ⟨p, hp, rfl⟩ := hsome
      obtain ⟨e, m, hm, hid⟩ := h.owned p (List.mem_filter.mp hp).1
      obtain ⟨texts, htold, -⟩ := h.told e m hm
      rw [hid]
      refine Orderly.of_prefix ?_ (hbegin m.id.1)
      rw [htold]
      exact story_orderly _ _ _
    · have hnone : framesOf id frames = [] := by
        refine List.eq_nil_iff_forall_not_mem.mpr fun p hp => hsome ⟨p, ?_, ?_⟩
        · exact (hbegin id).subset hp
        · simpa using (List.mem_filter.mp hp).2
      rw [hnone]
      exact ⟨rfl, by simp, by simp⟩
  · intro e id hid
    rcases hown e id hid with ⟨m, hm, rfl⟩ | hnone
    · obtain ⟨texts, htold, htext, -⟩ := h.told e m hm
      have hall := (hbegin m.id.1).flatMap Preview.content
      rw [htold, story_content] at hall
      exact (hall.trans ⟨m.pending, htext⟩).trans (hgrown e m hm)
    · rw [hnone]
      exact List.nil_prefix
  · rintro e id hid ⟨p, hp, htype⟩
    rcases hown e id hid with ⟨m, hm, rfl⟩ | hnone
    · obtain ⟨texts, htold, htext, -⟩ := h.told e m hm
      have hstory := hbegin m.id.1
      rw [htold] at hstory
      have hover := story_end (hstory.subset hp) htype
      have hfull : framesOf m.id.1 frames = story hint m.id texts m.ended := by
        obtain ⟨i, hi⟩ := List.mem_iff_getElem?.mp hp
        have hlt := (List.getElem?_eq_some_iff.mp hi).1
        obtain ⟨rest, hrest⟩ := hstory
        have hthere : (story hint m.id texts m.ended)[i]? = some p := by
          rw [← hrest, List.getElem?_append_left hlt, hi]
        have hlast := (story_get hthere).2.2 htype
        rw [← hrest, List.length_append] at hlast
        have hnil : rest = [] := List.length_eq_zero_iff.mp (by omega)
        rw [← hrest, hnil, List.append_nil]
      rw [hfull, story_content, hended e m hm hover, ← htext, h.emptied e m hm hover,
        List.append_nil]
    · rw [hnone] at hp
      cases hp

/-! ### Every run -/

/-- The batches are small and the published frames agree with the accepted texts. -/
structure Run.Agreed (hint : Hint) (r : Run) : Prop where
  batches : ∀ batch ∈ r.batches, batch.length ≤ 5
  agrees : Agrees hint r.published r.acceptedText r.observer.idOf

/-- What every step keeps. -/
structure Run.Good (hint : Hint) (r : Run) : Prop where
  agreed : r.Agreed hint
  live : r.observer.aborted = false → Live hint r.published r.acceptedText r.observer

/-- The same agreement, of messages that kept their ids. -/
lemma Agrees.congr {frames : List Preview} {idOf' : Units → Option HexDigest}
    {idOf : Units → Option HexDigest} (h : Agrees hint frames accepted idOf) (hid : idOf' = idOf) :
    Agrees hint frames accepted idOf' :=
  hid ▸ h

lemma Live.agrees_published (h : Live hint published accepted o) {frames : List Preview}
    (hframes : frames <+: published ++ o.queue) : Agrees hint frames accepted o.idOf :=
  h.agrees hframes (fun _ _ => id) (fun _ _ _ => List.prefix_refl _) (fun _ _ _ _ => rfl)
    fun _ _ => .inl

/-- What a drain publishes was queued. -/
lemma Live.drain (h : Live hint published accepted o) :
    Live hint (published ++ (o.drain.2.toList).flatten) accepted o.drain.1 ∧
      ∀ batch ∈ o.drain.2.toList, batch.length ≤ 5 := by
  unfold Observer.drain
  split
  · have hqueue : (published ++ [o.queue.take 5].flatten) ++ o.queue.drop 5
        = published ++ o.queue := by
      simp [List.append_assoc, List.take_append_drop]
    refine ⟨⟨h.bytes, h.ids, ?_, ?_, ?_, h.fits, h.emptied, h.weighed, h.silent⟩, ?_⟩
    · dsimp only [Option.toList_some]
      rw [hqueue]
      exact h.owned
    · dsimp only [Option.toList_some]
      rw [hqueue]
      exact h.told
    · dsimp only [Option.toList_some]
      rw [hqueue]
      exact h.parsed
    · simp only [Option.toList_some, List.mem_singleton, forall_eq, List.length_take]
      omega
  · refine ⟨?_, by simp⟩
    simp only [Option.toList_none, List.flatten_nil, List.append_nil]
    exact ⟨h.bytes, h.ids, h.owned, h.told, h.parsed, h.fits, h.emptied, h.weighed, h.silent⟩

lemma drain_aborted (h : o.aborted = true) : o.drain = ({ o with publishing := false }, none) := by
  simp [Observer.drain, h]

variable {r r' : Run}

/-- What the publisher does after the observer changed. -/
lemma Run.Good.drain (h : r.Good hint) (ho : o'.idOf = r.observer.idOf)
    (hlive : o'.aborted = false → Live hint r.published r.acceptedText o') :
    Run.Good hint { observer := o'.drain.1, batches := r.batches ++ o'.drain.2.toList,
                    deltas := r.deltas } := by
  cases halive : o'.aborted with
  | true =>
    rw [drain_aborted halive]
    simp only [Option.toList_none, List.append_nil]
    refine ⟨⟨h.agreed.batches, h.agreed.agrees.congr ho⟩, fun hnot => ?_⟩
    rw [halive] at hnot
    cases hnot
  | false =>
    obtain ⟨hdrained, hsmall⟩ := (hlive halive).drain
    rw [Run.published, ← List.flatten_append] at hdrained
    refine ⟨⟨?_, ?_⟩, fun _ => hdrained⟩
    · intro batch hbatch
      rcases List.mem_append.mp hbatch with hbatch | hbatch
      · exact h.agreed.batches batch hbatch
      · exact hsmall batch hbatch
    · exact hdrained.agrees_published (List.prefix_append _ _)

lemma acceptedText_event (r : Run) (observer : Observer) (batches : List (List Preview))
    (ev : Event) :
    Run.acceptedText { observer, batches, deltas := r.deltas ++
        ((r.observer.accepted ev).map fun (m, text) => (m.eventId, text)).toList }
      = accepts r.acceptedText r.observer ev := by
  funext e
  unfold Run.acceptedText accepts
  cases r.observer.accepted ev with
  | none => simp
  | some found =>
    obtain ⟨m, text⟩ := found
    by_cases he : m.eventId = e
    · simp [extend, he]
    · have he' : e ≠ m.eventId := fun h => he h.symm
      simp [extend, he, he']

/-- The message of an accepted delta is not over. -/
lemma accepted_alive {ev : Event} (h : o.accepted ev = some (m, text)) :
    ∃ m', o.messages.get? m.eventId = some m' ∧ m'.ended = false := by
  cases ev with
  | eventDelta e index t =>
    rcases onEventDelta_cases ⟨[], [], by simp⟩ o e index t with
      ⟨hnone, -⟩ | ⟨m', n, t', hm', hended, hsome, -⟩
    · rw [hnone] at h
      cases h
    · rw [hsome] at h
      cases h
      exact ⟨m', by rw [Table.get?_key hm', hm'], hended⟩
  | _ => cases h

lemma Run.Good.event {ev : Event} (h : r.Good hint) (halive : r.observer.aborted = false)
    (hs : Sendable hint digest r.observer (.event ev)) :
    Run.Good hint
      { observer := r.observer.handle hint digest ev, batches := r.batches,
        deltas := r.deltas ++
          ((r.observer.accepted ev).map fun (m, text) => (m.eventId, text)).toList } := by
  have hlive := h.live halive
  refine ⟨⟨h.agreed.batches, ?_⟩, fun halive' => ?_⟩
  · rw [acceptedText_event]
    refine hlive.agrees (List.prefix_append _ _) ?_ ?_ ?_ ?_
    · intro e id hid
      rcases idOf_handle hint digest r.observer ev with
        heq | ⟨e', -, hnone, heq⟩
      · rw [heq, hid]
      · have hne : e ≠ e' := by
          rintro rfl
          simp [idOf, hnone] at hid
        rw [heq, if_neg hne, hid]
    · intro e m hm
      unfold accepts
      cases r.observer.accepted ev with
      | none => exact List.prefix_refl _
      | some found =>
        simp only [extend]
        split
        · exact List.prefix_append _ _
        · exact List.prefix_refl _
    · intro e m hm hended
      unfold accepts
      cases hfound : r.observer.accepted ev with
      | none => rfl
      | some found =>
        obtain ⟨m', text⟩ := found
        obtain ⟨m'', hm'', halive'⟩ := accepted_alive hfound
        have hne : e ≠ m'.eventId := by
          rintro rfl
          rw [hm, Option.some.injEq] at hm''
          rw [hm'', halive'] at hended
          cases hended
        simp [extend, hne]
    · intro e id hid
      rcases idOf_handle hint digest r.observer ev with
        heq | ⟨e', rfl, hnone, heq⟩
      · exact .inl (heq ▸ hid)
      · rw [heq] at hid
        split at hid
        · cases hid
          refine .inr fun p hp hpid => ?_
          obtain ⟨e'', m, hm, hown⟩ := hlive.owned p hp
          exact hs hnone e'' m hm (hown.symm.trans hpid)
        · exact .inl hid
  · rw [acceptedText_event]
    exact hlive.handle hs halive'

/-- A step that publishes and accepts nothing. -/
lemma Run.Good.quiet (h : r.Good hint) (ho : o'.idOf = r.observer.idOf)
    (hlive : o'.aborted = false → Live hint r.published r.acceptedText o') :
    Run.Good hint { observer := o', batches := r.batches, deltas := r.deltas } :=
  ⟨⟨h.agreed.batches, h.agreed.agrees.congr ho⟩, hlive⟩

lemma Run.Good.step {a : Action} (h : r.Good hint) (hs : Sendable hint digest r.observer a)
    (hstep : r.step hint digest a = some r') : r'.Good hint := by
  unfold Run.step at hstep
  obtain ⟨⟨o, batch⟩, hact, rfl⟩ := Option.map_eq_some_iff.mp hstep
  cases a with
  | event ev =>
    simp only [act] at hact
    split at hact
    · rename_i halive
      cases hact
      simpa using h.event halive.2 hs
    · cases hact
  | close =>
    simp only [act] at hact
    split at hact
    · cases hact
      simp only [Option.toList_none, List.append_nil]
      exact h.quiet rfl fun halive => (h.live halive).leaving _
    · cases hact
  | finish =>
    simp only [act] at hact
    split at hact
    · cases hact
      have hid : (if r.observer.aborted then r.observer else r.observer.finishAll hint).idOf
          = r.observer.idOf := by
        split
        · rfl
        · exact idOf_finishAll _
      simp only [Option.toList_none, List.append_nil]
      refine h.quiet hid fun halive => ?_
      dsimp only at halive
      split at halive
      · rename_i haborted
        rw [haborted] at halive
        cases halive
      · rename_i hnot
        rw [if_neg hnot]
        exact ((keeps_finishAll _ halive).2 (h.live (by simpa using hnot))).leaving _
    · cases hact
  | abort =>
    cases hact
    simp only [Option.toList_none, List.append_nil]
    exact h.quiet rfl fun halive => by cases halive
  | wake =>
    simp only [act] at hact
    split at hact
    · cases hact
    · obtain ⟨rfl, rfl⟩ := Prod.mk.inj (Option.some.inj hact)
      simp only [List.append_nil]
      refine h.drain (idOf_flush r.observer) fun halive => ?_
      obtain ⟨halive, hlive⟩ := keeps_flush r.observer halive
      exact hlive (h.live halive)
  | published =>
    simp only [act] at hact
    split at hact
    · obtain ⟨rfl, rfl⟩ := Prod.mk.inj (Option.some.inj hact)
      simp only [List.append_nil]
      exact h.drain rfl h.live
    · cases hact

lemma Run.Good.init : Run.Good hint {} := by
  refine ⟨⟨by simp, ?_, ?_, fun id => ?_, ?_, ?_⟩, fun _ => ?_⟩
  · simp [Run.published]
  · simp [Run.published]
  · exact ⟨rfl, by simp [Run.published, framesOf], by simp [Run.published, framesOf]⟩
  · intro e id hid
    cases hid
  · intro e id hid
    cases hid
  · refine ⟨Nat.zero_le _, ?_, ?_, ?_, ?_, ?_, ?_, ?_, fun _ _ => rfl⟩
    all_goals simp [Run.published]

/-- **Agreement on the frames.** In every run whose messages have ids of their own and whose pending
texts fit their frames, whatever the events and the timing, the published batches are small and the
consumers accept what they hold: each message's frames are numbered from its only start, nothing
follows its end, and they carry a beginning of its accepted text, all of it once it ended. -/
theorem frames_agreed (h : Runs hint digest (Sendable hint digest) r) : r.Agreed hint := by
  suffices hgood : r.Good hint from hgood.agreed
  induction h with
  | init => exact Run.Good.init
  | step _ hs hstep ih => exact ih.step hs hstep

/-! ### One message -/

def sampleHint : Hint where
  taskId := ascii "task"
  phaseId := ascii "phase"
  short := by decide

def sampleDigest (_ : Units) : HexDigest :=
  ⟨ascii "65b9a9dd7d83e419ebe74e82f4adb9760639f753e884d4a8a77f6fa049c5b6ce", by decide⟩

theorem frames_agreed_greeting : ∃ r : Run,
    r.published.map (fun p => (p.offset, p.type, p.content)) =
      [(0, .start, []), (1, .delta, ascii "Hi"), (2, .end, [])] ∧ r.Agreed sampleHint := by
  have h₀ : Runs sampleHint sampleDigest (Sendable sampleHint sampleDigest) {} := .init
  have h₁ := h₀.step (a := .event (.eventStart (ascii "e"))) (fun _ e m hm => by cases hm) rfl
  have h₂ := h₁.step (a := .event (.eventDelta (ascii "e") .omitted (some (ascii "Hi"))))
    (fun m text hm => by
      cases hm
      refine fun _ _ => ⟨fun m hm => ?_, fun _ _ => ⟨fun m hm => ?_, trivial⟩⟩
      all_goals
        cases hm
        decide +kernel) rfl
  have h₃ := h₂.step (a := .event (.message (ascii "e"))) (fun m text hm => by cases hm) rfl
  have h₄ := h₃.step (a := .wake) trivial rfl
  exact ⟨_, by decide, frames_agreed h₄⟩

/-! ### Control characters -/

/-- The observer once it was sent so many escape characters. -/
def escaped (n : ℕ) : Observer where
  messages := ⟨[{ newMessage sampleHint sampleDigest (ascii "e") with
    pending := List.replicate n 27 }], by simp⟩
  queue := [startFrame sampleHint (sampleDigest [])]
  bytes := n

lemma codePoints_escapes (n : ℕ) :
    codePoints (List.replicate n 27) = List.replicate n [27] := by
  rw [codePoints_plain (by simp [isHigh]), List.map_replicate]

lemma byteLength_escapes (n : ℕ) : byteLength (List.replicate n 27) = n := by
  simp [byteLength, codePoints_escapes, utf8Size]

lemma append_escaped {n : ℕ} (h : n + 1 < 4000) :
    ((escaped n).count [27]).append sampleHint (ascii "e") [27] = escaped (n + 1) := by
  have hlong : ¬ 4000 ≤ byteLength (List.replicate n 27 ++ [27]) := by
    rw [← List.replicate_succ', byteLength_escapes]
    omega
  have hget : ((escaped n).count [27]).messages.get? (ascii "e") =
      some { newMessage sampleHint sampleDigest (ascii "e") with
        pending := List.replicate n 27 } := rfl
  have hone : byteLength [27] = 1 := byteLength_escapes 1
  unfold append
  rw [hget]
  dsimp only
  rw [if_neg hlong]
  simp [put, Table.modify, Table.update, escaped, hone, List.replicate_succ', newMessage]

lemma appendAll_escaped (n k : ℕ) (h : n + k < 4000) :
    (escaped n).appendAll sampleHint (ascii "e") (List.replicate k [27]) = escaped (n + k) := by
  induction k generalizing n with
  | zero => rfl
  | succ k ih =>
    have hbytes : ¬ maxPreviewBytes < (escaped n).bytes + byteLength [27] := by
      have : byteLength [27] = 1 := byteLength_escapes 1
      rw [this]
      simp only [escaped]
      unfold maxPreviewBytes
      omega
    rw [List.replicate_succ, appendAll]
    rw [if_neg hbytes, append_escaped (by omega), ih (n + 1) (by omega)]
    congr 1
    omega

/-- A frame that is too large is refused. -/
lemma parse_large {p : Preview} (h : maxFrameBytes < byteLength p.stringify) (taskId : Units) :
    parsePreview p taskId = none := by
  simp [parsePreview, h]

/-- JSON takes six bytes for an escape character. -/
lemma escaped_large {n : ℕ} (h : maxFrameBytes ≤ 6 * n) (p : Preview)
    (htext : p.text = some (List.replicate n 27)) : maxFrameBytes < byteLength p.stringify := by
  have hquote : (quote (List.replicate n 27)).length = 6 * n + 2 := by
    simp [quote, codePoints_escapes, escape, escapeUnit, List.length_flatMap, Nat.mul_comm]
  refine Nat.lt_of_lt_of_le ?_ (length_le_byteLength _)
  simp only [Preview.stringify, htext, List.length_append, hquote]
  omega

/-- A message of so many escape characters, all in one delta that the publisher's timer sends. -/
lemma escaped_published {n : ℕ} (hn : 0 < n) (hshort : n < 4000) : ∃ r : Run,
    Runs sampleHint sampleDigest (fun _ _ => True) r ∧
      ∃ p ∈ r.published, p.text = some (List.replicate n 27) := by
  have h₀ : Runs sampleHint sampleDigest (fun _ _ => True) {} := .init
  have h₁ := h₀.step (a := .event (.eventStart (ascii "e"))) trivial rfl
  have hdelta : (escaped 0).handle sampleHint sampleDigest
      (.eventDelta (ascii "e") .omitted (some (List.replicate n 27))) = escaped n := by
    have hloop : (escaped 0).handle sampleHint sampleDigest
        (.eventDelta (ascii "e") .omitted (some (List.replicate n 27))) =
          (escaped 0).appendAll sampleHint (ascii "e") (codePoints (List.replicate n 27)) := rfl
    rw [hloop, codePoints_escapes, appendAll_escaped 0 n (by omega), Nat.zero_add]
  have h₂ : Runs sampleHint sampleDigest (fun _ _ => True)
      { observer := escaped n, deltas := [(ascii "e", List.replicate n 27)] } := by
    rw [← hdelta]
    exact h₁.step (a := .event (.eventDelta (ascii "e") .omitted (some (List.replicate n 27))))
      trivial rfl
  obtain ⟨k, rfl⟩ := Nat.exists_eq_succ_of_ne_zero (Nat.pos_iff_ne_zero.mp hn)
  have h₃ := h₂.step (a := .wake) trivial rfl
  exact ⟨_, h₃, _, List.mem_cons_of_mem (startFrame sampleHint (sampleDigest []))
    (List.mem_singleton_self (deltaFrame sampleHint
      { newMessage sampleHint sampleDigest (ascii "e") with
        pending := List.replicate (k + 1) 27 })), rfl⟩

/-- The text of fourteen hundred escape characters is refused. -/
theorem frames_refused : ∃ r : Run, Runs sampleHint sampleDigest (fun _ _ => True) r ∧
    ¬ r.Agreed sampleHint := by
  obtain ⟨r, hr, p, hp, htext⟩ := escaped_published (n := 1400) (by decide) (by decide)
  refine ⟨r, hr, fun hagreed => ?_⟩
  have hparsed := hagreed.agrees.parsed p hp
  rw [parse_large (escaped_large (by decide) p htext)] at hparsed
  cases hparsed

end ManagedAgents.CmaPreview
