import Mathlib.Data.List.Infix
import Mathlib.Data.List.Range
import ManagedAgents.CmaPreview.Observer

/-!
The frames the observer makes pass the consumers' check, a delta's when it is not too large; and the
frames of one message, in order.
-/

namespace ManagedAgents.CmaPreview

open ManagedAgents.Lib
open ManagedAgents.Preview (FrameType)

/-! ### The consumers' check -/

/-- A frame without a text is small. -/
lemma byteLength_stringify {p : Preview} (hv : p.v = 1) (htask : p.taskId.length < 256)
    (hid : p.previewId.length = 64) (hoffset : p.offset < 10 ^ 6) (htext : p.text = none) :
    byteLength p.stringify ≤ maxFrameBytes := by
  have hname : (typeName p.type).length ≤ 5 := by
    cases p.type <;> decide
  have h₁ := length_quote_le p.taskId
  have h₂ := length_quote_le p.previewId
  have h₃ := length_quote_le (typeName p.type)
  have h₄ := length_decimal_le (by decide) hoffset
  have h₅ : (decimal p.v).length ≤ 1 := length_decimal_le (by decide) (by omega)
  have hkeys : (ascii "\x7b\"v\":").length = 5 ∧ (ascii ",\"taskId\":").length = 10 ∧
      (ascii ",\"previewId\":").length = 13 ∧ (ascii ",\"offset\":").length = 10 ∧
      (ascii ",\"type\":").length = 8 ∧ (ascii "\x7d").length = 1 := by
    decide
  have hlen : p.stringify.length ≤ 2100 := by
    simp only [Preview.stringify, htext, List.length_append, List.length_nil, hkeys]
    omega
  have := byteLength_le p.stringify
  unfold maxFrameBytes
  omega

lemma parse_eq {p : Preview} {taskId : Units} (id : HexDigest) (hv : p.v = 1)
    (htask : p.taskId = taskId) (hid : p.previewId = id.1) (hoffset : p.offset < 10 ^ 6)
    (hfits : p.textFits = true) (hsize : byteLength p.stringify ≤ maxFrameBytes) :
    parsePreview p taskId = some p := by
  have hhex : (p.previewId.length == 64 && p.previewId.all isHex) = true := by
    simp [hid, id.2.1, id.2.2]
  have hsafe : ¬ maxSafeInteger < p.offset := by
    unfold maxSafeInteger
    omega
  simp [parsePreview, hv, htask, hhex, hsafe, hfits, Nat.not_lt.mpr hsize]

variable {hint : Hint}

lemma parse_start (id : HexDigest) :
    parsePreview (startFrame hint id) hint.taskId = some (startFrame hint id) :=
  parse_eq id rfl rfl rfl (by simp [startFrame]) rfl
    (byteLength_stringify rfl hint.short id.2.1 (by simp [startFrame]) rfl)

lemma parse_delta {m : Message} (hpending : m.pending ≠ []) (hoffset : m.offset < 10 ^ 6)
    (hsize : byteLength (deltaFrame hint m).stringify ≤ maxFrameBytes) :
    parsePreview (deltaFrame hint m) hint.taskId = some (deltaFrame hint m) :=
  parse_eq m.id rfl rfl rfl hoffset (by simp [Preview.textFits, deltaFrame, hpending]) hsize

lemma parse_end {m : Message} (hoffset : m.offset < 10 ^ 6) :
    parsePreview (endFrame hint m) hint.taskId = some (endFrame hint m) :=
  parse_eq m.id rfl rfl rfl hoffset rfl
    (byteLength_stringify rfl hint.short m.id.2.1 hoffset rfl)

/-! ### A message's story -/

/-- The text a frame carries. -/
def Preview.content (p : Preview) : Units := p.text.getD []

/-- The deltas of a message. -/
def deltasOf (hint : Hint) (id : HexDigest) (texts : List Units) : List Preview :=
  texts.mapIdx fun i text =>
    { v := 1
      taskId := hint.taskId
      previewId := id.1
      offset := i + 1
      type := .delta
      text := some text }

/-- The end of a message with so many deltas. -/
def endingOf (hint : Hint) (id : HexDigest) (count : ℕ) : Preview :=
  { v := 1
    taskId := hint.taskId
    previewId := id.1
    offset := count + 1
    type := .end }

/-- All frames of a message: its start, its deltas, and its end when it is over. -/
def story (hint : Hint) (id : HexDigest) (texts : List Units) (ended : Bool) : List Preview :=
  startFrame hint id :: deltasOf hint id texts ++
    if ended then [endingOf hint id texts.length] else []

/-- The frames tell the message, but for what is pending. -/
def Told (hint : Hint) (m : Message) (frames : List Preview) (text : Units) : Prop :=
  ∃ texts, frames = story hint m.id texts m.ended ∧ texts.flatten ++ m.pending = text ∧
    m.offset = texts.length + 1 + (if m.ended then 1 else 0) ∧ ∀ t ∈ texts, t ≠ []

variable {m : Message} {frames : List Preview} {text : Units}

lemma Told.append (h : Told hint m frames text) (char : Units) :
    Told hint { m with pending := m.pending ++ char } frames (text ++ char) := by
  obtain ⟨texts, hframes, htext, hoffset, hne⟩ := h
  exact ⟨texts, hframes, by rw [← htext, List.append_assoc], hoffset, hne⟩

lemma Told.sent (h : Told hint m frames text) (hpending : m.pending ≠ [])
    (halive : m.ended = false) :
    Told hint { m with offset := m.offset + 1, pending := [] } (frames ++ [deltaFrame hint m])
      text := by
  obtain ⟨texts, hframes, htext, hoffset, hne⟩ := h
  simp only [halive, Bool.false_eq_true, if_false, Nat.add_zero] at hoffset
  refine ⟨texts ++ [m.pending], ?_, ?_, ?_, ?_⟩
  · simp [hframes, halive, story, deltasOf, deltaFrame, hoffset]
  · simp [htext]
  · simp [hoffset, halive]
  · intro t ht
    rcases List.mem_append.mp ht with ht | ht
    · exact hne t ht
    · rw [List.mem_singleton.mp ht]
      exact hpending

lemma Told.ends (h : Told hint m frames text) (halive : m.ended = false) :
    Told hint { m with ended := true, offset := m.offset + 1 } (frames ++ [endFrame hint m])
      text := by
  obtain ⟨texts, hframes, htext, hoffset, hne⟩ := h
  simp only [halive, Bool.false_eq_true, if_false, Nat.add_zero] at hoffset
  refine ⟨texts, ?_, htext, ?_, hne⟩
  · simp [hframes, halive, story, endingOf, endFrame, hoffset]
  · simp [hoffset]

lemma Told.offset_le (h : Told hint m frames text) (halive : m.ended = false) :
    m.offset + m.pending.length ≤ text.length + 1 := by
  obtain ⟨texts, -, htext, hoffset, hne⟩ := h
  simp only [halive, Bool.false_eq_true, if_false, Nat.add_zero] at hoffset
  have hcount : texts.length ≤ texts.flatten.length := by
    clear htext hoffset
    induction texts with
    | nil => simp
    | cons t texts ih =>
      have hfirst := List.length_pos_iff.mpr (hne t (by simp))
      have hrest := ih fun t ht => hne t (by simp [ht])
      simp only [List.length_cons, List.flatten_cons, List.length_append]
      omega
  rw [← htext, List.length_append]
  omega

/-- The frames of a message are numbered, begin with its only start, and only the last one can be an
end; they carry the text. -/
structure Orderly (frames : List Preview) : Prop where
  offsets : frames.map Preview.offset = List.range frames.length
  start : ∀ (i : ℕ) p, frames[i]? = some p → (p.type = .start ↔ i = 0)
  last : ∀ (i : ℕ) p, frames[i]? = some p → p.type = .end → i + 1 = frames.length

lemma Orderly.of_prefix {all : List Preview} (h : Orderly all) (hbegin : frames <+: all) :
    Orderly frames := by
  obtain ⟨rest, rfl⟩ := hbegin
  have hget : ∀ (i : ℕ) p, frames[i]? = some p → (frames ++ rest)[i]? = some p := by
    intro i p hp
    have hi := (List.getElem?_eq_some_iff.mp hp).1
    rw [List.getElem?_append_left hi, hp]
  refine ⟨?_, fun i p hp => h.start i p (hget i p hp), fun i p hp htype => ?_⟩
  · have hoffsets := congrArg (List.take frames.length) h.offsets
    simpa [List.take_range] using hoffsets
  · have hlast := h.last i p (hget i p hp) htype
    have hi := (List.getElem?_eq_some_iff.mp hp).1
    rw [List.length_append] at hlast
    omega

lemma story_get {id : HexDigest} {texts : List Units} {ended : Bool} {i : ℕ} {p : Preview}
    (h : (story hint id texts ended)[i]? = some p) :
    p.offset = i ∧ (p.type = .start ↔ i = 0) ∧
      (p.type = .end → i + 1 = (story hint id texts ended).length) := by
  cases i with
  | zero =>
    obtain rfl : startFrame hint id = p := by simpa [story] using h
    simp [startFrame]
  | succ i =>
    have hrest : (deltasOf hint id texts ++
        if ended then [endingOf hint id texts.length] else [])[i]? = some p := by
      simpa [story] using h
    rw [List.getElem?_append] at hrest
    split at hrest
    · rename_i hlt
      obtain ⟨text, -, rfl⟩ : ∃ text, texts[i]? = some text ∧ p =
          { v := 1, taskId := hint.taskId, previewId := id.1, offset := i + 1, type := .delta,
            text := some text } := by
        rw [deltasOf, List.getElem?_mapIdx, Option.map_eq_some_iff] at hrest
        obtain ⟨text, htext, rfl⟩ := hrest
        exact ⟨text, htext, rfl⟩
      simp
    · rename_i hge
      have hlen : (deltasOf hint id texts).length = texts.length := by simp [deltasOf]
      cases ended with
      | false => simp at hrest
      | true =>
        obtain ⟨hi, rfl⟩ : i = texts.length ∧ p = endingOf hint id texts.length := by
          rw [if_pos rfl, List.getElem?_singleton] at hrest
          split at hrest
          · exact ⟨by omega, (Option.some.inj hrest).symm⟩
          · cases hrest
        simp [endingOf, story, hi, hlen]

/-- Only a message that is over has an end. -/
lemma story_end {id : HexDigest} {texts : List Units} {ended : Bool} {p : Preview}
    (h : p ∈ story hint id texts ended) (htype : p.type = .end) : ended = true := by
  by_contra halive
  have hdelta : p = startFrame hint id ∨ p ∈ deltasOf hint id texts := by
    simpa [story, halive] using h
  rcases hdelta with rfl | hdelta
  · cases htype
  · obtain ⟨i, hi, rfl⟩ := List.mem_mapIdx.mp hdelta
    cases htype

lemma story_orderly (id : HexDigest) (texts : List Units) (ended : Bool) :
    Orderly (story hint id texts ended) := by
  refine ⟨?_, fun i p hp => (story_get hp).2.1, fun i p hp => (story_get hp).2.2⟩
  refine List.ext_getElem? fun i => ?_
  rw [List.getElem?_map]
  cases hp : (story hint id texts ended)[i]? with
  | none =>
    have hi := List.getElem?_eq_none_iff.mp hp
    simp [hi]
  | some p =>
    have hi := (List.getElem?_eq_some_iff.mp hp).1
    simp [(story_get hp).1, hi]

lemma story_content (id : HexDigest) (texts : List Units) (ended : Bool) :
    (story hint id texts ended).flatMap Preview.content = texts.flatten := by
  have hdeltas : (deltasOf hint id texts).flatMap Preview.content = texts.flatten := by
    rw [List.flatMap_def]
    congr 1
    refine List.ext_getElem? fun i => ?_
    simp only [deltasOf, List.getElem?_map, List.getElem?_mapIdx, Option.map_map]
    exact Option.map_id'
  simp only [story, List.flatMap_append, List.flatMap_cons, hdeltas]
  cases ended <;> simp [startFrame, endingOf, Preview.content]

end ManagedAgents.CmaPreview
