import Mathlib
import ManagedAgents.Lib.JsString
import ManagedAgents.Lib.Table

/-!
The frames of ephemeral assistant text and the accumulator that puts them together, from
`contract.ts` of the preview package. Strings are those of JavaScript, well formed or not.
-/

namespace ManagedAgents.Preview

open ManagedAgents.Lib

inductive FrameType
  | start | delta | «end»
  deriving DecidableEq

/-- Ephemeral assistant text only. -/
structure Frame where
  previewId : Units
  offset : ℕ
  type : FrameType
  text : Option Units := none
  deriving DecidableEq

def maxPreviewBytes : ℕ := 262144

/-- What the accumulator knows of one preview. -/
structure PreviewState where
  previewId : Units
  next : ℕ := 0
  text : Units := []
  ended : Bool := false

abbrev States := Table PreviewState.previewId

structure PreviewAccumulator where
  states : States := .empty
  bytes : ℕ := 0

/-- What an accepted frame makes of its preview. -/
structure Update where
  id : Units
  text : Units
  start : Bool
  «end» : Bool

namespace PreviewAccumulator

/-- Change the state of one preview. -/
def put (a : PreviewAccumulator) (state : PreviewState) : PreviewAccumulator :=
  let change (r : PreviewState) : PreviewState := { state with previewId := r.previewId }
  { a with states := a.states.modify state.previewId change fun _ => rfl }

/-- The state a frame is for; an unknown preview begins with its start frame. -/
def find (a : PreviewAccumulator) (p : Frame) : Option (PreviewAccumulator × PreviewState) :=
  match a.states.get? p.previewId with
  | some state => some (a, state)
  | none =>
    if p.type != .start || p.offset != 0 || a.states.rows.length ≥ 32 then none
    else
      let state : PreviewState := { previewId := p.previewId }
      (a.states.insert state).map fun states => ({ a with states }, state)

/-- Take the frame that was waited for. -/
def take (a : PreviewAccumulator) (state : PreviewState) (p : Frame) :
    PreviewAccumulator × Option Update :=
  let text := p.text.getD []
  let state := { state with next := state.next + 1 }
  let a := { a with bytes := a.bytes + byteLength text }
  if text ≠ [] ∧ a.bytes > maxPreviewBytes then (a.put { state with ended := true }, none)
  else
    let state := { state with text := state.text ++ text, ended := p.type == .end }
    let update : Update :=
      { id := p.previewId, text := state.text, start := p.type == .start, «end» := state.ended }
    (a.put state, some update)

def accept (a : PreviewAccumulator) (p : Frame) : PreviewAccumulator × Option Update :=
  match a.find p with
  | none => (a, none)
  | some (a, state) =>
    if state.ended || p.offset < state.next then (a, none)
    else if p.offset != state.next || (p.type == .start && state.next != 0) then
      -- a gap invalidates the whole preview
      (a.put { state with ended := true }, none)
    else a.take state p

variable {a b : PreviewAccumulator} {p : Frame} {state : PreviewState} {id : Units}

@[simp] lemma get?_put : (a.put state).states.get? id =
    if id = state.previewId then (a.states.get? id).map fun _ => state else a.states.get? id := by
  simp only [put, Table.get?_modify]
  split
  · rename_i hid
    subst hid
    cases hrow : a.states.get? state.previewId with
    | none => rfl
    | some r => simp [Table.get?_key hrow]
  · rfl

/-- The frame finds its state, unless it is refused; only a start frame makes a new one. -/
lemma find_cases (h : a.find p = some (b, state)) :
    state.previewId = p.previewId ∧ b.states.get? p.previewId = some state ∧
    (∀ id, id ≠ p.previewId → b.states.get? id = a.states.get? id) ∧
    (a.states.get? p.previewId = some state ∨
      a.states.get? p.previewId = none ∧ p.type = .start ∧ p.offset = 0 ∧
        state = { previewId := p.previewId }) := by
  unfold find at h
  cases hrow : a.states.get? p.previewId with
  | some r =>
    simp only [hrow, Option.some.injEq, Prod.mk.injEq] at h
    obtain ⟨rfl, rfl⟩ := h
    exact ⟨Table.get?_key hrow, hrow, fun _ _ => rfl, .inl rfl⟩
  | none =>
    simp only [hrow] at h
    split at h
    · cases h
    · rename_i hstart
      obtain ⟨states, hinsert, heq⟩ := Option.map_eq_some_iff.mp h
      obtain ⟨rfl, rfl⟩ := Prod.mk.injEq .. ▸ heq
      have hget := Table.get?_insert hinsert
      simp only [Bool.or_eq_true, bne_iff_ne, decide_eq_true_eq, not_or, not_not] at hstart
      refine ⟨rfl, by simp [hget], fun id hid => by simp [hget, hid], .inr ⟨rfl, ?_⟩⟩
      exact ⟨hstart.1.1, hstart.1.2, rfl⟩

/-- What a frame does to the accumulator. An accepted frame is the first one of a new preview, or
the one its preview waits for; a refused one only ends previews. -/
inductive Accepts (a : PreviewAccumulator) (p : Frame) : PreviewAccumulator × Option Update → Prop
  | refused {b : PreviewAccumulator} (kept : ∀ id state, a.states.get? id = some state →
        ∃ state', b.states.get? id = some state' ∧ state.next ≤ state'.next)
      (alive : ∀ id state, b.states.get? id = some state → state.ended = false →
        a.states.get? id = some state) : Accepts a p (b, none)
  | accepted {b : PreviewAccumulator} (update : Update) (state : PreviewState)
      (waiting : a.states.get? p.previewId = none ∧ p.type = .start ∨
        ∃ old, a.states.get? p.previewId = some old ∧ old.ended = false ∧
          (p.type = .start → old.next = 0))
      (id_eq : update.id = p.previewId) (start_eq : update.start = (p.type == .start))
      (end_eq : update.end = (p.type == .end)) (next_pos : 0 < state.next)
      (ended_eq : state.ended = (p.type == .end))
      (states_eq : ∀ id, b.states.get? id =
        if id = p.previewId then some state else a.states.get? id) : Accepts a p (b, some update)

lemma take_accepts (hid : state.previewId = p.previewId)
    (hget : b.states.get? p.previewId = some state)
    (hother : ∀ id, id ≠ p.previewId → b.states.get? id = a.states.get? id)
    (hold : a.states.get? p.previewId = some state ∨
      a.states.get? p.previewId = none ∧ p.type = .start ∧ p.offset = 0 ∧
        state = { previewId := p.previewId })
    (hended : state.ended = false) (hstart : p.type = .start → state.next = 0) :
    a.Accepts p (b.take state p) := by
  have hput : ∀ (c : PreviewAccumulator) (state' : PreviewState), c.states = b.states →
      state'.previewId = p.previewId → ∀ id, (c.put state').states.get? id =
        if id = p.previewId then some state' else a.states.get? id := by
    intro c state' hc hid' id
    rw [get?_put, hid', hc]
    split
    · rename_i hid
      rw [hid, hget]
      rfl
    · rename_i hne
      exact hother id hne
  unfold take
  dsimp only
  split
  · have hover := hput { b with bytes := b.bytes + byteLength (p.text.getD []) }
      { state with next := state.next + 1, ended := true } rfl hid
    refine .refused (fun id old h => ?_) fun id new h halive => ?_
    · rw [hover]
      by_cases hne : id = p.previewId
      · subst hne
        rw [if_pos rfl]
        refine ⟨_, rfl, ?_⟩
        rcases hold with hold | ⟨hold, -⟩
        · rw [hold, Option.some.injEq] at h
          subst h
          simp
        · rw [hold] at h
          cases h
      · rw [if_neg hne]
        exact ⟨old, h, Nat.le_refl _⟩
    · rw [hover] at h
      split at h
      · cases h
        simp at halive
      · exact h
  · refine .accepted _ _ ?_ rfl rfl rfl (Nat.succ_pos state.next) rfl (hput _ _ rfl hid)
    rcases hold with hold | ⟨hold, htype, -⟩
    · exact .inr ⟨state, hold, hended, hstart⟩
    · exact .inl ⟨hold, htype⟩

lemma accept_accepts : a.Accepts p (a.accept p) := by
  unfold accept
  cases hfind : a.find p with
  | none => exact .refused (fun id state h => ⟨state, h, Nat.le_refl _⟩) fun id state h _ => h
  | some found =>
    obtain ⟨b, state⟩ := found
    obtain ⟨hid, hget, hother, hold⟩ := find_cases hfind
    dsimp only
    split
    · -- a preview that is over, or a frame that was there already
      rename_i hskip
      refine .refused (fun id old h => ?_) fun id new h halive => ?_
      all_goals
        rcases hold with hold | ⟨-, -, hoffset, rfl⟩
        · by_cases hne : id = p.previewId
          · subst hne
            simp_all
          · simp_all
        · simp [hoffset] at hskip
    · rename_i hgoes
      split
      · rename_i hgap
        have hold : a.states.get? p.previewId = some state := by
          rcases hold with hold | ⟨-, -, hoffset, rfl⟩
          · exact hold
          · simp [hoffset] at hgap
        refine .refused (fun id old h => ?_) fun id new h halive => ?_
        · rw [get?_put]
          by_cases hne : id = p.previewId
          · subst hne
            simp_all
          · simp_all
        · rw [get?_put] at h
          by_cases hne : id = p.previewId
          · subst hne
            simp only [hid, if_true, hget, Option.map_some, Option.some.injEq] at h
            subst h
            simp at halive
          · simp only [hid, hne, if_false] at h
            rwa [← hother id hne]
      · rename_i hexpected
        simp only [Bool.or_eq_true, decide_eq_true_eq, not_or, Bool.not_eq_true] at hgoes
        refine take_accepts hid hget hother hold hgoes.1 fun hstart => ?_
        have hexpected : p.offset = state.next ∧ state.next = 0 := by simpa [hstart] using hexpected
        exact hexpected.2

end PreviewAccumulator

end ManagedAgents.Preview
