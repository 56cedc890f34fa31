import Mathlib.Data.List.Dedup
import Mathlib.Data.List.Range
import ManagedAgents.Preview.Contract

/-!
The accumulator shows a contiguous beginning of each preview, whatever frames it is given.

Frames are the values that pass `parsePreview`, so their offsets are natural numbers.
-/

namespace ManagedAgents.Preview

open ManagedAgents.Lib

/-- The text a frame carries. -/
def Frame.content (p : Frame) : Units := p.text.getD []

namespace PreviewAccumulator

/-! ### One frame -/

/-- The preview takes no more frames: it is over, or it never began and there are too many. -/
def Shut (a : PreviewAccumulator) (id : Units) : Prop :=
  (∃ state, a.states.get? id = some state ∧ state.ended = true) ∨
    (a.states.get? id = none ∧ 32 ≤ a.states.rows.length)

/-- The state a frame that is accepted finds: its preview's, or that of a new one. -/
inductive Awaits (a : PreviewAccumulator) (p : Frame) (state : PreviewState) : Prop
  | known (row : a.states.get? p.previewId = some state) (alive : state.ended = false)
    (expected : p.offset = state.next) (start : p.type = .start → state.next = 0)
  | new (none : a.states.get? p.previewId = none) (room : a.states.rows.length < 32)
    (start : p.type = .start) (offset : p.offset = 0) (fresh : state = { previewId := p.previewId })

/-- What a frame that is accepted does. -/
structure Shows (a b : PreviewAccumulator) (p : Frame) (update : Update) (state : PreviewState) :
    Prop where
  awaits : a.Awaits p state
  row : b.states.get? p.previewId = some
    { state with next := state.next + 1, text := state.text ++ p.content, ended := p.type == .end }
  others : ∀ id, id ≠ p.previewId → b.states.get? id = a.states.get? id
  bytes : b.bytes = a.bytes + byteLength p.content
  fits : p.content = [] ∨ b.bytes ≤ maxPreviewBytes
  rows : b.states.rows.length ≤ max 32 a.states.rows.length
  grows : a.states.rows.length ≤ b.states.rows.length
  text : update.text = state.text ++ p.content

/-- What a frame that is refused may do: it may end its preview. One that is not behind does, if its
preview began or would begin with it. -/
structure Refuses (a b : PreviewAccumulator) (p : Frame) : Prop where
  row : b.states.get? p.previewId = a.states.get? p.previewId ∨
    ∃ state, b.states.get? p.previewId = some state ∧ state.ended = true
  others : ∀ id, id ≠ p.previewId → b.states.get? id = a.states.get? id
  bytes : a.bytes ≤ b.bytes
  rows : b.states.rows.length ≤ max 32 a.states.rows.length
  grows : a.states.rows.length ≤ b.states.rows.length
  ends : (∀ state, a.states.get? p.previewId = some state → state.next ≤ p.offset) →
    (a.states.get? p.previewId = none → p.type = .start ∧ p.offset = 0) → b.Shut p.previewId

variable {a b : PreviewAccumulator} {p : Frame} {state : PreviewState} {id : Units}

@[simp] lemma length_put : (a.put state).states.rows.length = a.states.rows.length := by
  simp only [put, Table.length_modify]

@[simp] lemma bytes_put : (a.put state).bytes = a.bytes := rfl

/-- The rows after a frame found its state. -/
lemma find_rows (h : a.find p = some (b, state)) :
    b.bytes = a.bytes ∧ a.states.rows.length ≤ b.states.rows.length ∧
      b.states.rows.length ≤ max 32 a.states.rows.length ∧
      (a.states.get? p.previewId = none → a.states.rows.length < 32) := by
  unfold find at h
  split at h
  · rename_i hrow
    cases h
    exact ⟨rfl, Nat.le_refl _, Nat.le_max_right _ _, fun hnone => by simp [hnone] at hrow⟩
  · rename_i hnone
    split at h
    · cases h
    · rename_i hstart
      obtain ⟨t, ht, hrows⟩ := Table.insert_free (t := a.states)
        (r := ({ previewId := p.previewId } : PreviewState)) hnone
      simp only [ht, Option.map_some, Option.some.injEq, Prod.mk.injEq] at h
      obtain ⟨rfl, -⟩ := h
      simp only [Bool.or_eq_true, decide_eq_true_eq, not_or] at hstart
      have hlen : t.rows.length = a.states.rows.length + 1 := by simp [hrows]
      refine ⟨rfl, ?_, ?_, fun _ => by omega⟩ <;> dsimp only <;> omega

/-- A frame that no state is found for. -/
lemma refuses_unknown (h : a.find p = none) : a.Refuses a p := by
  unfold find at h
  split at h
  · cases h
  · rename_i hnone
    refine ⟨.inl rfl, fun _ _ => rfl, Nat.le_refl _, Nat.le_max_right _ _, Nat.le_refl _,
      fun _ hbegins => ?_⟩
    obtain ⟨hstart, hoffset⟩ := hbegins hnone
    split at h
    · rename_i hfull
      simp only [hstart, hoffset, bne_self_eq_false, Bool.false_or, decide_eq_true_eq] at hfull
      exact .inr ⟨hnone, hfull⟩
    · obtain ⟨t, ht, -⟩ := Table.insert_free (t := a.states)
        (r := ({ previewId := p.previewId } : PreviewState)) hnone
      simp [ht] at h

/-- A frame that ends its preview. -/
lemma refuses_ended (hfind : a.find p = some (b, state)) (n : ℕ) (extra : ℕ) :
    a.Refuses
      ({ b with bytes := b.bytes + extra }.put { state with next := n, ended := true }) p := by
  obtain ⟨hid, hget, hother, -⟩ := find_cases hfind
  obtain ⟨hbytes, hgrows, hrows, -⟩ := find_rows hfind
  have hrow : ({ b with bytes := b.bytes + extra }.put
      { state with next := n, ended := true }).states.get? p.previewId =
      some { state with next := n, ended := true } := by
    rw [get?_put, hid, if_pos rfl, hget]
    rfl
  have hshut : ({ b with bytes := b.bytes + extra }.put
      { state with next := n, ended := true }).Shut p.previewId := .inl ⟨_, hrow, rfl⟩
  refine ⟨.inr ⟨_, hrow, rfl⟩, fun id hne => ?_, ?_, ?_, ?_, fun _ _ => hshut⟩
  · rw [get?_put, hid, if_neg hne]
    exact hother id hne
  · rw [bytes_put, ← hbytes]
    exact Nat.le_add_right _ _
  · rw [length_put]
    exact hrows
  · rw [length_put]
    exact hgrows

/-- **One frame** is refused, or it is the one its preview waits for. -/
lemma accept_cases (a : PreviewAccumulator) (p : Frame) :
    ((a.accept p).2 = none ∧ a.Refuses (a.accept p).1 p) ∨
      ∃ update state, (a.accept p).2 = some update ∧ a.Shows (a.accept p).1 p update state := by
  unfold accept
  cases hfind : a.find p with
  | none => exact .inl ⟨rfl, refuses_unknown hfind⟩
  | some found =>
    obtain ⟨b, state⟩ := found
    obtain ⟨hid, hget, hother, hold⟩ := find_cases hfind
    obtain ⟨hbytes, hgrows, hrows, hroom⟩ := find_rows hfind
    dsimp only
    split
    · -- over, or behind
      rename_i hskip
      have hknown : a.states.get? p.previewId = some state := by
        rcases hold with hold | ⟨-, -, hoffset, rfl⟩
        · exact hold
        · simp [hoffset] at hskip
      refine .inl ⟨rfl, .inl (hget.trans hknown.symm), hother, hbytes.ge, hrows, hgrows,
        fun hahead _ => .inl ⟨state, hget, ?_⟩⟩
      have hnext := hahead state hknown
      simp only [Bool.or_eq_true, decide_eq_true_eq] at hskip
      rcases hskip with hended | hbehind
      · exact hended
      · omega
    · rename_i hgoes
      simp only [Bool.or_eq_true, decide_eq_true_eq, not_or, Bool.not_eq_true] at hgoes
      split
      · exact .inl ⟨rfl, refuses_ended hfind state.next 0⟩
      · rename_i hexpected
        simp only [Bool.or_eq_true, Bool.and_eq_true, bne_iff_ne, beq_iff_eq, not_or, not_and,
          not_not] at hexpected
        obtain ⟨hoffset, hstart⟩ := hexpected
        unfold take
        dsimp only
        split
        · exact .inl ⟨rfl, refuses_ended hfind _ _⟩
        · rename_i hfits
          refine .inr ⟨_, state, rfl, ?_, ?_, fun id hne => ?_, ?_, ?_, ?_, ?_, rfl⟩
          · rcases hold with hold | ⟨hnone, htype, hzero, hnew⟩
            · exact .known hold hgoes.1 hoffset hstart
            · exact .new hnone (hroom hnone) htype hzero hnew
          · rw [get?_put, hid, if_pos rfl]
            dsimp only
            rw [hget]
            rfl
          · rw [get?_put, hid, if_neg hne]
            exact hother id hne
          · rw [bytes_put, hbytes]
            rfl
          · rw [bytes_put]
            simp only [not_and_or, not_not, Nat.not_lt] at hfits
            exact hfits
          · rw [length_put]
            exact hrows
          · rw [length_put]
            exact hgrows

lemma Shut.refuses (h : a.Shut p.previewId) : (a.accept p).2 = none := by
  rcases accept_cases a p with ⟨hnone, -⟩ | ⟨update, state, -, hshows⟩
  · exact hnone
  · rcases h with ⟨old, hold, hended⟩ | ⟨hnone, hfull⟩
    · cases hshows.awaits with
      | known hrow halive =>
        rw [hrow, Option.some.injEq] at hold
        subst hold
        rw [halive] at hended
        cases hended
      | new hnone =>
        rw [hnone] at hold
        cases hold
    · cases hshows.awaits with
      | known hrow =>
        rw [hrow] at hnone
        cases hnone
      | new _ hroom => omega

/-- What is shut stays so. -/
lemma Shut.accept (h : a.Shut id) (p : Frame) : (a.accept p).1.Shut id := by
  have hkeep : ∀ {b : PreviewAccumulator}, b.states.get? id = a.states.get? id →
      a.states.rows.length ≤ b.states.rows.length → b.Shut id := by
    intro b hrow hgrows
    unfold Shut
    rw [hrow]
    exact h.imp_right fun h => ⟨h.1, h.2.trans hgrows⟩
  by_cases hid : id = p.previewId
  · subst hid
    rcases accept_cases a p with ⟨-, hrefuses⟩ | ⟨update, state, hsome, -⟩
    · rcases hrefuses.row with hrow | hended
      · exact hkeep hrow hrefuses.grows
      · exact .inl hended
    · rw [h.refuses] at hsome
      cases hsome
  · rcases accept_cases a p with ⟨-, hrefuses⟩ | ⟨update, state, -, hshows⟩
    · exact hkeep (hrefuses.others id hid) hrefuses.grows
    · exact hkeep (hshows.others id hid) hshows.grows

/-! ### Any frames -/

/-- The accumulator after some frames. -/
def after (frames : List Frame) : PreviewAccumulator :=
  frames.foldl (fun a p => (a.accept p).1) {}

/-- The frames that an accumulator accepts. -/
def accepts (a : PreviewAccumulator) : List Frame → List Frame
  | [] => []
  | p :: rest =>
    if (a.accept p).2.isSome then p :: (a.accept p).1.accepts rest else (a.accept p).1.accepts rest

/-- The frames that are accepted. -/
def accepted (frames : List Frame) : List Frame := accepts {} frames

/-- The ones of one preview. -/
def acceptedOf (id : Units) (frames : List Frame) : List Frame :=
  (accepted frames).filter (·.previewId == id)

/-- The texts of some frames, one after the other. -/
def joined (frames : List Frame) : Units := (frames.map (·.content)).flatten

/-- How many bytes of text some frames carry. -/
def size (frames : List Frame) : ℕ := (frames.map (byteLength ·.content)).sum

section

variable {frames rest : List Frame}

@[simp] lemma after_snoc : after (frames ++ [p]) = ((after frames).accept p).1 := by
  simp [after]

lemma accepts_append (a : PreviewAccumulator) : a.accepts (frames ++ rest) =
    a.accepts frames ++ (frames.foldl (fun a p => (a.accept p).1) a).accepts rest := by
  induction frames generalizing a with
  | nil => rfl
  | cons p frames ih =>
    simp only [List.cons_append, accepts, List.foldl_cons, ih]
    split <;> rfl

lemma accepted_snoc : accepted (frames ++ [p]) =
    accepted frames ++ if ((after frames).accept p).2.isSome then [p] else [] := by
  simp only [accepted, accepts_append, accepts]
  rfl

lemma accepted_subset : accepted frames ⊆ frames := by
  induction frames using List.reverseRecOn with
  | nil => exact List.Subset.refl _
  | append_singleton frames p ih =>
    rw [accepted_snoc]
    refine List.append_subset.mpr ⟨fun q hq => List.mem_append_left _ (ih hq), ?_⟩
    split <;> simp

lemma acceptedOf_snoc : acceptedOf id (frames ++ [p]) = acceptedOf id frames ++
    if ((after frames).accept p).2.isSome ∧ p.previewId = id then [p] else [] := by
  rw [acceptedOf, accepted_snoc, List.filter_append, acceptedOf]
  congr 1
  by_cases haccept : ((after frames).accept p).2.isSome = true
  · by_cases hid : p.previewId = id
    · simp [haccept, hid]
    · simp [haccept, hid]
  · simp [haccept]

lemma joined_snoc : joined (frames ++ [p]) = joined frames ++ p.content := by
  simp [joined]

/-- What the accumulator knows of the frames that it accepted. -/
structure Follows (a : PreviewAccumulator) (frames : List Frame) : Prop where
  alive : ∀ id state, a.states.get? id = some state → state.ended = false →
    state.next = (acceptedOf id frames).length ∧ state.text = joined (acceptedOf id frames)
  begun : ∀ id state, a.states.get? id = some state → state.ended = false → 0 < state.next
  unknown : ∀ id, a.states.get? id = none → acceptedOf id frames = []
  offsets : ∀ id, (acceptedOf id frames).map (·.offset) = List.range (acceptedOf id frames).length
  starts : ∀ id p, (acceptedOf id frames).head? = some p → p.type = .start
  bytes : size (accepted frames) ≤ a.bytes
  fits : size (accepted frames) ≤ maxPreviewBytes
  rows : a.states.rows.length ≤ 32

lemma follows_init : Follows {} [] := by
  refine ⟨fun id state h => ?_, fun id state h => ?_, fun _ _ => rfl, fun _ => rfl,
    fun _ _ h => ?_, ?_, ?_, ?_⟩
  · cases h
  · cases h
  · cases h
  all_goals exact Nat.zero_le _

lemma Follows.refused (h : Follows (after frames) frames)
    (hnone : ((after frames).accept p).2 = none)
    (hrefuses : (after frames).Refuses ((after frames).accept p).1 p) :
    Follows (after (frames ++ [p])) (frames ++ [p]) := by
  have hof : ∀ id, acceptedOf id (frames ++ [p]) = acceptedOf id frames := by
    simp [acceptedOf_snoc, hnone]
  have hall : accepted (frames ++ [p]) = accepted frames := by
    simp [accepted_snoc, hnone]
  have halive : ∀ id state, ((after frames).accept p).1.states.get? id = some state →
      state.ended = false → (after frames).states.get? id = some state := by
    intro id state hrow halive
    by_cases hid : id = p.previewId
    · subst hid
      rcases hrefuses.row with hsame | ⟨state', hrow', hended⟩
      · rwa [hsame] at hrow
      · rw [hrow, Option.some.injEq] at hrow'
        subst hrow'
        rw [halive] at hended
        cases hended
    · rwa [hrefuses.others id hid] at hrow
  rw [after_snoc]
  refine ⟨fun id state hrow hended => ?_, fun id state hrow hended => ?_, fun id hrow => ?_,
    fun id => ?_, fun id => ?_, ?_, ?_, ?_⟩
  · rw [hof]
    exact h.alive id state (halive id state hrow hended) hended
  · exact h.begun id state (halive id state hrow hended) hended
  · rw [hof]
    by_cases hid : id = p.previewId
    · subst hid
      rcases hrefuses.row with hsame | ⟨state', hrow', -⟩
      · exact h.unknown _ (hsame.symm.trans hrow)
      · rw [hrow] at hrow'
        cases hrow'
    · exact h.unknown id ((hrefuses.others id hid).symm.trans hrow)
  · rw [hof]
    exact h.offsets id
  · rw [hof]
    exact h.starts id
  · rw [hall]
    exact h.bytes.trans hrefuses.bytes
  · rw [hall]
    exact h.fits
  · have := hrefuses.rows
    have := h.rows
    omega

/-- The state an accepted frame finds is its preview's so far. -/
lemma Follows.awaited (h : Follows (after frames) frames)
    (hawaits : (after frames).Awaits p state) :
    state.next = (acceptedOf p.previewId frames).length ∧
      state.text = joined (acceptedOf p.previewId frames) ∧ p.offset = state.next ∧
      (acceptedOf p.previewId frames = [] → p.type = .start) := by
  cases hawaits with
  | known hrow halive hoffset hstart =>
    obtain ⟨hnext, htext⟩ := h.alive _ state hrow halive
    refine ⟨hnext, htext, hoffset, fun hnone => ?_⟩
    have hbegun := h.begun _ state hrow halive
    simp [hnext, hnone] at hbegun
  | new hnone hroom hstart hoffset hfresh =>
    subst hfresh
    rw [h.unknown _ hnone]
    exact ⟨rfl, rfl, hoffset, fun _ => hstart⟩

lemma Follows.accepted {update : Update} (h : Follows (after frames) frames)
    (hsome : ((after frames).accept p).2 = some update)
    (hshows : (after frames).Shows ((after frames).accept p).1 p update state) :
    Follows (after (frames ++ [p])) (frames ++ [p]) := by
  have hown : acceptedOf p.previewId (frames ++ [p]) = acceptedOf p.previewId frames ++ [p] := by
    simp [acceptedOf_snoc, hsome]
  have hof : ∀ id, id ≠ p.previewId → acceptedOf id (frames ++ [p]) = acceptedOf id frames := by
    intro id hid
    simp [acceptedOf_snoc, Ne.symm hid]
  have hall : PreviewAccumulator.accepted (frames ++ [p]) =
      PreviewAccumulator.accepted frames ++ [p] := by
    simp [accepted_snoc, hsome]
  have hsize : size (PreviewAccumulator.accepted (frames ++ [p])) =
      size (PreviewAccumulator.accepted frames) + byteLength p.content := by
    simp [hall, size]
  obtain ⟨hnext, htext, hoffset, hstart⟩ := h.awaited hshows.awaits
  rw [after_snoc]
  refine ⟨fun id st hrow halive => ?_, fun id st hrow halive => ?_, fun id hrow => ?_,
    fun id => ?_, fun id q hq => ?_, ?_, ?_, ?_⟩
  · by_cases hid : id = p.previewId
    · subst hid
      rw [hshows.row, Option.some.injEq] at hrow
      subst hrow
      rw [hown]
      refine ⟨by simp [hnext], ?_⟩
      rw [joined_snoc, htext]
    · rw [hof id hid]
      exact h.alive id st ((hshows.others id hid).symm.trans hrow) halive
  · by_cases hid : id = p.previewId
    · subst hid
      rw [hshows.row, Option.some.injEq] at hrow
      subst hrow
      exact Nat.succ_pos _
    · exact h.begun id st ((hshows.others id hid).symm.trans hrow) halive
  · by_cases hid : id = p.previewId
    · subst hid
      rw [hshows.row] at hrow
      cases hrow
    · rw [hof id hid]
      exact h.unknown id ((hshows.others id hid).symm.trans hrow)
  · by_cases hid : id = p.previewId
    · subst hid
      rw [hown, List.map_append, h.offsets, List.length_append, List.length_singleton,
        List.range_succ, List.map_cons, List.map_nil, hoffset, hnext]
    · rw [hof id hid]
      exact h.offsets id
  · by_cases hid : id = p.previewId
    · subst hid
      rw [hown] at hq
      cases hbefore : acceptedOf p.previewId frames with
      | nil =>
        rw [hbefore, List.nil_append, List.head?_cons, Option.some.injEq] at hq
        subst hq
        exact hstart hbefore
      | cons first others =>
        rw [hbefore] at hq
        exact h.starts p.previewId q (by rw [hbefore]; exact hq)
    · rw [hof id hid] at hq
      exact h.starts id q hq
  · rw [hsize, hshows.bytes]
    exact Nat.add_le_add_right h.bytes _
  · rw [hsize]
    rcases hshows.fits with hempty | hfits
    · rw [hempty]
      exact h.fits
    · have := hshows.bytes
      have := h.bytes
      omega
  · have := hshows.rows
    have := h.rows
    omega

lemma follows (frames : List Frame) : Follows (after frames) frames := by
  induction frames using List.reverseRecOn with
  | nil => exact follows_init
  | append_singleton frames p ih =>
    rcases accept_cases (after frames) p with ⟨hnone, hrefuses⟩ | ⟨update, state, hsome, hshows⟩
    · exact ih.refused hnone hrefuses
    · exact ih.accepted hsome hshows

lemma Shut.stays (h : (after frames).Shut id) (rest : List Frame) :
    acceptedOf id (frames ++ rest) = acceptedOf id frames := by
  have hstays : (after (frames ++ rest)).Shut id ∧
      acceptedOf id (frames ++ rest) = acceptedOf id frames := by
    induction rest using List.reverseRecOn with
    | nil => simpa using h
    | append_singleton rest p ih =>
      obtain ⟨hshut, hsame⟩ := ih
      rw [← List.append_assoc, after_snoc]
      refine ⟨hshut.accept p, ?_⟩
      rw [acceptedOf_snoc, hsame]
      by_cases hid : p.previewId = id
      · subst hid
        simp [hshut.refuses]
      · simp [hid]
  exact hstays.2

/-- The frame is the last one its preview takes: its end, or one that is refused though it is not
behind, of a preview that began or would begin with it. So are a gap and a frame over the limit. -/
def Last (frames : List Frame) (p : Frame) : Prop :=
  let taken := (acceptedOf p.previewId frames).length
  match ((after frames).accept p).2 with
  | some _ => p.type = .end
  | none => taken ≤ p.offset ∧ (0 < taken ∨ p.type = .start ∧ p.offset = 0)

lemma Last.shut (h : Last frames p) : (after (frames ++ [p])).Shut p.previewId := by
  have hfollows := follows frames
  rw [after_snoc]
  rcases accept_cases (after frames) p with ⟨hnone, hrefuses⟩ | ⟨update, state, hsome, hshows⟩
  · simp only [Last, hnone] at h
    obtain ⟨hahead, hbegins⟩ := h
    by_cases hended : ∃ state, (after frames).states.get? p.previewId = some state ∧
        state.ended = true
    · exact Shut.accept (.inl hended) p
    refine hrefuses.ends (fun state hrow => ?_) fun hrow => ?_
    · have halive : state.ended = false := by
        by_contra halive
        exact hended ⟨state, hrow, by simpa using halive⟩
      rw [(hfollows.alive _ state hrow halive).1]
      exact hahead
    · rw [hfollows.unknown _ hrow] at hbegins
      simpa using hbegins
  · simp only [Last, hsome] at h
    exact .inl ⟨_, hshows.row, by simp [h]⟩

/-- A gap is refused. -/
lemma last_gap (hbegun : 0 < (acceptedOf p.previewId frames).length)
    (hgap : (acceptedOf p.previewId frames).length < p.offset) : Last frames p := by
  rcases accept_cases (after frames) p with ⟨hnone, -⟩ | ⟨update, state, -, hshows⟩
  · simp only [Last, hnone]
    exact ⟨Nat.le_of_lt hgap, .inl hbegun⟩
  · obtain ⟨hnext, -, hoffset, -⟩ := (follows frames).awaited hshows.awaits
    omega

/-- The accepted frames of an honest sender carry the first of its texts. -/
lemma contents_sent {sender : List Units}
    (hsent : ∀ p ∈ acceptedOf id frames, sender[p.offset]? = some p.content) :
    (acceptedOf id frames).map (·.content) = sender.take (acceptedOf id frames).length := by
  have hoffset : ∀ i (hi : i < (acceptedOf id frames).length),
      (acceptedOf id frames)[i].offset = i := by
    intro i hi
    have hmap := congrArg (·[i]?) ((follows frames).offsets id)
    simpa [hi] using hmap
  refine List.ext_getElem? fun i => ?_
  by_cases hi : i < (acceptedOf id frames).length
  · have htext := hsent _ (List.getElem_mem hi)
    rw [hoffset i hi] at htext
    simp [hi, htext]
  · rw [List.getElem?_eq_none (by simpa using hi), List.getElem?_eq_none]
    simp only [List.length_take]
    omega

/-- No more previews are accepted than there are states. -/
lemma accepted_ids (frames : List Frame) :
    ((accepted frames).map (·.previewId)).dedup.length ≤ 32 := by
  have hfollows := follows frames
  have hsub : ((accepted frames).map (·.previewId)).dedup ⊆
      (after frames).states.rows.map PreviewState.previewId := by
    intro id hid
    obtain ⟨p, hp, rfl⟩ := List.mem_map.mp (List.mem_dedup.mp hid)
    cases hrow : (after frames).states.get? p.previewId with
    | none =>
      have hmem : p ∈ acceptedOf p.previewId frames := by simp [acceptedOf, hp]
      rw [hfollows.unknown _ hrow] at hmem
      cases hmem
    | some state =>
      obtain ⟨hmem, hkey⟩ := Table.get?_eq_some.mp hrow
      exact List.mem_map.mpr ⟨state, hmem, hkey⟩
  have hlen := (List.nodup_dedup _).length_le_of_subset hsub
  rw [List.length_map] at hlen
  exact hlen.trans hfollows.rows

/-- **The accumulator shows beginnings.** The frames of a preview that are accepted carry the
offsets from 0 on, once each, and begin with a start; an update shows their texts so far. No frame
of a preview is accepted after its last one. All accepted text fits, and so do the previews. What is
shown of an honest sender is a beginning of its text. -/
theorem shows_beginnings (frames : List Frame) :
    (∀ id, (acceptedOf id frames).map (·.offset) = List.range (acceptedOf id frames).length ∧
      ∀ p, (acceptedOf id frames).head? = some p → p.type = .start) ∧
    (∀ p update, ((after frames).accept p).2 = some update →
      update.text = joined (acceptedOf p.previewId (frames ++ [p]))) ∧
    (∀ p, Last frames p → ∀ rest,
      acceptedOf p.previewId (frames ++ p :: rest) = acceptedOf p.previewId (frames ++ [p])) ∧
    size (accepted frames) ≤ maxPreviewBytes ∧
    ((accepted frames).map (·.previewId)).dedup.length ≤ 32 ∧
    ∀ sender : Units → List Units,
      (∀ p ∈ frames, (sender p.previewId)[p.offset]? = some p.content) →
      ∀ id, ∃ later, (sender id).flatten = joined (acceptedOf id frames) ++ later := by
  have hfollows := follows frames
  refine ⟨fun id => ⟨hfollows.offsets id, hfollows.starts id⟩, fun p update hupdate => ?_,
    fun p hlast rest => ?_, hfollows.fits, accepted_ids frames, fun sender hsent id => ?_⟩
  · rcases accept_cases (after frames) p with ⟨hnone, -⟩ | ⟨update', state, hsome, hshows⟩
    · rw [hnone] at hupdate
      cases hupdate
    · rw [hsome, Option.some.injEq] at hupdate
      subst hupdate
      obtain ⟨-, htext, -, -⟩ := hfollows.awaited hshows.awaits
      have hown :
          acceptedOf p.previewId (frames ++ [p]) = acceptedOf p.previewId frames ++ [p] := by
        simp [acceptedOf_snoc, hsome]
      rw [hshows.text, hown, joined_snoc, htext]
  · have hstays := hlast.shut.stays rest
    rwa [List.append_assoc, List.singleton_append] at hstays
  · have hown : ∀ p ∈ acceptedOf id frames, (sender id)[p.offset]? = some p.content := by
      intro p hp
      obtain ⟨hmem, hid⟩ := List.mem_filter.mp hp
      rw [← beq_iff_eq.mp hid]
      exact hsent p (accepted_subset hmem)
    have htake := contents_sent hown
    refine ⟨((sender id).drop (acceptedOf id frames).length).flatten, ?_⟩
    rw [joined, htake, ← List.flatten_append, List.take_append_drop]

/-- A preview whose second delta was dropped, with a duplicate. -/
def dropped : List Frame :=
  [⟨ascii "a", 0, .start, none⟩, ⟨ascii "a", 1, .delta, some (ascii "first ")⟩,
    ⟨ascii "a", 1, .delta, some (ascii "first ")⟩, ⟨ascii "a", 3, .delta, some (ascii "third")⟩]

def spoken : List Units := ["", "first ", "second ", "third"].map ascii

theorem shows_beginnings_dropped :
    joined (acceptedOf (ascii "a") dropped) = ascii "first " ∧
      ∃ later, spoken.flatten = joined (acceptedOf (ascii "a") dropped) ++ later := by
  refine ⟨by decide +kernel, ?_⟩
  obtain ⟨-, -, -, -, -, hhonest⟩ := shows_beginnings dropped
  exact hhonest (fun _ => spoken) (by decide) (ascii "a")

end

end PreviewAccumulator

end ManagedAgents.Preview
