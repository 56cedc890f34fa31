import Mathlib.Logic.Relation
import ManagedAgents.Lib.Crew
import ManagedAgents.Lib.Transcript

/-!
A crew's log as the chronicle of its programs.

When every call is logged with its caller, a program's file is what the log has of it, and every
entry was allowed by what its caller had said and heard before.
-/

namespace ManagedAgents.Lib

variable {Call : Type} {Reply : Call → Type} {Err W L κ S : Type}

/-- A call as it was answered, with the state before and after it. -/
structure Deed (Reply : Call → Type) (Err S : Type) where
  actor : Actor
  said : Prog.Exchange Reply Err
  before : S
  after : S

namespace Chronicle

/-- What one program said and heard. -/
def of (i : ℕ) (log : List (Deed Reply Err S)) : List (Prog.Exchange Reply Err) :=
  (log.filter fun e => e.actor = .worker i).map Deed.said

lemma of_cons_self {i : ℕ} {e : Deed Reply Err S} {log : List (Deed Reply Err S)}
    (h : e.actor = .worker i) :
    of i (e :: log) = e.said :: of i log := by
  simp [of, h]

lemma of_cons_ne {i : ℕ} {e : Deed Reply Err S} {log : List (Deed Reply Err S)}
    (h : e.actor ≠ .worker i) :
    of i (e :: log) = of i log := by
  simp [of, h]

lemma mem_of {i : ℕ} {x : Prog.Exchange Reply Err} {log : List (Deed Reply Err S)} :
    x ∈ of i log ↔ ∃ e ∈ log, e.actor = .worker i ∧ e.said = x := by
  simp [of, and_assoc]

/-- What a program said and heard in some order is in the log in that order. -/
lemma sublist_of {i : ℕ} {xs : List (Prog.Exchange Reply Err)} {log : List (Deed Reply Err S)}
    (h : xs.Sublist (of i log)) :
    ∃ es : List (Deed Reply Err S), es.Sublist log ∧ (∀ e ∈ es, e.actor = .worker i) ∧
      es.map Deed.said = xs := by
  obtain ⟨es, hes, rfl⟩ := List.sublist_map_iff.mp h
  refine ⟨es, hes.trans List.filter_sublist, fun e he => ?_, rfl⟩
  simpa using (List.mem_filter.mp (hes.subset he)).2

/-- What a program said and heard at some point is its entry in the log. -/
lemma split_of {i : ℕ} {x : Prog.Exchange Reply Err} {since before : List (Prog.Exchange Reply Err)}
    {log : List (Deed Reply Err S)} (h : of i log = since ++ x :: before) :
    ∃ later e earlier, log = later ++ e :: earlier ∧ e.actor = .worker i ∧ e.said = x ∧
      of i later = since := by
  obtain ⟨first, second, hfilter, hfirst, hsecond⟩ := List.map_eq_append_iff.mp h
  obtain ⟨e, rest, rfl, rfl, -⟩ := List.map_eq_cons_iff.mp hsecond
  obtain ⟨newer, older, rfl, hnewer, holder⟩ := List.filter_eq_append_iff.mp hfilter
  obtain ⟨mid, earlier, rfl, hmid, hactor, -⟩ := List.filter_eq_cons_iff.mp holder
  refine ⟨newer ++ mid, e, earlier, by simp, of_decide_eq_true hactor, rfl, ?_⟩
  have hnone : mid.filter (fun e => e.actor = .worker i) = [] :=
    List.filter_eq_nil_iff.mpr fun m hm => by simpa using hmid m hm
  rw [of, List.filter_append, hnone, List.append_nil, hnewer, hfirst]

/-- The last thing a program said and heard is its last entry in the log. -/
lemma head_of {i : ℕ} {x : Prog.Exchange Reply Err} {log : List (Deed Reply Err S)}
    (h : (of i log).head? = some x) :
    ∃ mid e rest, log = mid ++ e :: rest ∧ e.actor = .worker i ∧ e.said = x ∧
      ∀ m ∈ mid, m.actor ≠ .worker i := by
  obtain ⟨before, hbefore⟩ := List.head?_eq_some_iff.mp h
  have hsplit : of i log = [] ++ x :: before := hbefore
  obtain ⟨mid, e, rest, hlog, hactor, hsaid, hmid⟩ := split_of hsplit
  refine ⟨mid, e, rest, hlog, hactor, hsaid, fun m hm hown => ?_⟩
  have hmem := mem_of.mpr ⟨m, hm, hown, rfl⟩
  rw [hmid] at hmem
  exact List.not_mem_nil hmem

/-- A longer log has more of everyone. -/
lemma of_suffix {i : ℕ} {log log' : List (Deed Reply Err S)} (h : log <:+ log') :
    of i log <:+ of i log' := (h.filter _).map _

/-- A program that says each `A` some steps after a `B` says no more of them. -/
lemma countP_of_le {i n : ℕ} {A B : Prog.Exchange Reply Err → Bool} {log : List (Deed Reply Err S)}
    (h : ∀ later e earlier, log = later ++ e :: earlier → e.actor = .worker i → A e.said = true →
      ∃ x, (of i earlier)[n]? = some x ∧ B x = true) :
    (of i log).countP A ≤ ((of i log).drop (n + 1)).countP B := by
  induction log with
  | nil => simp [of]
  | cons e log ih =>
    have hle := ih fun later e' earlier hlog =>
      h (e :: later) e' earlier (by rw [hlog, List.cons_append])
    by_cases he : e.actor = .worker i
    · rw [of_cons_self he, List.countP_cons, List.drop_succ_cons]
      by_cases hA : A e.said = true
      · obtain ⟨x, hx, hB⟩ := h [] e log rfl he hA
        obtain ⟨hlt, hget⟩ := List.getElem?_eq_some_iff.mp hx
        rw [List.drop_eq_getElem_cons hlt, hget, List.countP_cons, if_pos hA, if_pos hB]
        exact Nat.add_le_add_right hle 1
      · rw [if_neg hA]
        exact hle.trans ((List.drop_sublist_drop_left _ (Nat.le_succ n)).countP_le)
    · rw [of_cons_ne he]
      exact hle

/-- There is one at most, and so it is this one. -/
lemma eq_of_once {α : Type} {p : α → Bool} {l : List α} {a b : α} (h : l.countP p ≤ 1) (ha : a ∈ l)
    (hpa : p a = true) (hb : b ∈ l) (hpb : p b = true) : a = b := by
  rw [List.countP_eq_length_filter] at h
  have ha' := List.mem_filter.mpr ⟨ha, hpa⟩
  have hb' := List.mem_filter.mpr ⟨hb, hpb⟩
  generalize l.filter p = found at h ha' hb'
  match found, h with
  | [x], _ => rw [List.mem_singleton.mp ha', List.mem_singleton.mp hb']

/-- When there is one `B` at most, and programs say each `A` some steps after a `B` of their own,
there is one `A` at most. -/
lemma once {n : ℕ} {A B : Prog.Exchange Reply Err → Bool} (log : List (Deed Reply Err S))
    (h : ∀ later e earlier, log = later ++ e :: earlier → A e.said = true →
      ∃ i x, e.actor = .worker i ∧ (of i earlier)[n]? = some x ∧ B x = true)
    (hB : (log.countP fun e => B e.said) ≤ 1) : (log.countP fun e => A e.said) ≤ 1 := by
  -- an entry of the one program that says a `B`
  have hsays : ∀ e ∈ log, A e.said = true → ∃ i, e.actor = .worker i ∧
      ∃ e' ∈ log, e'.actor = .worker i ∧ B e'.said = true := by
    intro e he hA
    obtain ⟨later, earlier, hlog⟩ := List.append_of_mem he
    obtain ⟨i, x, hactor, hx, hBx⟩ := h later e earlier hlog hA
    obtain ⟨e', he', hactor', rfl⟩ := mem_of.mp (List.mem_of_getElem? hx)
    exact ⟨i, hactor, e', by simp [hlog, he'], hactor', hBx⟩
  rcases Nat.eq_zero_or_pos (log.countP fun e => A e.said) with hnone | hsome
  · omega
  obtain ⟨e, he, hA⟩ := List.countP_pos_iff.mp hsome
  obtain ⟨i, hactor, b, hb, hbactor, hbB⟩ := hsays e he hA
  have hall : ∀ e' ∈ log, A e'.said = true → e'.actor = .worker i := by
    intro e' he' hA'
    obtain ⟨j, hactor', b', hb', hbactor', hbB'⟩ := hsays e' he' hA'
    rw [eq_of_once hB hb' hbB' hb hbB, hbactor] at hbactor'
    cases hbactor'
    exact hactor'
  calc (log.countP fun e => A e.said)
      = (of i log).countP A := by
        rw [of, List.countP_map, List.countP_filter]
        refine List.countP_congr fun e' he' => ?_
        simpa using fun hA' => hall e' he' hA'
    _ ≤ ((of i log).drop (n + 1)).countP B := by
        refine countP_of_le fun later e' earlier hlog hactor' hA' => ?_
        obtain ⟨j, x, hj, hx, hBx⟩ := h later e' earlier hlog hA'
        rw [hactor'] at hj
        cases hj
        exact ⟨x, hx, hBx⟩
    _ ≤ (of i log).countP B := (List.drop_sublist _ _).countP_le
    _ ≤ log.countP fun e => B e.said := by
        rw [of, List.countP_map]
        exact List.filter_sublist.countP_le
    _ ≤ 1 := hB

end Chronicle

section

variable {M : Works Call Reply Err L κ}
  {E : Environment Call Reply Err W} {possible : (c : Call) → Except Err (Reply c) → Prop}
  {allowed : Dossier L Reply Err → Call → Prop}
  {Q : L → Dossier L Reply Err → Prop} {w₀ : W} (log : W → List (Deed Reply Err S))

/-- The programs' files are what the log has of them, and its entries were allowed. -/
structure Chronicled (allowed : Dossier L Reply Err → Call → Prop) (s : Crew Call Reply Err W L κ)
    (knows : ℕ → Option (Dossier L Reply Err)) : Prop where
  started : ∀ e ∈ log s.world, ∀ i, e.actor = .worker i → i < s.started
  filed : ∀ i d, knows i = some d → s.job i = some d.job ∧ d.said = Chronicle.of i (log s.world)
  allowed : ∀ later e earlier i, log s.world = later ++ e :: earlier → e.actor = .worker i →
    ∃ l, s.job i = some l ∧ allowed ⟨⟨Chronicle.of i earlier⟩, l⟩ e.said.1

variable {log} {s : Crew Call Reply Err W L κ} {knows : ℕ → Option (Dossier L Reply Err)}

namespace Chronicled

/-- A program is started on an empty file. -/
lemma hire (h : Chronicled log allowed s knows) (hjob : s.job s.started = none) (l : L) :
    Chronicled log allowed (s.hire M l)
      (Function.update knows s.started (some { said := [], job := l })) := by
  have hkeep : ∀ {i l'}, s.job i = some l' → (s.hire M l).job i = some l' := by
    intro i l' hi
    have hne : i ≠ s.started := by
      rintro rfl
      rw [hjob] at hi
      cases hi
    simp only [Crew.hire, Function.update_of_ne hne, hi]
  refine ⟨fun e he i hi => Nat.lt_succ_of_lt (h.started e he i hi), fun i d hi => ?_, ?_⟩
  · by_cases hne : i = s.started
    · subst hne
      rw [Function.update_self] at hi
      cases hi
      refine ⟨by simp [Crew.hire], (List.eq_nil_iff_forall_not_mem.mpr fun x hx => ?_).symm⟩
      obtain ⟨e, he, hactor, -⟩ := Chronicle.mem_of.mp hx
      exact absurd (h.started e he _ hactor) (Nat.lt_irrefl _)
    · rw [Function.update_of_ne hne] at hi
      obtain ⟨hl, hsaid⟩ := h.filed i d hi
      exact ⟨hkeep hl, hsaid⟩
  · intro later e earlier i hlog hactor
    obtain ⟨l', hl', hallowed⟩ := h.allowed later e earlier i hlog hactor
    exact ⟨l', hkeep hl', hallowed⟩

/-- A call is put on file and in the log. -/
lemma call (h : Chronicled log allowed s knows) {i : ℕ} {d : Dossier L Reply Err} {c : Call}
    {r : Except Err (Reply c)} {w' : W} {e : Deed Reply Err S} {p : Prog Call Reply Err Unit}
    (hk : knows i = some d) (hallow : allowed d c) (hi : i < s.started)
    (hlog : log w' = e :: log s.world)
    (hactor : e.actor = .worker i) (hsaid : e.said = ⟨c, r⟩) :
    Chronicled log allowed (s.proceed i p w')
      (Function.update knows i (some ((Contract.filed possible allowed).learn d c r))) := by
  obtain ⟨hjob, hfile⟩ := h.filed i d hk
  refine ⟨fun e' he' j hj => ?_, fun j d' hj => ?_, ?_⟩
  · simp only [Crew.proceed, hlog] at he'
    rcases List.mem_cons.mp he' with rfl | he'
    · rw [hactor] at hj
      cases hj
      exact hi
    · exact h.started e' he' j hj
  · simp only [Crew.proceed, hlog]
    by_cases hne : j = i
    · subst hne
      rw [Function.update_self] at hj
      cases hj
      rw [Chronicle.of_cons_self hactor, hsaid]
      refine ⟨hjob, ?_⟩
      rw [← hfile]
      rfl
    · rw [Function.update_of_ne hne] at hj
      rw [Chronicle.of_cons_ne fun h => hne (Actor.worker.inj (h.symm.trans hactor))]
      exact h.filed j d' hj
  · intro later e' earlier j hlog' hactor'
    simp only [Crew.proceed, hlog] at hlog' ⊢
    rcases later with _ | ⟨first, later⟩
    · obtain ⟨rfl, rfl⟩ := List.cons.inj hlog'
      rw [hactor] at hactor'
      cases hactor'
      refine ⟨d.job, hjob, ?_⟩
      rw [hsaid, ← hfile]
      exact hallow
    · exact h.allowed later e' earlier j (List.cons.inj hlog').2 hactor'

end Chronicled

variable [DecidableEq κ]

/-- **Chronicle.** When every job's program keeps a contract that is read off its file, and every
call is logged, a reachable crew's log allows each of its entries by what came before. -/
theorem Crew.Tracked.chronicled
    (hexec : ∀ {w i c r w'}, E.exec w (.worker i) c r w' →
      ∃ e, log w' = e :: log w ∧ e.actor = .worker i ∧ e.said = ⟨c, r⟩)
    (hdrift : ∀ {w w'}, E.drift w w' → log w' = log w) (hinit : log w₀ = [])
    (hs : Tracked M E (Contract.filed possible allowed) (fun l => { said := [], job := l }) Q w₀
      s knows) :
    Chronicled log allowed s knows := by
  induction hs with
  | init =>
    refine ⟨fun e he => ?_, (fun i d h => by cases h), fun later e earlier i h => ?_⟩
    · rw [show (Crew.init w₀ : Crew Call Reply Err W L κ).world = w₀ from rfl, hinit] at he
      cases he
    · rw [show (Crew.init w₀ : Crew Call Reply Err W L κ).world = w₀ from rfl, hinit] at h
      simp at h
  | start hs hl ih => exact ih.hire (hs.reachable.unhired (Nat.le_refl _)) _
  | deliver hs hl hx ih =>
    obtain ⟨hstarted, hfiled, hallowed⟩ :=
      ih.hire (M := M) (hs.reachable.unhired (Nat.le_refl _)) _
    exact ⟨hstarted, hfiled, hallowed⟩
  | @call s knows i k c next r w' hs hi hk ha hp hc hquiet ih =>
    obtain ⟨e, hlog, hactor, hsaid⟩ := hexec hc
    have hlt : i < s.started := by
      by_contra hge
      rw [hs.reachable.started (Nat.le_of_not_lt hge)] at hi
      cases hi
    exact ih.call hk ha hlt hlog hactor hsaid
  | @send s knows i k c next r w' hs hi hk ha hp hc ih =>
    obtain ⟨e, hlog, hactor, hsaid⟩ := hexec hc
    have hlt : i < s.started := by
      by_contra hge
      rw [hs.reachable.started (Nat.le_of_not_lt hge)] at hi
      cases hi
    obtain ⟨hstarted, hfiled, hallowed⟩ := ih.call (p := next r) hk ha hlt hlog hactor hsaid
    exact ⟨hstarted, hfiled, hallowed⟩
  | settle hs hi hl hx hk hQ ih =>
    refine ⟨ih.started, fun j d hj => ?_, ih.allowed⟩
    rw [Function.update_apply] at hj
    split at hj
    · cases hj
    · exact ih.filed j d hj
  | drop hs hl hi ih =>
    refine ⟨ih.started, fun j d hj => ?_, ih.allowed⟩
    rw [Function.update_apply] at hj
    split at hj
    · cases hj
    · exact ih.filed j d hj
  | post hs x ih => exact ⟨ih.started, ih.filed, ih.allowed⟩
  | drift hs hd ih =>
    have hlog := hdrift hd
    refine ⟨?_, ?_, ?_⟩
    · dsimp only
      rw [hlog]
      exact ih.started
    · dsimp only
      rw [hlog]
      exact ih.filed
    · dsimp only
      rw [hlog]
      exact ih.allowed

end

/-! ### Parties -/

section

variable {E : Environment Call Reply Err W} {allowed : Transcript Reply Err → Call → Prop}
  {outside : Call → Prop} {w₀ : W} (log : W → List (Deed Reply Err S))

/-- The parties' transcripts are what the log has of them, and its entries were allowed. -/
structure Parties.Chronicled (allowed : Transcript Reply Err → Call → Prop)
    (s : Parties (Transcript Reply Err) W) : Prop where
  joined : ∀ e ∈ log s.world, ∀ i, e.actor = .worker i → i < s.joined
  said : ∀ i t, s.knows i = some t → t.said = Chronicle.of i (log s.world)
  allowed : ∀ later e earlier i, log s.world = later ++ e :: earlier → e.actor = .worker i →
    allowed ⟨Chronicle.of i earlier⟩ e.said.1

variable {log} {s : Parties (Transcript Reply Err) W}

/-- An entry is added that its caller may make. -/
lemma Parties.Chronicled.note (h : s.Chronicled log allowed) {w' : W} {e : Deed Reply Err S}
    {knows : ℕ → Option (Transcript Reply Err)} (hlog : log w' = e :: log s.world)
    (hcaller : ∀ i, e.actor = .worker i →
      i < s.joined ∧ allowed ⟨Chronicle.of i (log s.world)⟩ e.said.1)
    (hknows : ∀ i t, knows i = some t → t.said = Chronicle.of i (e :: log s.world)) :
    Parties.Chronicled log allowed ⟨w', knows, s.joined⟩ := by
  refine ⟨fun e' he' i hi => ?_, fun i t hi => ?_, fun later e' earlier i hsplit hi => ?_⟩
  · dsimp only at he'
    rw [hlog] at he'
    rcases List.mem_cons.mp he' with rfl | he'
    · exact (hcaller i hi).1
    · exact h.joined e' he' i hi
  · dsimp only
    rw [hlog]
    exact hknows i t hi
  · dsimp only at hsplit
    rw [hlog] at hsplit
    rcases later with _ | ⟨first, later⟩
    · obtain ⟨rfl, rfl⟩ := List.cons.inj hsplit
      exact (hcaller i hi).2
    · exact h.allowed later e' earlier i (List.cons.inj hsplit).2 hi

/-- **Chronicle.** When every call is logged, what parties with transcripts have done is in the log,
and it allows each of its entries by what came before. -/
theorem Parties.Reachable.chronicled
    (hexec : ∀ {w a c r w'}, E.exec w a c r w' →
      ∃ e, log w' = e :: log w ∧ e.actor = a ∧ e.said = ⟨c, r⟩)
    (hdrift : ∀ {w w'}, E.drift w w' → log w' = log w) (hinit : log w₀ = [])
    (hs : Parties.Reachable (Contract.recorded allowed) E {} outside w₀ s) :
    s.Chronicled log allowed := by
  induction hs with
  | init => exact ⟨by simp [hinit], (fun i t h => by cases h), by simp [hinit]⟩
  | @step s _ hs h ih =>
    cases h with
    | join =>
      refine ⟨fun e he i hi => Nat.lt_succ_of_lt (ih.joined e he i hi),
        fun i t hi => ?_, ih.allowed⟩
      dsimp only at hi ⊢
      by_cases hne : i = s.joined
      · subst hne
        rw [Function.update_self] at hi
        cases hi
        refine (List.eq_nil_iff_forall_not_mem.mpr fun x hx => ?_).symm
        obtain ⟨e, he, hactor, -⟩ := Chronicle.mem_of.mp hx
        exact Nat.lt_irrefl _ (ih.joined e he _ hactor)
      · rw [Function.update_of_ne hne] at hi
        exact ih.said i t hi
    | leave j =>
      refine ⟨ih.joined, fun i t hi => ?_, ih.allowed⟩
      dsimp only at hi
      rw [Function.update_apply] at hi
      split at hi
      · cases hi
      · exact ih.said i t hi
    | @call j t c r w' hk hallow hc =>
      obtain ⟨e, hlog, hactor, hsaid⟩ := hexec hc
      have hfile := ih.said j t hk
      refine ih.note hlog (fun i hi => ?_) fun i t' hi => ?_
      · rw [hactor] at hi
        cases hi
        rw [hsaid, ← hfile]
        exact ⟨hs.joined hk, hallow⟩
      · by_cases hne : i = j
        · subst hne
          rw [Function.update_self] at hi
          cases hi
          rw [Chronicle.of_cons_self hactor, hsaid, ← hfile]
          rfl
        · rw [Function.update_of_ne hne] at hi
          rw [Chronicle.of_cons_ne (by rw [hactor]; exact fun h => hne (by cases h; rfl))]
          exact ih.said i t' hi
    | @outside c r w' ho hc =>
      obtain ⟨e, hlog, hactor, -⟩ := hexec hc
      have hclient : ∀ i, e.actor ≠ .worker i := by
        rw [hactor]
        exact fun i h => by cases h
      refine ih.note hlog (fun i hi => absurd hi (hclient i)) fun i t hi => ?_
      rw [Chronicle.of_cons_ne (hclient i)]
      exact ih.said i t hi
    | @drift w' hd =>
      have hlog := hdrift hd
      refine ⟨?_, ?_, ?_⟩
      · dsimp only
        rw [hlog]
        exact ih.joined
      · dsimp only
        rw [hlog]
        exact ih.said
      · dsimp only
        rw [hlog]
        exact ih.allowed

end

/-! ### A run as a history -/

/-- The state, and every call, newest first. -/
structure Ledger (Reply : Call → Type) (Err S : Type) where
  state : S
  log : List (Deed Reply Err S) := []

/-- Calls change the state and are logged, and in between the state drifts. -/
def Environment.logged (answers : S → (c : Call) → Except Err (Reply c) → S → Prop)
    (drifts : S → S → Prop) : Environment Call Reply Err (Ledger Reply Err S) where
  exec w a c r w' := ∃ st, answers w.state c r st ∧
    w' = { state := st, log := ⟨a, ⟨c, r⟩, w.state, st⟩ :: w.log }
  drift w w' := ∃ st, drifts w.state st ∧ w' = { w with state := st }

/-- Programs' calls one after the other, each allowed by its caller's job and what that heard. -/
inductive History (answers : S → (c : Call) → Except Err (Reply c) → S → Prop)
    (drifts : S → S → Prop) (allowed : Dossier L Reply Err → Call → Prop) (st₀ : S)
    (job : ℕ → Option L) : List (Deed Reply Err S) → S → Prop
  | init : History answers drifts allowed st₀ job [] st₀
  | call {log st i l c r st'} (h : History answers drifts allowed st₀ job log st)
    (hjob : job i = some l) (hallowed : allowed ⟨⟨Chronicle.of i log⟩, l⟩ c)
    (hanswer : answers st c r st') :
    History answers drifts allowed st₀ job (⟨.worker i, ⟨c, r⟩, st, st'⟩ :: log) st'
  | drift {log st st'} (h : History answers drifts allowed st₀ job log st) (hd : drifts st st') :
    History answers drifts allowed st₀ job log st'

/-- Every entry is as said, by what came before it. -/
def Throughout (P : Deed Reply Err S → List (Deed Reply Err S) → Prop) :
    List (Deed Reply Err S) → Prop
  | [] => True
  | e :: earlier => P e earlier ∧ Throughout P earlier

/-- The same, of a check. -/
def always (p : Deed Reply Err S → List (Deed Reply Err S) → Bool) : List (Deed Reply Err S) → Bool
  | [] => true
  | e :: earlier => p e earlier && always p earlier

lemma Throughout.of_always {P : Deed Reply Err S → List (Deed Reply Err S) → Prop}
    {p : Deed Reply Err S → List (Deed Reply Err S) → Bool}
    (hp : ∀ e earlier, p e earlier = true → P e earlier) {log : List (Deed Reply Err S)}
    (h : always p log = true) : Throughout P log := by
  induction log with
  | nil => trivial
  | cons e earlier ih =>
    rw [always, Bool.and_eq_true] at h
    exact ⟨hp e earlier h.1, ih h.2⟩

section

variable [DecidableEq κ] {M : Works Call Reply Err L κ}
  {answers : S → (c : Call) → Except Err (Reply c) → S → Prop} {drifts : S → S → Prop}
  {possible : (c : Call) → Except Err (Reply c) → Prop}
  {allowed : Dossier L Reply Err → Call → Prop}
  {Q : L → Dossier L Reply Err → Prop} {st₀ : S}

lemma History.mono {job job' : ℕ → Option L} {log : List (Deed Reply Err S)} {st : S}
    (h : History answers drifts allowed st₀ job log st)
    (hjob : ∀ {i l}, job i = some l → job' i = some l) :
    History answers drifts allowed st₀ job' log st := by
  induction h with
  | init => exact .init
  | call _ hi hallowed hanswer ih => exact ih.call (hjob hi) hallowed hanswer
  | drift _ hd ih => exact ih.drift hd

/-- **A crew's run is a history.** -/
theorem Crew.Tracked.history {s : Crew Call Reply Err (Ledger Reply Err S) L κ}
    {knows : ℕ → Option (Dossier L Reply Err)}
    (hs : Tracked M (.logged answers drifts) (Contract.filed possible allowed)
      (fun l => { said := [], job := l }) Q { state := st₀ } s knows) :
    History answers drifts allowed st₀ s.job s.world.log s.world.state := by
  have hhire : ∀ {s : Crew Call Reply Err (Ledger Reply Err S) L κ} (l : L),
      s.job s.started = none → History answers drifts allowed st₀ s.job s.world.log s.world.state →
      History answers drifts allowed st₀ (s.hire M l).job s.world.log s.world.state := by
    refine fun {s} l hfree h => h.mono fun {i l'} hi => ?_
    dsimp only [Crew.hire]
    rw [Function.update_of_ne, hi]
    rintro rfl
    rw [hfree] at hi
    cases hi
  have hcall : ∀ {s : Crew Call Reply Err (Ledger Reply Err S) L κ} {knows i d c r w'},
      Tracked M (.logged answers drifts) (Contract.filed possible allowed)
        (fun l => { said := [], job := l }) Q { state := st₀ } s knows →
      History answers drifts allowed st₀ s.job s.world.log s.world.state →
      knows i = some d → allowed d c →
      (Environment.logged answers drifts).exec s.world (.worker i) c r w' →
      History answers drifts allowed st₀ s.job w'.log w'.state := by
    intro s knows i d c r w' hs h hk ha hc
    have hchronicled : Chronicled Ledger.log allowed s knows := by
      refine hs.chronicled ?_ ?_ rfl
      · rintro w i c r w' ⟨st, -, rfl⟩
        exact ⟨_, rfl, rfl, rfl⟩
      · rintro w w' ⟨st, -, rfl⟩
        rfl
    obtain ⟨st, hanswer, rfl⟩ := hc
    obtain ⟨hjob, hsaid⟩ := hchronicled.filed i d hk
    refine h.call hjob ?_ hanswer
    rw [← hsaid]
    exact ha
  induction hs with
  | init => exact .init
  | start hs hl ih => exact hhire _ (hs.reachable.unhired (Nat.le_refl _)) ih
  | deliver hs hl hx ih => exact hhire _ (hs.reachable.unhired (Nat.le_refl _)) ih
  | call hs hi hk ha hp hc hquiet ih =>
    have hnext := hcall hs ih hk ha hc
    exact hnext
  | send hs hi hk ha hp hc ih =>
    have hnext := hcall hs ih hk ha hc
    exact hnext
  | settle hs hi hl hx hk hQ ih => exact ih
  | drop hs hl hi ih => exact ih
  | post hs x ih => exact ih
  | drift hs hd ih =>
    obtain ⟨st, hdrift, rfl⟩ := hd
    exact ih.drift hdrift

/-- Every entry of a history is a call that was answered so. -/
lemma History.answered {job : ℕ → Option L} {log : List (Deed Reply Err S)} {st : S}
    (h : History answers drifts allowed st₀ job log st) :
    ∀ e ∈ log, answers e.before e.said.1 e.said.2 e.after := by
  induction h with
  | init => exact nofun
  | call _ _ _ hanswer ih => exact List.forall_mem_cons.mpr ⟨hanswer, ih⟩
  | drift _ _ ih => exact ih

/-- Every entry of a history was allowed to its caller by what came before. -/
lemma History.made {job : ℕ → Option L} {log : List (Deed Reply Err S)} {st : S}
    (h : History answers drifts allowed st₀ job log st) :
    ∀ e ∈ log, ∃ i l, ∃ earlier : List (Deed Reply Err S), e.actor = .worker i ∧
      job i = some l ∧ allowed ⟨⟨Chronicle.of i earlier⟩, l⟩ e.said.1 := by
  induction h with
  | init => exact nofun
  | call _ hjob hallowed _ ih =>
    exact List.forall_mem_cons.mpr ⟨⟨_, _, _, rfl, hjob, hallowed⟩, ih⟩
  | drift _ _ ih => exact ih

/-- An entry of a history, with the history before it. -/
lemma History.split {job : ℕ → Option L} {log : List (Deed Reply Err S)} {st : S}
    (h : History answers drifts allowed st₀ job log st) {later earlier : List (Deed Reply Err S)}
    {e : Deed Reply Err S} (hlog : log = later ++ e :: earlier) :
    ∃ i l, e.actor = .worker i ∧ job i = some l ∧ allowed ⟨⟨Chronicle.of i earlier⟩, l⟩ e.said.1 ∧
      answers e.before e.said.1 e.said.2 e.after ∧
      History answers drifts allowed st₀ job earlier e.before := by
  induction h generalizing later with
  | init => simp at hlog
  | call h hjob hallowed hanswer ih =>
    rcases later with _ | ⟨first, later⟩
    · obtain ⟨rfl, rfl⟩ := List.cons.inj hlog
      exact ⟨_, _, rfl, hjob, hallowed, hanswer, h⟩
    · exact ih (List.cons.inj hlog).2
  | drift _ _ ih => exact ih hlog

/-- What every answer and every drift keeps holds between the start, an entry and the end. -/
lemma History.since {R : S → S → Prop} (hrefl : ∀ st, R st st)
    (htrans : ∀ {st st' st''}, R st st' → R st' st'' → R st st'')
    (hanswer : ∀ {st c r st'}, answers st c r st' → R st st')
    (hdrift : ∀ {st st'}, drifts st st' → R st st') {job : ℕ → Option L}
    {log : List (Deed Reply Err S)} {st : S} (h : History answers drifts allowed st₀ job log st) :
    R st₀ st ∧ ∀ e ∈ log, R st₀ e.before ∧ R e.after st := by
  induction h with
  | init => exact ⟨hrefl _, nofun⟩
  | call _ _ _ ha ih =>
    obtain ⟨hst, hlog⟩ := ih
    refine ⟨htrans hst (hanswer ha), List.forall_mem_cons.mpr ⟨⟨hst, hrefl _⟩, fun e he => ?_⟩⟩
    exact ⟨(hlog e he).1, htrans (hlog e he).2 (hanswer ha)⟩
  | drift _ hd ih =>
    obtain ⟨hst, hlog⟩ := ih
    exact ⟨htrans hst (hdrift hd), fun e he => ⟨(hlog e he).1, htrans (hlog e he).2 (hdrift hd)⟩⟩

/-- A program knows what the log has of it. -/
lemma Crew.Tracked.filed {s : Crew Call Reply Err (Ledger Reply Err S) L κ}
    {knows : ℕ → Option (Dossier L Reply Err)}
    (hs : Tracked M (.logged answers drifts) (Contract.filed possible allowed)
      (fun l => { said := [], job := l }) Q { state := st₀ } s knows) {i : ℕ}
    {d : Dossier L Reply Err} (hk : knows i = some d) :
    s.job i = some d.job ∧ d.said = Chronicle.of i s.world.log := by
  have hchronicled : Chronicled Ledger.log allowed s knows := by
    refine hs.chronicled ?_ ?_ rfl
    · rintro w i c r w' ⟨st, -, rfl⟩
      exact ⟨_, rfl, rfl, rfl⟩
    · rintro w w' ⟨st, -, rfl⟩
      rfl
  exact hchronicled.filed i d hk

/-! ### Later states -/

lemma Crew.Reachable.path {E : Environment Call Reply Err W} {w₀ : W}
    {s s' : Crew Call Reply Err W L κ} (hs : Reachable M E w₀ s)
    (h : Relation.ReflTransGen (Step M E) s s') : Reachable M E w₀ s' := by
  induction h with
  | refl => exact hs
  | tail _ hstep ih => exact .step ih hstep

/-- When every call is logged, each entry of the log is a call made in a state with the entries
before it. -/
lemma Crew.Reachable.moment {E : Environment Call Reply Err W} {w₀ : W} {δ : Type}
    (log : W → List δ)
    (hexec : ∀ {w i c r w'}, E.exec w (.worker i) c r w' → ∃ e, log w' = e :: log w)
    (hdrift : ∀ {w w'}, E.drift w w' → log w' = log w) (hinit : log w₀ = [])
    {s : Crew Call Reply Err W L κ} (hs : Reachable M E w₀ s) {later earlier : List δ} {e : δ}
    (h : log s.world = later ++ e :: earlier) :
    ∃ s₀ i c r w', Reachable M E w₀ s₀ ∧ E.exec s₀.world (.worker i) c r w' ∧
      log s₀.world = earlier ∧ log w' = e :: earlier := by
  induction hs generalizing later with
  | init =>
    rw [show (Crew.init w₀ : Crew Call Reply Err W L κ).world = w₀ from rfl, hinit] at h
    simp at h
  | @step s s' hs hstep ih =>
    have hcall : ∀ {i c r w'}, E.exec s.world (.worker i) c r w' →
        log w' = later ++ e :: earlier → ∃ s₀ i c r w', Reachable M E w₀ s₀ ∧
          E.exec s₀.world (.worker i) c r w' ∧ log s₀.world = earlier ∧ log w' = e :: earlier := by
      intro i c r w' hc h
      obtain ⟨e', hlog⟩ := hexec hc
      rcases later with _ | ⟨first, later⟩
      · obtain ⟨-, hearlier⟩ := List.cons.inj (hlog.symm.trans h)
        exact ⟨s, i, c, r, w', hs, hc, hearlier, h⟩
      · exact ih (List.cons.inj (hlog.symm.trans h)).2
    cases hstep with
    | start | deliver | settle | drop | post => exact ih h
    | call hi hc hquiet => exact hcall hc h
    | send hi hc => exact hcall hc h
    | drift hd => exact ih (hdrift hd ▸ h)

/-- The log only grows, and a program that is over stays so. -/
lemma Crew.Step.over {E : Environment Call Reply Err W} {δ : Type} (log : W → List δ)
    (hexec : ∀ {w i c r w'}, E.exec w (.worker i) c r w' → ∃ e, log w' = e :: log w)
    (hdrift : ∀ {w w'}, E.drift w w' → log w' = log w) {s s' : Crew Call Reply Err W L κ}
    (h : Step M E s s') : log s.world <:+ log s'.world ∧ s.started ≤ s'.started ∧
      ∀ i < s.started, s.thread i = none → s'.thread i = none := by
  have hhire : ∀ (l : L) i, i < s.started → s.thread i = none → (s.hire M l).thread i = none := by
    intro l i hi hnone
    dsimp only [Crew.hire]
    rw [Function.update_of_ne (Nat.ne_of_lt hi), hnone]
  have hproceed : ∀ {i p} (q : Prog Call Reply Err Unit), s.thread i = some p →
      ∀ j < s.started, s.thread j = none → Function.update s.thread i (some q) j = none := by
    intro i p q hi j _ hnone
    rw [Function.update_of_ne, hnone]
    rintro rfl
    rw [hi] at hnone
    cases hnone
  have hdischarge : ∀ i j, j < s.started → s.thread j = none →
      (s.discharge i).thread j = none := by
    intro i j _ hnone
    dsimp only [Crew.discharge]
    rw [Function.update_apply]
    split
    · rfl
    · exact hnone
  have hcall : ∀ {i c r w'}, E.exec s.world (.worker i) c r w' → log s.world <:+ log w' := by
    intro i c r w' hc
    obtain ⟨e, hlog⟩ := hexec hc
    rw [hlog]
    exact List.suffix_cons _ _
  cases h with
  | start hl | deliver hl hx => exact ⟨List.suffix_refl _, Nat.le_succ _, hhire _⟩
  | call hi hc hquiet => exact ⟨hcall hc, Nat.le_refl _, hproceed _ hi⟩
  | send hi hc => exact ⟨hcall hc, Nat.le_refl _, hproceed _ hi⟩
  | settle | drop => exact ⟨List.suffix_refl _, Nat.le_refl _, hdischarge _⟩
  | post => exact ⟨List.suffix_refl _, Nat.le_refl _, fun _ _ h => h⟩
  | drift hd =>
    refine ⟨?_, Nat.le_refl _, fun _ _ h => h⟩
    dsimp only
    rw [hdrift hd]

/-- The log only grows, and nobody's job changes. -/
lemma Crew.Reachable.later {s s' : Crew Call Reply Err (Ledger Reply Err S) L κ}
    (hs : Reachable M (.logged answers drifts) { state := st₀ } s)
    (h : Relation.ReflTransGen (Step M (.logged answers drifts)) s s') :
    Reachable M (.logged answers drifts) { state := st₀ } s' ∧
      s.world.log <:+ s'.world.log ∧ ∀ {i l}, s.job i = some l → s'.job i = some l := by
  induction h with
  | refl => exact ⟨hs, List.suffix_refl _, id⟩
  | @tail s₁ _ _ hstep ih =>
    obtain ⟨hreach, hlog, hjob⟩ := ih
    refine ⟨.step hreach hstep, ?_, fun {i l} hi => ?_⟩
    · refine hlog.trans ?_
      cases hstep with
      | start | deliver | settle | drop | post => exact List.suffix_refl _
      | call hi hc hquiet =>
        obtain ⟨st, -, rfl⟩ := hc
        exact List.suffix_cons _ _
      | send hi hc =>
        obtain ⟨st, -, rfl⟩ := hc
        exact List.suffix_cons _ _
      | drift hd =>
        obtain ⟨st, -, rfl⟩ := hd
        exact List.suffix_refl _
    · have hi := hjob hi
      cases hstep with
      | start | deliver => exact hreach.hire_job hi
      | call | send | settle | drop | post | drift => exact hi

end

end ManagedAgents.Lib
