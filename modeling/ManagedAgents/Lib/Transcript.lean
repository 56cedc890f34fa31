import ManagedAgents.Lib.Prog

/-!
What a program said and heard.

A transcript lists the calls of a finished run with their replies, whoever gave them. The rules
below take a run of a compound program apart along its structure.
-/

namespace ManagedAgents.Lib.Prog

variable {Call : Type} {Reply : Call → Type} {Err α β : Type}

/-- A call with the reply it was given. -/
abbrev Exchange (Reply : Call → Type) (Err : Type) := (c : Call) × Except Err (Reply c)

/-- The program makes these calls when it is given these replies, and ends like this. -/
def Ran : Prog Call Reply Err α → List (Exchange Reply Err) → Except Err α → Prop
  | ret a, said, outcome => said = [] ∧ outcome = .ok a
  | raise e, said, outcome => said = [] ∧ outcome = .error e
  | call c next, said, outcome => ∃ r rest, said = ⟨c, r⟩ :: rest ∧ (next r).Ran rest outcome

/-- One call whose failure, whatever it is, is the given one. -/
def attempt (c : Call) (e : Err) : Prog Call Reply Err (Reply c) :=
  call c fun
    | .ok v => ret v
    | .error _ => raise e

/-- The value, or the given failure where there is none. -/
def orThrow (value : Option α) (e : Err) : Prog Call Reply Err α :=
  match value with
  | some a => ret a
  | none => raise e

variable {p : Prog Call Reply Err α} {f : α → Prog Call Reply Err β} {a : α} {e : Err} {c : Call}
  {said : List (Exchange Reply Err)} {outcome : Except Err α} {result : Except Err β}

@[simp] lemma ran_pure : (pure a : Prog Call Reply Err α).Ran said outcome ↔
    said = [] ∧ outcome = .ok a := Iff.rfl

@[simp] lemma ran_throw : (throw e : Prog Call Reply Err α).Ran said outcome ↔
    said = [] ∧ outcome = .error e := Iff.rfl

/-- A sequence ran to its first failure, or its parts ran one after the other. -/
lemma ran_bind : (p >>= f).Ran said result ↔
    (∃ e, p.Ran said (.error e) ∧ result = .error e) ∨
      ∃ first later a, said = first ++ later ∧ p.Ran first (.ok a) ∧ (f a).Ran later result := by
  change (p.bind f).Ran said result ↔ _
  induction p generalizing said with
  | ret a =>
    constructor
    · exact fun h => .inr ⟨[], said, a, rfl, ⟨rfl, rfl⟩, h⟩
    · rintro (⟨e, ⟨-, h⟩, -⟩ | ⟨first, later, a', rfl, ⟨rfl, h⟩, hf⟩) <;> cases h
      exact hf
  | raise e =>
    constructor
    · rintro ⟨rfl, rfl⟩
      exact .inl ⟨e, ⟨rfl, rfl⟩, rfl⟩
    · rintro (⟨e', ⟨rfl, h⟩, rfl⟩ | ⟨first, later, a', -, ⟨-, h⟩, -⟩) <;> cases h
      exact ⟨rfl, rfl⟩
  | call c next ih =>
    simp only [bind, Ran]
    constructor
    · rintro ⟨r, rest, rfl, h⟩
      rcases (ih r).1 h with ⟨e, hp, rfl⟩ | ⟨first, later, a, rfl, hp, hf⟩
      · exact .inl ⟨e, ⟨r, rest, rfl, hp⟩, rfl⟩
      · exact .inr ⟨⟨c, r⟩ :: first, later, a, rfl, ⟨r, first, rfl, hp⟩, hf⟩
    · rintro (⟨e, ⟨r, rest, rfl, hp⟩, rfl⟩ | ⟨_, later, a, rfl, ⟨r, first, rfl, hp⟩, hf⟩)
      · exact ⟨r, rest, rfl, (ih r).2 (.inl ⟨e, hp, rfl⟩)⟩
      · exact ⟨r, first ++ later, rfl, (ih r).2 (.inr ⟨first, later, a, rfl, hp, hf⟩)⟩

/-- A sequence that returned: both parts did. -/
lemma ran_bind_ok {b : β} : (p >>= f).Ran said (.ok b) ↔
    ∃ first later a, said = first ++ later ∧ p.Ran first (.ok a) ∧ (f a).Ran later (.ok b) := by
  rw [ran_bind]
  constructor
  · rintro (⟨e, -, h⟩ | h)
    · cases h
    · exact h
  · exact .inr

@[simp] lemma ran_perform_ok {v : Reply c} :
    (perform c : Prog Call Reply Err (Reply c)).Ran said (.ok v) ↔ said = [⟨c, .ok v⟩] := by
  constructor
  · rintro ⟨e' | v', rest, rfl, rfl, h⟩ <;> cases h
    rfl
  · rintro rfl
    exact ⟨.ok v, [], rfl, rfl, rfl⟩

/-- A call that was answered, as the program went on. -/
@[simp] lemma ran_attempt_ok {v : Reply c} :
    (attempt c e).Ran said (.ok v) ↔ said = [⟨c, .ok v⟩] := by
  constructor
  · rintro ⟨e' | v', rest, rfl, rfl, h⟩ <;> cases h
    rfl
  · rintro rfl
    exact ⟨.ok v, [], rfl, rfl, rfl⟩

@[simp] lemma ran_orThrow_ok {value : Option α} :
    (orThrow value e : Prog Call Reply Err α).Ran said (.ok a) ↔ said = [] ∧ value = some a := by
  rcases value with _ | b <;> simp [orThrow, Ran, eq_comm]

end ManagedAgents.Lib.Prog

/-! ### Recorded programs -/

namespace ManagedAgents.Lib

variable {Call : Type} {Reply : Call → Type} {Err : Type}

/-- What a program said and heard so far, newest first. -/
structure Transcript (Reply : Call → Type) (Err : Type) where
  said : List (Prog.Exchange Reply Err) := []

namespace Transcript

instance : Preorder (Transcript Reply Err) where
  le t t' := t.said <:+ t'.said
  le_refl t := List.suffix_refl t.said
  le_trans _ _ _ := List.IsSuffix.trans

/-- The call was answered like this. -/
def Heard (t : Transcript Reply Err) (c : Call) (v : Reply c) : Prop :=
  (⟨c, .ok v⟩ : Prog.Exchange Reply Err) ∈ t.said

/-- The last call was answered like this. -/
def Last (t : Transcript Reply Err) (c : Call) (v : Reply c) : Prop :=
  t.said.head? = some ⟨c, .ok v⟩

lemma Heard.mono {t t' : Transcript Reply Err} {c : Call} {v : Reply c} (h : t.Heard c v)
    (hle : t ≤ t') : t'.Heard c v := List.IsSuffix.subset hle h

/-- These were said and heard in this order, newest first, with others in between. -/
def Told (t : Transcript Reply Err) (xs : List (Prog.Exchange Reply Err)) : Prop :=
  List.Sublist xs t.said

/-- Only such calls were made from the one to the other. -/
def Since (t : Transcript Reply Err) (P : Call → Prop) (t' : Transcript Reply Err) : Prop :=
  ∃ since, t'.said = since ++ t.said ∧ ∀ x ∈ since, P x.1

/-- The call was answered like this, and only such calls were made since. -/
def Latest (t : Transcript Reply Err) (P : Call → Prop) (c : Call) (v : Reply c) : Prop :=
  ∃ before : Transcript Reply Err, before.Last c v ∧ before.Since P t

lemma Since.refl {t : Transcript Reply Err} {P : Call → Prop} : t.Since P t :=
  ⟨[], rfl, fun _ h => absurd h List.not_mem_nil⟩

lemma Since.trans {t t' t'' : Transcript Reply Err} {P : Call → Prop} (h : t.Since P t')
    (h' : t'.Since P t'') : t.Since P t'' := by
  obtain ⟨first, hfirst, hP⟩ := h
  obtain ⟨second, hsecond, hP'⟩ := h'
  refine ⟨second ++ first, by rw [hsecond, hfirst, List.append_assoc], fun x hx => ?_⟩
  exact (List.mem_append.1 hx).elim (hP' x) (hP x)

lemma Since.mono {t t' : Transcript Reply Err} {P P' : Call → Prop} (h : t.Since P t')
    (hP : ∀ c, P c → P' c) : t.Since P' t' := by
  obtain ⟨since, hsaid, hsince⟩ := h
  exact ⟨since, hsaid, fun x hx => hP _ (hsince x hx)⟩

lemma Since.le {t t' : Transcript Reply Err} {P : Call → Prop} (h : t.Since P t') : t ≤ t' := by
  obtain ⟨since, hsaid, -⟩ := h
  exact ⟨since, hsaid.symm⟩

lemma Latest.since {t t' : Transcript Reply Err} {P : Call → Prop} {c : Call} {v : Reply c}
    (h : t.Latest P c v) (hsince : t.Since P t') : t'.Latest P c v := by
  obtain ⟨before, hlast, hbefore⟩ := h
  exact ⟨before, hlast, hbefore.trans hsince⟩

lemma Told.mono {t t' : Transcript Reply Err} {xs : List (Prog.Exchange Reply Err)} (h : t.Told xs)
    (hle : t ≤ t') : t'.Told xs := List.Sublist.trans h (List.IsSuffix.sublist hle)

end Transcript

/-- Everything is remembered, and what may be called is read off it. -/
def Contract.recorded (allowed : Transcript Reply Err → Call → Prop) :
    Contract Call Reply Err (Transcript Reply Err) where
  possible _ _ _ := True
  allowed := allowed
  learn t c r := ⟨⟨c, r⟩ :: t.said⟩

instance {allowed : Transcript Reply Err → Call → Prop} :
    (Contract.recorded allowed).Growing := ⟨List.suffix_cons _ _⟩

section

variable {allowed : Transcript Reply Err → Call → Prop} {t : Transcript Reply Err} {c : Call}
  {v : Reply c}

lemma Transcript.heard_learn : ((Contract.recorded allowed).learn t c (.ok v)).Heard c v :=
  List.mem_cons_self

lemma Transcript.last_learn : ((Contract.recorded allowed).learn t c (.ok v)).Last c v := rfl

end

/-! ### Programs with a job -/

/-- What a program said and heard so far, newest first, and the job it does. -/
structure Dossier (J : Type) (Reply : Call → Type) (Err : Type) extends Transcript Reply Err where
  job : J

variable {J : Type}

instance : Preorder (Dossier J Reply Err) where
  le d d' := d.job = d'.job ∧ d.toTranscript ≤ d'.toTranscript
  le_refl d := ⟨rfl, le_refl _⟩
  le_trans _ _ _ h h' := ⟨h.1.trans h'.1, le_trans h.2 h'.2⟩

/-- Everything is remembered, and what may be called is read off it and the job. -/
def Contract.filed (possible : (c : Call) → Except Err (Reply c) → Prop)
    (allowed : Dossier J Reply Err → Call → Prop) :
    Contract Call Reply Err (Dossier J Reply Err) where
  possible _ := possible
  allowed := allowed
  learn d c r := { d with said := ⟨c, r⟩ :: d.said }

section

variable {possible : (c : Call) → Except Err (Reply c) → Prop}
  {allowed : Dossier J Reply Err → Call → Prop} {d d' : Dossier J Reply Err} {c : Call}
  {v : Reply c}

instance : (Contract.filed possible allowed).Growing := ⟨rfl, List.suffix_cons _ _⟩

lemma Dossier.heard_mono (h : d.Heard c v) (hle : d ≤ d') : d'.Heard c v :=
  Transcript.Heard.mono h hle.2

lemma Dossier.heard_learn : ((Contract.filed possible allowed).learn d c (.ok v)).Heard c v :=
  List.mem_cons_self

lemma Dossier.latest_learn {P : Call → Prop} :
    ((Contract.filed possible allowed).learn d c (.ok v)).Latest P c v :=
  ⟨((Contract.filed possible allowed).learn d c (.ok v)).toTranscript, rfl, .refl⟩

lemma Dossier.since_learn {P : Call → Prop} {r : Except Err (Reply c)} (h : P c) :
    d.Since P ((Contract.filed possible allowed).learn d c r).toTranscript := by
  refine ⟨[⟨c, r⟩], rfl, fun x hx => ?_⟩
  cases List.mem_singleton.1 hx
  exact h

end

/-- The program keeps the contract of its file, and what it returns is as said. -/
abbrev Follows {α : Type} (possible : (c : Call) → Except Err (Reply c) → Prop)
    (allowed : Dossier J Reply Err → Call → Prop) (prog : Prog Call Reply Err α)
    (Q : α → Dossier J Reply Err → Prop) (d : Dossier J Reply Err) : Prop :=
  (Contract.filed possible allowed).Conforms prog (fun a d' => d ≤ d' ∧ Q a d') (fun d' => d ≤ d') d

namespace Follows

variable {α β ι : Type} {possible : (c : Call) → Except Err (Reply c) → Prop}
  {allowed : Dossier J Reply Err → Call → Prop} {prog : Prog Call Reply Err α}
  {Q Q' : α → Dossier J Reply Err → Prop} {R : β → Dossier J Reply Err → Prop}
  {d : Dossier J Reply Err} {c : Call}

lemma pure {a : α} (h : Q a d) : Follows possible allowed (pure a) Q d := ⟨le_refl d, h⟩

lemma throw {e : Err} : Follows possible allowed (throw e) Q d := le_refl d

lemma mono (h : Follows possible allowed prog Q d) (hQ : ∀ a d', d ≤ d' → Q a d' → Q' a d') :
    Follows possible allowed prog Q' d :=
  Contract.Conforms.mono h (fun a d' ⟨hle, ha⟩ => ⟨hle, hQ a d' hle ha⟩) fun _ hle => hle

/-- A part of a program whose file was shorter when it began. -/
lemma later {d' : Dossier J Reply Err} (h : Follows possible allowed prog Q d') (hle : d ≤ d') :
    (Contract.filed possible allowed).Conforms prog (fun a d'' => d ≤ d'' ∧ Q a d'')
      (fun d'' => d ≤ d'') d' :=
  Contract.Conforms.mono h (fun _ _ ⟨hle', ha⟩ => ⟨le_trans hle hle', ha⟩) fun _ => le_trans hle

lemma bind {f : α → Prog Call Reply Err β} (h : Follows possible allowed prog Q d)
    (hf : ∀ a d', d ≤ d' → Q a d' → Follows possible allowed (f a) R d') :
    Follows possible allowed (prog >>= f) R d :=
  Contract.Conforms.bind h fun a d' ⟨hle, ha⟩ => (hf a d' hle ha).later hle

lemma tryCatch {handler : Err → Prog Call Reply Err α} (h : Follows possible allowed prog Q d)
    (hh : ∀ e d', d ≤ d' → Follows possible allowed (handler e) Q d') :
    Follows possible allowed (tryCatch prog handler) Q d :=
  Contract.Conforms.tryCatch h fun e d' hle => (hh e d' hle).later hle

/-- A loop: what it returns without a result holds at its start, and the body keeps it. -/
lemma loop {body : ι → Prog Call Reply Err (Option β)} {Q : Option β → Dossier J Reply Err → Prop}
    {is : List ι} (hinv : Q none d)
    (hbody : ∀ i ∈ is, ∀ d', d ≤ d' → Q none d' → Follows possible allowed (body i) Q d') :
    Follows possible allowed (Prog.loop body is) Q d :=
  Contract.conforms_loop (Q := fun o d' => d ≤ d' ∧ Q o d') ⟨le_refl d, hinv⟩
    fun i hi d' ⟨hle, h⟩ => (hbody i hi d' hle h).later hle

lemma perform (hallow : allowed d c) : Follows possible allowed (Prog.perform c)
    (fun v d' => possible c (.ok v) ∧ d'.Heard c v) d :=
  Contract.conforms_perform hallow
    (fun _ hv => ⟨Contract.Growing.le_learn, hv, Dossier.heard_learn⟩)
    fun _ _ => Contract.Growing.le_learn

/-- A call is the last one afterwards. -/
lemma tell (hallow : allowed d c) : Follows possible allowed (Prog.perform c)
    (fun v d' => possible c (.ok v) ∧ d' = (Contract.filed possible allowed).learn d c (.ok v)) d :=
  Contract.conforms_perform hallow
    (fun _ hv => ⟨Contract.Growing.le_learn, hv, rfl⟩)
    fun _ _ => Contract.Growing.le_learn

/-- A cleanup that loses nothing. -/
lemma ensure {cleanup : Prog Call Reply Err Unit} {P : Call → Prop}
    (h : Follows possible allowed prog Q d)
    (hQ : ∀ a (d' d'' : Dossier J Reply Err), d'.Since P d''.toTranscript → Q a d' → Q a d'')
    (hc : ∀ d' : Dossier J Reply Err, d ≤ d' →
      Follows possible allowed cleanup (fun _ d'' => d'.Since P d''.toTranscript) d') :
    Follows possible allowed (prog.ensure cleanup) Q d := by
  refine Contract.Conforms.ensure h (fun a d' ⟨hle, ha⟩ => ?_) fun d' hle => ?_
  · exact Contract.Conforms.mono (hc d' hle)
      (fun _ d'' ⟨hle', hsince⟩ => ⟨le_trans hle hle', hQ a d' d'' hsince ha⟩) fun _ => le_trans hle
  · exact Contract.Conforms.mono (hc d' hle) (fun _ _ ⟨hle', _⟩ => le_trans hle hle')
      fun _ => le_trans hle

/-- A call whose answer does not matter. -/
lemma quiet (hallow : allowed d c) :
    Follows possible allowed (Prog.perform c) (fun _ _ => True) d :=
  (perform hallow).mono fun _ _ _ _ => trivial

lemma call {f : Reply c → Prog Call Reply Err β} (hallow : allowed d c)
    (hf : ∀ v d', d ≤ d' → Follows possible allowed (f v) R d') :
    Follows possible allowed (Prog.perform c >>= f) R d :=
  (quiet hallow).bind fun v d' hle _ => hf v d' hle

/-- A program that makes only such calls has made no others since. -/
lemma since {P : Call → Prop} (h : Follows possible allowed prog Q d) (hp : prog.Every P) :
    Follows possible allowed prog (fun a d' => Q a d' ∧ d.Since P d'.toTranscript) d :=
  Contract.Conforms.mono
    (Prog.Every.keeps (I := fun d' => d.Since P d'.toTranscript) hp h .refl
      fun hsince hc => hsince.trans (Dossier.since_learn hc))
    (fun _ _ ⟨⟨hle, ha⟩, hsince⟩ => ⟨hle, ha, hsince⟩) fun _ h => h.1

/-- A program whose calls may be made at any time. -/
lemma every {P : Call → Prop} (h : prog.Every P) (hP : ∀ d c, P c → allowed d c) :
    Follows possible allowed prog (fun _ _ => True) d :=
  Contract.Conforms.mono
    (h.conforms (C := Contract.filed possible allowed) (I := fun d' => d ≤ d') (le_refl d)
      (fun _ hc => hP _ _ hc) fun hle _ _ => le_trans hle Contract.Growing.le_learn)
    (fun _ _ hle => ⟨hle, trivial⟩) fun _ hle => hle

end Follows

end ManagedAgents.Lib
