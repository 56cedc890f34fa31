import Mathlib.Order.Defs.PartialOrder
import Mathlib.Tactic.Lemma

/-!
Programs that talk to the outside one call at a time.

A program either returns, raises, or makes a call and continues with its reply; a reply is a
value or an exception. Nothing is assumed about who answers. A contract says, for a client that
remembers what it was told, which calls it may make next and how a reply changes what it knows;
a program conforms when every call it can reach is allowed. The rules below prove conformance
along the structure of a program.
-/

namespace ManagedAgents.Lib

/-- A program over the calls `Call`, returning `α` or raising `Err`. -/
inductive Prog (Call : Type) (Reply : Call → Type) (Err : Type) (α : Type) : Type
  | ret (a : α)
  | raise (e : Err)
  | call (c : Call) (next : Except Err (Reply c) → Prog Call Reply Err α)

namespace Prog

variable {Call : Type} {Reply : Call → Type} {Err α β γ : Type}

def bind (p : Prog Call Reply Err α) (f : α → Prog Call Reply Err β) :
    Prog Call Reply Err β :=
  match p with
  | ret a => f a
  | raise e => raise e
  | call c next => call c fun r => (next r).bind f

def tryCatch (p : Prog Call Reply Err α) (handler : Err → Prog Call Reply Err α) :
    Prog Call Reply Err α :=
  match p with
  | ret a => ret a
  | raise e => handler e
  | call c next => call c fun r => (next r).tryCatch handler

/-- Make one call and hand back its reply. -/
def perform (c : Call) : Prog Call Reply Err (Reply c) :=
  call c fun
    | .ok v => ret v
    | .error e => raise e

instance : Monad (Prog Call Reply Err) where
  pure := ret
  bind := bind

instance : MonadExceptOf Err (Prog Call Reply Err) where
  throw := raise
  tryCatch := tryCatch

/-- The body, then the cleanup on every way out; the outcome is the body's unless the cleanup
raises. -/
def ensure (p : Prog Call Reply Err α) (cleanup : Prog Call Reply Err Unit) :
    Prog Call Reply Err α :=
  match p with
  | ret a => cleanup.bind fun _ => ret a
  | raise e => cleanup.bind fun _ => raise e
  | call c next => call c fun r => (next r).ensure cleanup

/-- The body on each item in turn, until one returns a result. -/
def loop {ι : Type} (body : ι → Prog Call Reply Err (Option β)) :
    List ι → Prog Call Reply Err (Option β)
  | [] => pure none
  | i :: rest => body i >>= fun
    | some b => pure (some b)
    | none => loop body rest

end Prog

/-- What a client of the calls may do, given what it knows. -/
structure Contract (Call : Type) (Reply : Call → Type) (Err : Type) (κ : Type) where
  /-- A reply the client may be given. -/
  possible : κ → (c : Call) → Except Err (Reply c) → Prop
  /-- A call the client may make. -/
  allowed : κ → Call → Prop
  /-- What the client knows after the reply. -/
  learn : κ → (c : Call) → Except Err (Reply c) → κ

namespace Contract

variable {Call : Type} {Reply : Call → Type} {Err κ α β : Type}
  (C : Contract Call Reply Err κ)

/-- Every call the program reaches from `k` is allowed; it returns into `Q` and raises into
`E`. -/
def Conforms : Prog Call Reply Err α → (α → κ → Prop) → (κ → Prop) → κ → Prop
  | .ret a, Q, _, k => Q a k
  | .raise _, _, E, k => E k
  | .call c next, Q, E, k =>
    C.allowed k c ∧ ∀ r, C.possible k c r → Conforms (next r) Q E (C.learn k c r)

variable {C} {p : Prog Call Reply Err α} {Q Q' : α → κ → Prop} {E E' : κ → Prop} {k : κ}

lemma Conforms.mono (h : C.Conforms p Q E k) (hQ : ∀ a k', Q a k' → Q' a k')
    (hE : ∀ k', E k' → E' k') : C.Conforms p Q' E' k := by
  induction p generalizing k with
  | ret a => exact hQ _ _ h
  | raise e => exact hE _ h
  | call c next ih => exact ⟨h.1, fun r hr => ih r (h.2 r hr)⟩

lemma conforms_pure {a : α} (h : Q a k) :
    C.Conforms (pure a : Prog Call Reply Err α) Q E k := h

lemma conforms_throw {e : Err} (h : E k) :
    C.Conforms (throw e : Prog Call Reply Err α) Q E k := h

/-- Sequencing: the second program starts from what the first one's replies taught. -/
lemma Conforms.bind {f : α → Prog Call Reply Err β} {R : β → κ → Prop}
    (hp : C.Conforms p Q E k) (hf : ∀ a k', Q a k' → C.Conforms (f a) R E k') :
    C.Conforms (p >>= f) R E k := by
  change C.Conforms (p.bind f) R E k
  induction p generalizing k with
  | ret a => exact hf a k hp
  | raise e => exact hp
  | call c next ih => exact ⟨hp.1, fun r hr => ih r (hp.2 r hr)⟩

/-- Sequencing after a program that taught nothing. -/
lemma Conforms.bind_same {f : α → Prog Call Reply Err β} {R : β → κ → Prop}
    (hp : C.Conforms p (fun _ k' => k' = k) E k) (hf : ∀ a, C.Conforms (f a) R E k) :
    C.Conforms (p >>= f) R E k :=
  hp.bind fun a _ h => h ▸ hf a

lemma Conforms.map {f : α → β} {R : β → κ → Prop} (hp : C.Conforms p Q E k)
    (hf : ∀ a k', Q a k' → R (f a) k') : C.Conforms (f <$> p) R E k :=
  hp.bind fun a k' h => conforms_pure (hf a k' h)

/-- Catching: the handler starts from what was known when the exception was raised. -/
lemma Conforms.tryCatch {handler : Err → Prog Call Reply Err α} {H : κ → Prop}
    (hp : C.Conforms p Q H k) (hh : ∀ e k', H k' → C.Conforms (handler e) Q E k') :
    C.Conforms (tryCatch p handler) Q E k := by
  change C.Conforms (p.tryCatch handler) Q E k
  induction p generalizing k with
  | ret a => exact hp
  | raise e => exact hh e k hp
  | call c next ih => exact ⟨hp.1, fun r hr => ih r (hp.2 r hr)⟩

lemma Conforms.ensure {cleanup : Prog Call Reply Err Unit} {R : α → κ → Prop} {E' : κ → Prop}
    (hp : C.Conforms p Q E k)
    (hret : ∀ a k', Q a k' → C.Conforms cleanup (fun _ => R a) E' k')
    (hraise : ∀ k', E k' → C.Conforms cleanup (fun _ => E') E' k') :
    C.Conforms (p.ensure cleanup) R E' k := by
  induction p generalizing k with
  | ret a => exact Conforms.bind (hret _ _ hp) fun _ _ h => h
  | raise e => exact Conforms.bind (hraise _ hp) fun _ _ h => h
  | call c next ih => exact ⟨hp.1, fun r hr => ih r (hp.2 r hr)⟩

/-- One call: it is allowed, and every reply leads into the postconditions. -/
lemma conforms_perform {c : Call} {Q : Reply c → κ → Prop} (hallow : C.allowed k c)
    (hok : ∀ v, C.possible k c (.ok v) → Q v (C.learn k c (.ok v)))
    (herr : ∀ e, C.possible k c (.error e) → E (C.learn k c (.error e))) :
    C.Conforms (Prog.perform c : Prog Call Reply Err (Reply c)) Q E k := by
  refine ⟨hallow, fun r hr => ?_⟩
  cases r with
  | ok v => exact hok v hr
  | error e => exact herr e hr

/-- A loop: `Q none` is its invariant, which the body keeps until it returns a result. -/
lemma conforms_loop {ι : Type} {body : ι → Prog Call Reply Err (Option β)}
    {Q : Option β → κ → Prop} {is : List ι} (hinv : Q none k)
    (hbody : ∀ i ∈ is, ∀ k', Q none k' → C.Conforms (body i) Q E k') :
    C.Conforms (Prog.loop body is) Q E k := by
  induction is generalizing k with
  | nil => exact hinv
  | cons i rest ih =>
    refine Conforms.bind (hbody i (by simp) k hinv) fun o k' ho => ?_
    cases o with
    | some b => exact ho
    | none => exact ih ho fun j hj => hbody j (by simp [hj])

/-- A client that may do more, and still knows what it did, keeps the weaker contract. -/
lemma Conforms.transfer {κ' : Type} {C' : Contract Call Reply Err κ'} {R : κ → κ' → Prop}
    {k' : κ'} (hp : C.Conforms p Q E k) (hR : R k k')
    (hallowed : ∀ {k k' c}, R k k' → C.allowed k c → C'.allowed k' c)
    (hpossible : ∀ {k k' c r}, R k k' → C'.possible k' c r → C.possible k c r)
    (hlearn : ∀ {k k' c r}, R k k' → C.allowed k c → C'.possible k' c r →
      R (C.learn k c r) (C'.learn k' c r)) :
    C'.Conforms p (fun a k' => ∃ k, R k k' ∧ Q a k) (fun k' => ∃ k, R k k' ∧ E k) k' := by
  induction p generalizing k k' with
  | ret a => exact ⟨k, hR, hp⟩
  | raise e => exact ⟨k, hR, hp⟩
  | call c next ih =>
    refine ⟨hallowed hR hp.1, fun r hr => ?_⟩
    exact ih r (hp.2 r (hpossible hR hr)) (hlearn hR hp.1 hr)

end Contract

/-! ### Among other calls -/

namespace Prog

variable {Call Call' : Type} {Reply : Call → Type} {Reply' : Call' → Type} {Err α : Type}

/-- The program, as one of a system that knows more calls. -/
def embed (inj : Call → Call')
    (back : ∀ c, Except Err (Reply' (inj c)) → Except Err (Reply c)) :
    Prog Call Reply Err α → Prog Call' Reply' Err α
  | ret a => ret a
  | raise e => raise e
  | call c next => call (inj c) fun r => (next (back c r)).embed inj back

end Prog

namespace Contract

variable {Call Call' : Type} {Reply : Call → Type} {Reply' : Call' → Type} {Err κ α : Type}

lemma Conforms.embed {C : Contract Call Reply Err κ} {C' : Contract Call' Reply' Err κ}
    {inj : Call → Call'} {back : ∀ c, Except Err (Reply' (inj c)) → Except Err (Reply c)}
    {p : Prog Call Reply Err α} {Q : α → κ → Prop} {E : κ → Prop} {k : κ}
    (hp : C.Conforms p Q E k) (hallowed : ∀ {k c}, C.allowed k c → C'.allowed k (inj c))
    (hpossible : ∀ {k c r}, C'.possible k (inj c) r → C.possible k c (back c r))
    (hlearn : ∀ {k c r}, C'.learn k (inj c) r = C.learn k c (back c r)) :
    C'.Conforms (p.embed inj back) Q E k := by
  induction p generalizing k with
  | ret a => exact hp
  | raise e => exact hp
  | call c next ih =>
    refine ⟨hallowed hp.1, fun r hr => ?_⟩
    rw [hlearn]
    exact ih _ (hp.2 _ (hpossible hr))

end Contract

/-! ### Nothing to know -/

namespace Contract

variable {Call : Type} {Reply : Call → Type} {Err : Type}

/-- The contract of a client that makes only some calls, whatever it is answered. -/
def only (P : Call → Prop) : Contract Call Reply Err Unit where
  possible _ _ _ := True
  allowed _ := P
  learn _ _ _ := ()

end Contract

/-- Every call the program can reach is one of these. -/
abbrev Prog.Every {Call : Type} {Reply : Call → Type} {Err α : Type} (P : Call → Prop)
    (p : Prog Call Reply Err α) : Prop :=
  (Contract.only P).Conforms p (fun _ _ => True) (fun _ => True) ()

namespace Prog

variable {Call : Type} {Reply : Call → Type} {Err κ α β : Type} {P P' : Call → Prop}
  {p : Prog Call Reply Err α}

lemma every_perform {c : Call} (h : P c) : (perform c : Prog Call Reply Err (Reply c)).Every P :=
  Contract.conforms_perform h (fun _ _ => trivial) fun _ _ => trivial

namespace Every

lemma pure {a : α} : (pure a : Prog Call Reply Err α).Every P := trivial

lemma throw {e : Err} : (throw e : Prog Call Reply Err α).Every P := trivial

lemma bind {f : α → Prog Call Reply Err β} (hp : p.Every P) (hf : ∀ a, (f a).Every P) :
    (p >>= f).Every P :=
  Contract.Conforms.bind hp fun a _ _ => hf a

lemma map {f : α → β} (hp : p.Every P) : (f <$> p).Every P := hp.bind fun _ => pure

lemma tryCatch {handler : Err → Prog Call Reply Err α} (hp : p.Every P)
    (hh : ∀ e, (handler e).Every P) : (tryCatch p handler).Every P :=
  Contract.Conforms.tryCatch hp fun e _ _ => hh e

lemma ensure {cleanup : Prog Call Reply Err Unit} (hp : p.Every P) (hc : cleanup.Every P) :
    (p.ensure cleanup).Every P :=
  Contract.Conforms.ensure hp (fun _ _ _ => hc) fun _ _ => hc

lemma loop {ι : Type} {body : ι → Prog Call Reply Err (Option β)} {is : List ι}
    (hbody : ∀ i, (body i).Every P) : (Prog.loop body is).Every P :=
  Contract.conforms_loop trivial fun i _ _ _ => hbody i

/-- Where the calls are allowed and teach nothing that matters, a program conforms. -/
lemma conforms {C : Contract Call Reply Err κ} {I : κ → Prop} {k : κ} (h : p.Every P)
    (hk : I k) (hallowed : ∀ {k c}, I k → P c → C.allowed k c)
    (hlearn : ∀ {k c r}, I k → P c → C.possible k c r → I (C.learn k c r)) :
    C.Conforms p (fun _ => I) I k := by
  have hp : C.Conforms p (fun _ k' => ∃ _ : Unit, I k' ∧ True) (fun k' => ∃ _ : Unit, I k' ∧ True)
      k :=
    Contract.Conforms.transfer (R := fun _ => I) h hk hallowed (fun _ _ => trivial) hlearn
  exact hp.mono (fun _ _ h => h.elim fun _ h => h.1) fun _ h => h.elim fun _ h => h.1

/-- What the calls of a program keep also holds where it ends. -/
lemma keeps {C : Contract Call Reply Err κ} {Q : α → κ → Prop} {E I : κ → Prop} {k : κ}
    (h : p.Every P) (hp : C.Conforms p Q E k) (hk : I k)
    (hlearn : ∀ {k c r}, I k → P c → I (C.learn k c r)) :
    C.Conforms p (fun a k' => Q a k' ∧ I k') (fun k' => E k' ∧ I k') k := by
  induction p generalizing k with
  | ret a => exact ⟨hp, hk⟩
  | raise e => exact ⟨hp, hk⟩
  | call c next ih =>
    exact ⟨hp.1, fun r hr => ih r (h.2 r trivial) (hp.2 r hr) (hlearn hk h.1)⟩

lemma mono (h : p.Every P) (hP : ∀ {c}, P c → P' c) : p.Every P' :=
  (h.conforms (C := Contract.only P') (I := fun _ => True) trivial (fun _ => hP)
    fun _ _ _ => trivial).mono (fun _ _ _ => trivial) fun _ _ => trivial

end Every

end Prog

/-! ### Knowledge that grows -/

namespace Contract

variable {Call : Type} {Reply : Call → Type} {Err κ α β ι : Type} [Preorder κ]

/-- Nothing is forgotten. -/
class Growing (C : Contract Call Reply Err κ) : Prop where
  le_learn : ∀ {k c r}, k ≤ C.learn k c r

/-- The program keeps the contract; whichever way it ends it knows what it knew. -/
def Abides (C : Contract Call Reply Err κ) (p : Prog Call Reply Err α) (k : κ) : Prop :=
  C.Conforms p (fun _ k' => k ≤ k') (fun k' => k ≤ k') k

namespace Abides

variable {C : Contract Call Reply Err κ} {p : Prog Call Reply Err α} {k k' : κ}

lemma pure {a : α} : C.Abides (pure a : Prog Call Reply Err α) k := le_refl k

lemma throw {e : Err} : C.Abides (throw e : Prog Call Reply Err α) k := le_refl k

/-- A part of a program that knew less when it began. -/
lemma mono (h : C.Abides p k') (hle : k ≤ k') :
    C.Conforms p (fun _ k'' => k ≤ k'') (fun k'' => k ≤ k'') k' :=
  Conforms.mono h (fun _ _ h => le_trans hle h) fun _ h => le_trans hle h

lemma bind {f : α → Prog Call Reply Err β} (hp : C.Abides p k)
    (hf : ∀ a k', k ≤ k' → C.Abides (f a) k') : C.Abides (p >>= f) k :=
  Conforms.bind hp fun a k' hle => (hf a k' hle).mono hle

lemma tryCatch {handler : Err → Prog Call Reply Err α} (hp : C.Abides p k)
    (hh : ∀ e k', k ≤ k' → C.Abides (handler e) k') : C.Abides (tryCatch p handler) k :=
  Conforms.tryCatch hp fun e k' hle => (hh e k' hle).mono hle

lemma ensure {cleanup : Prog Call Reply Err Unit} (hp : C.Abides p k)
    (hc : ∀ k', k ≤ k' → C.Abides cleanup k') : C.Abides (p.ensure cleanup) k :=
  Conforms.ensure hp (fun _ k' hle => (hc k' hle).mono hle) fun k' hle => (hc k' hle).mono hle

lemma loop {body : ι → Prog Call Reply Err (Option β)} {is : List ι}
    (hbody : ∀ i ∈ is, ∀ k', k ≤ k' → C.Abides (body i) k') : C.Abides (Prog.loop body is) k :=
  conforms_loop (le_refl k) fun i hi k' hle => (hbody i hi k' hle).mono hle

variable [C.Growing]

lemma last {c : Call} (hallow : C.allowed k c) :
    C.Abides (Prog.perform c : Prog Call Reply Err (Reply c)) k :=
  conforms_perform hallow (fun _ _ => Growing.le_learn) fun _ _ => Growing.le_learn

lemma call {c : Call} {f : Reply c → Prog Call Reply Err β} (hallow : C.allowed k c)
    (hf : ∀ v, C.possible k c (.ok v) → C.Abides (f v) (C.learn k c (.ok v))) :
    C.Abides (Prog.perform c >>= f) k :=
  Conforms.bind (Q := fun v k' => C.possible k c (.ok v) ∧ k' = C.learn k c (.ok v))
    (conforms_perform hallow (fun _ hv => ⟨hv, rfl⟩) fun _ _ => Growing.le_learn)
    fun v _ ⟨hv, hk⟩ => hk ▸ (hf v hv).mono Growing.le_learn

lemma every {P : Call → Prop} (h : p.Every P) (hP : ∀ {k c}, P c → C.allowed k c) :
    C.Abides p k :=
  h.conforms (I := fun k' => k ≤ k') (le_refl _) (fun _ hc => hP hc)
    fun h _ _ => le_trans h Growing.le_learn

end Abides

end Contract

end ManagedAgents.Lib
