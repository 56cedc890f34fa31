import Mathlib.Logic.Relation
import ManagedAgents.Lib.Pool

/-!
One program running alone.

The program's calls are answered by an environment, which may drift before each of them, and
nobody else makes any. What holds however it ends is a weakest precondition; the rules below
follow the program's structure. In an environment that answers every call something is reached.
-/

namespace ManagedAgents.Lib

variable {Call : Type} {Reply : Call → Type} {Err W α β κ : Type}

/-- However the program ends when it runs alone from `w`, it ends in `Q`. -/
def Alone (E : Environment Call Reply Err W) (a : Actor) :
    Prog Call Reply Err α → (Except Err α → W → Prop) → W → Prop
  | .ret v, Q, w => Q (.ok v) w
  | .raise e, Q, w => Q (.error e) w
  | .call c next, Q, w => ∀ w₁, Relation.ReflTransGen E.drift w w₁ →
      ∀ r w', E.exec w₁ a c r w' → Alone E a (next r) Q w'

namespace Alone

variable {E : Environment Call Reply Err W} {a : Actor} {p : Prog Call Reply Err α}
  {Q Q' : Except Err α → W → Prop} {R : Except Err β → W → Prop} {w : W}

lemma mono (h : Alone E a p Q w) (hQ : ∀ r w', Q r w' → Q' r w') : Alone E a p Q' w := by
  induction p generalizing w with
  | ret v => exact hQ _ _ h
  | raise e => exact hQ _ _ h
  | call c next ih => exact fun w₁ hd r w' he => ih r (h w₁ hd r w' he)

lemma and (h : Alone E a p Q w) (h' : Alone E a p Q' w) :
    Alone E a p (fun r w' => Q r w' ∧ Q' r w') w := by
  induction p generalizing w with
  | ret v => exact ⟨h, h'⟩
  | raise e => exact ⟨h, h'⟩
  | call c next ih => exact fun w₁ hd r w' he => ih r (h w₁ hd r w' he) (h' w₁ hd r w' he)

/-- Where every call is answered, something is reached. -/
lemma nonempty (htotal : ∀ w c, ∃ r w', E.exec w a c r w') (h : Alone E a p Q w) :
    ∃ r w', Q r w' := by
  induction p generalizing w with
  | ret v => exact ⟨_, _, h⟩
  | raise e => exact ⟨_, _, h⟩
  | call c next ih =>
    obtain ⟨r, w', he⟩ := htotal w c
    exact ih r (h w .refl r w' he)

lemma pure {v : α} (h : Q (.ok v) w) : Alone E a (Pure.pure v : Prog Call Reply Err α) Q w := h

lemma bind {f : α → Prog Call Reply Err β} (h : Alone E a p Q w)
    (hok : ∀ v w', Q (.ok v) w' → Alone E a (f v) R w')
    (herr : ∀ e w', Q (.error e) w' → R (.error e) w') : Alone E a (p >>= f) R w := by
  change Alone E a (p.bind f) R w
  induction p generalizing w with
  | ret v => exact hok v w h
  | raise e => exact herr e w h
  | call c next ih => exact fun w₁ hd r w' he => ih r (h w₁ hd r w' he)

lemma tryCatch {handler : Err → Prog Call Reply Err α} (h : Alone E a p Q w)
    (hok : ∀ v w', Q (.ok v) w' → Q' (.ok v) w')
    (herr : ∀ e w', Q (.error e) w' → Alone E a (handler e) Q' w') :
    Alone E a (MonadExcept.tryCatch p handler) Q' w := by
  change Alone E a (p.tryCatch handler) Q' w
  induction p generalizing w with
  | ret v => exact hok v w h
  | raise e => exact herr e w h
  | call c next ih => exact fun w₁ hd r w' he => ih r (h w₁ hd r w' he)

/-- The cleanup runs after the body and leaves its outcome, unless it raises. -/
lemma ensure {cleanup : Prog Call Reply Err Unit} (h : Alone E a p Q w)
    (hcleanup : ∀ r w', Q r w' → Alone E a cleanup (fun r' w'' =>
      match r' with
      | .ok () => Q' r w''
      | .error e => Q' (.error e) w'') w') :
    Alone E a (p.ensure cleanup) Q' w := by
  induction p generalizing w with
  | ret v =>
    exact Alone.bind (hcleanup _ _ h) (fun _ _ hq => hq) fun _ _ hq => hq
  | raise e =>
    exact Alone.bind (hcleanup _ _ h) (fun _ _ hq => hq) fun _ _ hq => hq
  | call c next ih => exact fun w₁ hd r w' he => ih r (h w₁ hd r w' he)

lemma perform {c : Call} {Q : Except Err (Reply c) → W → Prop}
    (h : ∀ w₁, Relation.ReflTransGen E.drift w w₁ → ∀ r w', E.exec w₁ a c r w' → Q r w') :
    Alone E a (Prog.perform c : Prog Call Reply Err (Reply c)) Q w := by
  intro w₁ hd r w' he
  have hq := h w₁ hd r w' he
  cases r with
  | ok v => exact hq
  | error e => exact hq

/-- What the body keeps, the loop keeps, however it ends. -/
lemma loop_keeps {ι : Type} {body : ι → Prog Call Reply Err (Option β)} {is : List ι}
    {I : W → Prop} (hinit : I w)
    (hbody : ∀ i w', I w' → Alone E a (body i) (fun _ w'' => I w'') w') :
    Alone E a (Prog.loop body is) (fun _ w' => I w') w := by
  induction is generalizing w with
  | nil => exact hinit
  | cons i rest ih =>
    refine (hbody i w hinit).bind (fun v w' hI => ?_) fun e w' hI => hI
    cases v with
    | some b => exact hI
    | none => exact ih hI

/-- A program that conforms to a contract keeps what its allowed calls keep. -/
lemma of_conforms {C : Contract Call Reply Err κ} {P : α → κ → Prop} {X : κ → Prop} {k : κ}
    {I : κ → W → Prop} (hp : C.Conforms p P X k) (hI : I k w)
    (hdrift : ∀ {k w w'}, I k w → E.drift w w' → I k w')
    (hcall : ∀ {k w c r w'}, I k w → C.allowed k c → E.exec w a c r w' →
      C.possible k c r ∧ I (C.learn k c r) w') :
    Alone E a p (fun r w' => ∃ k', I k' w' ∧
      match r with
      | .ok v => P v k'
      | .error _ => X k') w := by
  induction p generalizing k w with
  | ret v => exact ⟨k, hI, hp⟩
  | raise e => exact ⟨k, hI, hp⟩
  | call c next ih =>
    intro w₁ hd r w' he
    have hI₁ : I k w₁ := by
      clear he
      induction hd with
      | refl => exact hI
      | tail _ hstep hprev => exact hdrift hprev hstep
    obtain ⟨hpossible, hI'⟩ := hcall hI₁ hp.1 he
    exact ih r (hp.2 r hpossible) hI'

end Alone

/-! ### One after the other -/

/-- The program runs alone and ends like this. -/
inductive Solo (E : Environment Call Reply Err W) (a : Actor) :
    Prog Call Reply Err α → W → Except Err α → W → Prop
  | ret {v w} : Solo E a (.ret v) w (.ok v) w
  | raise {e w} : Solo E a (.raise e) w (.error e) w
  | call {c next w w₁ r w' outcome w''} (hd : Relation.ReflTransGen E.drift w w₁)
    (he : E.exec w₁ a c r w') (h : Solo E a (next r) w' outcome w'') :
    Solo E a (.call c next) w outcome w''

/-- What holds however a program ends holds of its end. -/
lemma Alone.solo {E : Environment Call Reply Err W} {a : Actor} {p : Prog Call Reply Err α}
    {Q : Except Err α → W → Prop} {w w' : W} {outcome : Except Err α} (h : Alone E a p Q w)
    (hrun : Solo E a p w outcome w') : Q outcome w' := by
  induction hrun with
  | ret => exact h
  | raise => exact h
  | call hd he _ ih => exact ih (h _ hd _ _ he)

/-- The end of a program whose calls are answered by a function. -/
def Prog.answered (answer : (c : Call) → W → Option (Except Err (Reply c) × W)) :
    Prog Call Reply Err α → W → Option (Except Err α × W)
  | .ret v, w => some (.ok v, w)
  | .raise e, w => some (.error e, w)
  | .call c next, w => (answer c w).bind fun (r, w') => (next r).answered answer w'

lemma Solo.answered {E : Environment Call Reply Err W} {a : Actor}
    {answer : (c : Call) → W → Option (Except Err (Reply c) × W)} {I : W → Prop}
    (hanswer : ∀ {c w r w'}, I w → answer c w = some (r, w') → E.exec w a c r w' ∧ I w')
    {p : Prog Call Reply Err α} {w w' : W} {outcome : Except Err α} (hI : I w)
    (h : p.answered answer w = some (outcome, w')) : Solo E a p w outcome w' ∧ I w' := by
  induction p generalizing w with
  | ret v =>
    cases h
    exact ⟨.ret, hI⟩
  | raise e =>
    cases h
    exact ⟨.raise, hI⟩
  | call c next ih =>
    obtain ⟨⟨r, w₁⟩, hr, h⟩ := Option.bind_eq_some_iff.1 h
    obtain ⟨he, hI₁⟩ := hanswer hI hr
    obtain ⟨hsolo, hI'⟩ := ih r hI₁ h
    exact ⟨.call .refl he hsolo, hI'⟩

/-- The worlds that drifts, clients' calls and programs that run one after the other and return
lead to. -/
inductive Serial (E : Environment Call Reply Err W) (entry : Prog Call Reply Err Unit → Prop)
    (outside : Call → Prop) (w₀ : W) : W → Prop
  | init : Serial E entry outside w₀ w₀
  | drift {w w'} (hw : Serial E entry outside w₀ w) (hd : E.drift w w') :
    Serial E entry outside w₀ w'
  | client {w w' c r} (hw : Serial E entry outside w₀ w) (hc : outside c)
    (he : E.exec w .client c r w') : Serial E entry outside w₀ w'
  | run {w w' a p} (hw : Serial E entry outside w₀ w) (hp : entry p)
    (hrun : Solo E a p w (.ok ()) w') : Serial E entry outside w₀ w'

end ManagedAgents.Lib
