import Mathlib.Data.Int.Notation
import Mathlib.Data.List.DropRight
import Mathlib.Tactic.Lemma

/-!
Integers as Python's `int` reads them from a text: digits of any script, with single underscores
between them, after a sign, and with spaces around it all.
-/

namespace ManagedAgents.Lib

/-- What Python takes for a space here. -/
def isSpace (c : Char) : Bool :=
  c.toNat ∈ [0x20, 0x85, 0xA0, 0x1680, 0x2028, 0x2029, 0x202F, 0x205F, 0x3000] ||
    (0x09 ≤ c.toNat && c.toNat ≤ 0x0D) || (0x2000 ≤ c.toNat && c.toNat ≤ 0x200A)

/-- The zeros of all scripts, whose other digits follow them. -/
def zeros : List ℕ :=
  [0x30, 0x660, 0x6F0, 0x7C0, 0x966, 0x9E6, 0xA66, 0xAE6, 0xB66, 0xBE6, 0xC66, 0xCE6, 0xD66, 0xDE6,
    0xE50, 0xED0, 0xF20, 0x1040, 0x1090, 0x17E0, 0x1810, 0x1946, 0x19D0, 0x1A80, 0x1A90, 0x1B50,
    0x1BB0, 0x1C40, 0x1C50, 0xA620, 0xA8D0, 0xA900, 0xA9D0, 0xA9F0, 0xAA50, 0xABF0, 0xFF10, 0x104A0,
    0x10D30, 0x10D40, 0x11066, 0x110F0, 0x11136, 0x111D0, 0x112F0, 0x11450, 0x114D0, 0x11650,
    0x116C0, 0x116D0, 0x116DA, 0x11730, 0x118E0, 0x11950, 0x11BF0, 0x11C50, 0x11D50, 0x11DA0,
    0x11F50, 0x16130, 0x16A60, 0x16AC0, 0x16B50, 0x16D70, 0x1CCF0, 0x1D7CE, 0x1D7D8, 0x1D7E2,
    0x1D7EC, 0x1D7F6, 0x1E140, 0x1E2F0, 0x1E4F0, 0x1E5F1, 0x1E950, 0x1FBF0]

/-- The value of a digit. -/
def decimal? (c : Char) : Option ℕ :=
  (zeros.find? fun z => z ≤ c.toNat && c.toNat < z + 10).map (c.toNat - ·)

/-- The value of what follows a digit, given the value up to there. -/
def digits? (value : ℕ) : List Char → Option ℕ
  | [] => some value
  | '_' :: c :: rest => (decimal? c).bind fun d => digits? (10 * value + d) rest
  | c :: rest => (decimal? c).bind fun d => digits? (10 * value + d) rest

def natural? : List Char → Option ℕ
  | [] => none
  | c :: rest => (decimal? c).bind (digits? · rest)

def int? (s : String) : Option ℤ :=
  match (s.toList.dropWhile isSpace).rdropWhile isSpace with
  | '-' :: rest => (natural? rest).map fun n => -(n : ℤ)
  | '+' :: rest => (natural? rest).map fun n => (n : ℤ)
  | l => (natural? l).map fun n => (n : ℤ)

/-! ### What is written is read -/

lemma isDigit_iff {c : Char} : c.isDigit = true ↔ 0x30 ≤ c.toNat ∧ c.toNat < 0x3A := by
  simp only [Char.isDigit, Bool.and_eq_true, decide_eq_true_eq, UInt32.le_iff_toNat_le]
  exact and_congr Iff.rfl Nat.lt_succ_iff.symm

lemma decimal?_of_isDigit {c : Char} (h : c.isDigit = true) :
    decimal? c = some (c.toNat - '0'.toNat) := by
  obtain ⟨hle, hlt⟩ := isDigit_iff.1 h
  rw [decimal?, zeros, List.find?_cons_of_pos (by simp [hle, hlt])]
  rfl

lemma not_isSpace {c : Char} (h : c.isDigit = true) : ¬isSpace c = true := by
  obtain ⟨hle, hlt⟩ := isDigit_iff.1 h
  simp only [isSpace, List.mem_cons, List.not_mem_nil, or_false, Bool.or_eq_true, Bool.and_eq_true,
    decide_eq_true_eq]
  omega

lemma digits?_of_isDigit {l : List Char} (h : ∀ c ∈ l, c.isDigit = true) (value : ℕ) :
    digits? value l = some (Nat.ofDigitChars 10 l value) := by
  induction l generalizing value with
  | nil => rfl
  | cons c rest ih =>
    have hc := h c List.mem_cons_self
    rw [digits?, decimal?_of_isDigit hc, Option.bind_some,
      ih (fun c hc => h c (List.mem_cons_of_mem _ hc)), Nat.ofDigitChars_cons]
    rintro c' rest' rfl -
    cases hc

/-- A number is read as it is written. -/
lemma int?_toString (n : ℕ) : int? (toString n) = some (n : ℤ) := by
  have hlist : (toString n).toList = Nat.toDigits 10 n := by
    rw [Nat.toString_eq_repr, Nat.toList_repr]
  have hdigits : ∀ c ∈ Nat.toDigits 10 n, c.isDigit = true := fun c hc =>
    Nat.isDigit_of_mem_toDigits (by omega) (by omega) hc
  have hspaces : ∀ c ∈ Nat.toDigits 10 n, ¬isSpace c = true := fun c hc =>
    not_isSpace (hdigits c hc)
  have hvalue : Nat.ofDigitChars 10 (Nat.toDigits 10 n) 0 = n := by simp
  cases hl : Nat.toDigits 10 n with
  | nil => exact absurd hl Nat.toDigits_ne_nil
  | cons c rest =>
    rw [hl] at hdigits hspaces hvalue
    have hc := hdigits c List.mem_cons_self
    have hread : natural? (c :: rest) = some n := by
      rw [natural?, decimal?_of_isDigit hc, Option.bind_some,
        digits?_of_isDigit fun c hc => hdigits c (List.mem_cons_of_mem _ hc), ← hvalue,
        Nat.ofDigitChars_cons, Nat.mul_zero, Nat.zero_add]
    have hstrip : ((c :: rest).dropWhile isSpace).rdropWhile isSpace = c :: rest := by
      rw [List.dropWhile_cons_of_neg (hspaces c List.mem_cons_self), List.rdropWhile_eq_self_iff]
      exact fun hne => hspaces _ (List.getLast_mem hne)
    unfold int?
    rw [hlist, hl, hstrip]
    split
    · rename_i heq
      cases heq
      cases hc
    · rename_i heq
      cases heq
      cases hc
    · rw [hread]
      rfl

end ManagedAgents.Lib
