import Mathlib

/-!
Strings of UTF-16 code units, as JavaScript has them: the code points a loop over a string yields,
its size in UTF-8, and what JSON writes for it. A surrogate without a partner is a code point of
its own.
-/

namespace ManagedAgents.Lib

abbrev Units := List UInt16

def isHigh (u : UInt16) : Bool := 0xD800 ≤ u && u < 0xDC00
def isLow (u : UInt16) : Bool := 0xDC00 ≤ u && u < 0xE000

/-- What `for (const char of text)` goes through. -/
def codePoints : Units → List Units
  | [] => []
  | [u] => [[u]]
  | u :: v :: rest =>
    if isHigh u && isLow v then [u, v] :: codePoints rest else [u] :: codePoints (v :: rest)

/-- The bytes of a code point; a surrogate alone is written as the replacement character. -/
def utf8Size : Units → ℕ
  | [u] => if u < 0x80 then 1 else if u < 0x800 then 2 else 3
  | _ => 4

/-- `Buffer.byteLength`. -/
def byteLength (text : Units) : ℕ := ((codePoints text).map utf8Size).sum

/-- The units of a text that is well formed. -/
def utf16 (s : String) : Units :=
  s.toList.flatMap fun c =>
    if c.toNat < 0x10000 then [c.toNat.toUInt16]
    else
      let v := c.toNat - 0x10000
      [(0xD800 + v / 1024).toUInt16, (0xDC00 + v % 1024).toUInt16]

/-- Text of the ASCII range. -/
def ascii (s : String) : Units := s.toList.map fun c => c.toNat.toUInt16

def decimal (n : ℕ) : Units := (Nat.toDigits 10 n).map fun c => c.toNat.toUInt16

def hexDigit (n : ℕ) : UInt16 := (if n < 10 then 48 + n else 87 + n).toUInt16

/-- `\u` and four digits. -/
def escapeUnit (u : UInt16) : Units :=
  [92, 117, hexDigit (u.toNat / 4096), hexDigit (u.toNat / 256 % 16), hexDigit (u.toNat / 16 % 16),
    hexDigit (u.toNat % 16)]

/-- How JSON writes a code point. -/
def escape : Units → Units
  | [u] =>
    if u = 34 then [92, 34]
    else if u = 92 then [92, 92]
    else if u = 8 then [92, 98]
    else if u = 9 then [92, 116]
    else if u = 10 then [92, 110]
    else if u = 12 then [92, 102]
    else if u = 13 then [92, 114]
    else if u < 0x20 || isHigh u || isLow u then escapeUnit u
    else [u]
  | char => char

/-- What `JSON.stringify` makes of a string. -/
def quote (text : Units) : Units := 34 :: (codePoints text).flatMap escape ++ [34]

/-! ### Code points -/

lemma codePoints_cons (u v : UInt16) (rest : Units) : codePoints (u :: v :: rest) =
    if isHigh u && isLow v then [u, v] :: codePoints rest else [u] :: codePoints (v :: rest) := rfl

/-- A code point is a unit or a pair. -/
lemma codePoints_cases {text char : Units} (h : char ∈ codePoints text) :
    (∃ u, char = [u]) ∨ ∃ u v, char = [u, v] := by
  induction text using codePoints.induct with
  | case1 => cases h
  | case2 u => exact .inl ⟨u, List.mem_singleton.mp h⟩
  | case3 u v rest hpair ih =>
    rw [codePoints_cons, if_pos hpair] at h
    rcases List.mem_cons.mp h with rfl | h
    · exact .inr ⟨u, v, rfl⟩
    · exact ih h
  | case4 u v rest hpair ih =>
    rw [codePoints_cons, if_neg hpair] at h
    rcases List.mem_cons.mp h with rfl | h
    · exact .inl ⟨u, rfl⟩
    · exact ih h

lemma codePoints_flatten (text : Units) : (codePoints text).flatten = text := by
  induction text using codePoints.induct with
  | case1 => rfl
  | case2 u => rfl
  | case3 u v rest hpair ih =>
    rw [codePoints_cons, if_pos hpair, List.flatten_cons, ih]
    rfl
  | case4 u v rest hpair ih =>
    rw [codePoints_cons, if_neg hpair, List.flatten_cons, ih]
    rfl

lemma codePoints_plain {text : Units} (h : ∀ u ∈ text, isHigh u = false) :
    codePoints text = text.map fun u => [u] := by
  induction text using codePoints.induct with
  | case1 => rfl
  | case2 u => rfl
  | case3 u v rest hpair ih => simp [h u (by simp)] at hpair
  | case4 u v rest hpair ih =>
    rw [codePoints_cons, if_neg hpair, ih fun w hw => h w (by simp_all)]
    rfl

lemma length_codePoints (text : Units) :
    ((codePoints text).map List.length).sum = text.length := by
  rw [← List.length_flatten, codePoints_flatten]

/-- What holds of the sizes of every code point holds of those of the text. -/
lemma sum_codePoints_le (text : Units) (k : ℕ) {f g : Units → ℕ}
    (hunit : ∀ u, f [u] ≤ k * g [u]) (hpair : ∀ u v, f [u, v] ≤ k * g [u, v]) :
    ((codePoints text).map f).sum ≤ k * ((codePoints text).map g).sum := by
  have hall : ∀ char ∈ codePoints text, f char ≤ k * g char := by
    intro char h
    rcases codePoints_cases h with ⟨u, rfl⟩ | ⟨u, v, rfl⟩
    · exact hunit u
    · exact hpair u v
  generalize codePoints text = chars at hall
  induction chars with
  | nil => simp
  | cons char chars ih =>
    have hfirst := hall char (by simp)
    have hrest := ih fun c hc => hall c (by simp [hc])
    simp only [List.map_cons, List.sum_cons, Nat.mul_add]
    omega

/-! ### Sizes -/

lemma utf8Size_unit (u : UInt16) : 1 ≤ utf8Size [u] ∧ utf8Size [u] ≤ 3 := by
  simp only [utf8Size]
  split
  · omega
  · split <;> omega

/-- A unit takes a byte at least. -/
lemma length_le_byteLength (text : Units) : text.length ≤ byteLength text := by
  rw [← length_codePoints, ← Nat.one_mul (byteLength text)]
  refine sum_codePoints_le text 1 (fun u => ?_) fun u v => by simp [utf8Size]
  have := (utf8Size_unit u).1
  simpa using this

lemma byteLength_le (text : Units) : byteLength text ≤ 3 * text.length := by
  rw [← length_codePoints]
  refine sum_codePoints_le text 3 (fun u => ?_) fun u v => by simp [utf8Size]
  have := (utf8Size_unit u).2
  simpa using this

lemma length_escape_le (u : UInt16) : (escape [u]).length ≤ 6 := by
  simp only [escape]
  split_ifs <;> simp [escapeUnit]

lemma length_quote_le (text : Units) : (quote text).length ≤ 6 * text.length + 2 := by
  have hbody : ((codePoints text).flatMap escape).length ≤ 6 * text.length := by
    rw [List.length_flatMap, ← length_codePoints]
    refine sum_codePoints_le text 6 (fun u => ?_) fun u v => by simp [escape]
    simpa using length_escape_le u
  simp only [quote, List.length_append, List.length_cons, List.length_nil]
  omega

lemma length_decimal_le {n k : ℕ} (hk : 0 < k) (h : n < 10 ^ k) : (decimal n).length ≤ k := by
  rw [decimal, List.length_map]
  exact (Nat.length_toDigits_le_iff (by decide) hk).mpr h

end ManagedAgents.Lib
