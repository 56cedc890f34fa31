import ManagedAgents.Lib.CodePoints
import ManagedAgents.Lib.Double

/-!
JSON as Python's `json.loads` reads it from bytes, and what compact writers make of strings and
objects.

The reader takes a bound on its steps; the length of the text is enough, since every step reads on.
-/

namespace ManagedAgents.Lib.Json

/-- What a JSON text stands for. A float that is no number has no value. -/
inductive Value
  | null
  | bool (b : Bool)
  | int (z : ℤ)
  | float (x : Option ℚ)
  | str (s : CodePoints)
  | arr (items : List Value)
  | obj (fields : List (CodePoints × Value))

/-! ### Encodings -/

def isContinuation (b : UInt8) : Bool := 0x80 ≤ b.toNat && b.toNat < 0xC0

/-- The bits of a continuation byte. -/
def tail (b : UInt8) : ℕ := b.toNat - 0x80

/-- One code point of UTF-8; surrogates pass. -/
def decodeUtf8 : List UInt8 → Option (ℕ × List UInt8)
  | [] => none
  | a :: rest =>
    if a.toNat < 0x80 then some (a.toNat, rest)
    else
      match rest with
      | [] => none
      | b :: rest =>
        if !isContinuation b then none
        else if 0xC2 ≤ a.toNat ∧ a.toNat < 0xE0 then
          some ((a.toNat - 0xC0) * 64 + tail b, rest)
        else
          match rest with
          | [] => none
          | c :: rest =>
            if !isContinuation c then none
            else if 0xE0 ≤ a.toNat ∧ a.toNat < 0xF0 then
              let v := (a.toNat - 0xE0) * 4096 + tail b * 64 + tail c
              if v < 0x800 then none else some (v, rest)
            else
              match rest with
              | [] => none
              | d :: rest =>
                if !isContinuation d then none
                else if 0xF0 ≤ a.toNat ∧ a.toNat < 0xF5 then
                  let v := (a.toNat - 0xF0) * 262144 + tail b * 4096 + tail c * 64 + tail d
                  if v < 0x10000 ∨ 0x10FFFF < v then none else some (v, rest)
                else none

def isHigh (u : ℕ) : Bool := 0xD800 ≤ u && u < 0xDC00
def isLow (u : ℕ) : Bool := 0xDC00 ≤ u && u < 0xE000

def join (high low : ℕ) : ℕ := 0x10000 + (high - 0xD800) * 1024 + (low - 0xDC00)

def unit (big : Bool) (a b : UInt8) : ℕ :=
  if big then a.toNat * 256 + b.toNat else b.toNat * 256 + a.toNat

/-- One code point of UTF-16; surrogates pass. -/
def decodeUtf16 (big : Bool) : List UInt8 → Option (ℕ × List UInt8)
  | a :: b :: c :: d :: rest =>
    if isHigh (unit big a b) && isLow (unit big c d) then
      some (join (unit big a b) (unit big c d), rest)
    else some (unit big a b, c :: d :: rest)
  | a :: b :: rest => some (unit big a b, rest)
  | _ => none

/-- One code point of UTF-32; surrogates pass. -/
def decodeUtf32 (big : Bool) : List UInt8 → Option (ℕ × List UInt8)
  | a :: b :: c :: d :: rest =>
    let v := if big then unit true a b * 65536 + unit true c d
      else unit false c d * 65536 + unit false a b
    if 0x10FFFF < v then none else some (v, rest)
  | _ => none

def decodeAll (one : List UInt8 → Option (ℕ × List UInt8)) : ℕ → List UInt8 → Option CodePoints
  | _, [] => some []
  | 0, _ :: _ => none
  | n + 1, b :: bytes =>
    (one (b :: bytes)).bind fun (c, rest) => (decodeAll one n rest).map (c :: ·)

def decodeWith (one : List UInt8 → Option (ℕ × List UInt8)) (bytes : List UInt8) :
    Option CodePoints :=
  decodeAll one bytes.length bytes

/-- `s.decode(detect_encoding(s), 'surrogatepass')`. -/
def decode (bytes : List UInt8) : Option CodePoints :=
  if bytes.take 4 = [0, 0, 0xFE, 0xFF] then decodeWith (decodeUtf32 true) (bytes.drop 4)
  else if bytes.take 4 = [0xFF, 0xFE, 0, 0] then decodeWith (decodeUtf32 false) (bytes.drop 4)
  else if bytes.take 2 = [0xFE, 0xFF] then decodeWith (decodeUtf16 true) (bytes.drop 2)
  else if bytes.take 2 = [0xFF, 0xFE] then decodeWith (decodeUtf16 false) (bytes.drop 2)
  else if bytes.take 3 = [0xEF, 0xBB, 0xBF] then decodeWith decodeUtf8 (bytes.drop 3)
  else
    match bytes with
    | a :: b :: c :: d :: _ =>
      if a = 0 then decodeWith (if b ≠ 0 then decodeUtf16 true else decodeUtf32 true) bytes
      else if b = 0 then
        decodeWith (if c ≠ 0 ∨ d ≠ 0 then decodeUtf16 false else decodeUtf32 false) bytes
      else decodeWith decodeUtf8 bytes
    | [a, b] =>
      if a = 0 then decodeWith (decodeUtf16 true) bytes
      else if b = 0 then decodeWith (decodeUtf16 false) bytes
      else decodeWith decodeUtf8 bytes
    | _ => decodeWith decodeUtf8 bytes

/-! ### Strings -/

def isSpace (c : ℕ) : Bool := c == 32 || c == 9 || c == 10 || c == 13

def skip (text : CodePoints) : CodePoints := text.dropWhile isSpace

def unescape : ℕ → Option ℕ
  | 34 => some 34
  | 92 => some 92
  | 47 => some 47
  | 98 => some 8
  | 102 => some 12
  | 110 => some 10
  | 114 => some 13
  | 116 => some 9
  | _ => none

def hexValue (c : ℕ) : Option ℕ :=
  if 48 ≤ c ∧ c ≤ 57 then some (c - 48)
  else if 97 ≤ c ∧ c ≤ 102 then some (c - 87)
  else if 65 ≤ c ∧ c ≤ 70 then some (c - 55)
  else none

def hexUnit : CodePoints → Option (ℕ × CodePoints)
  | a :: b :: c :: d :: rest => do
    let a ← hexValue a
    let b ← hexValue b
    let c ← hexValue c
    let d ← hexValue d
    some (a * 4096 + b * 256 + c * 16 + d, rest)
  | _ => none

/-- The code point after a backslash; two escaped surrogates are one. -/
def scanEscape : CodePoints → Option (ℕ × CodePoints)
  | 117 :: rest => do
    let (u, rest) ← hexUnit rest
    match rest with
    | 92 :: 117 :: more =>
      if isHigh u then
        let (v, more) ← hexUnit more
        if isLow v then some (join u v, more) else some (u, rest)
      else some (u, rest)
    | _ => some (u, rest)
  | c :: rest => (unescape c).map fun d => (d, rest)
  | [] => none

/-- A string after its opening quote. -/
def scanString : ℕ → CodePoints → Option (CodePoints × CodePoints)
  | 0, _ => none
  | _ + 1, [] => none
  | n + 1, c :: rest =>
    if c = 34 then some ([], rest)
    else if c = 92 then
      (scanEscape rest).bind fun (d, rest) =>
        (scanString n rest).map fun (s, rest) => (d :: s, rest)
    else if c < 32 then none
    else (scanString n rest).map fun (s, rest) => (c :: s, rest)

/-! ### Numbers -/

def isDigit (c : ℕ) : Bool := 48 ≤ c && c ≤ 57

def digits (text : CodePoints) : CodePoints × CodePoints := text.span isDigit

def natOf (ds : CodePoints) : ℕ := ds.foldl (fun n d => 10 * n + (d - 48)) 0

def signed (negative : Bool) (n : ℕ) : ℤ := if negative then -n else n

def scanSign : CodePoints → Bool × CodePoints
  | 45 :: rest => (true, rest)
  | text => (false, text)

/-- The digits after a point, if there are any. -/
def scanFraction : CodePoints → CodePoints × CodePoints
  | 46 :: d :: rest => if isDigit d then digits (d :: rest) else ([], 46 :: d :: rest)
  | text => ([], text)

def scanExponent : CodePoints → Option ℤ × CodePoints
  | c :: rest =>
    if c = 101 ∨ c = 69 then
      let (negative, after) :=
        match rest with
        | 43 :: rest => (false, rest)
        | rest => scanSign rest
      let (ds, after) := digits after
      if ds = [] then (none, c :: rest) else (some (signed negative (natOf ds)), after)
    else (none, c :: rest)
  | [] => (none, [])

/-- The nearest double, unless it is infinite. -/
def nearest (x : ℚ) : Option ℚ := if |x| < doubleLimit then some (toDouble x) else none

/-- `int` refuses more digits than this. -/
def maxDigits : ℕ := 4300

def scanNumber (text : CodePoints) : Option (Value × CodePoints) :=
  let (negative, text) := scanSign text
  match text with
  | [] => none
  | c :: rest =>
    if !isDigit c then none
    else
      let (whole, rest) := if c = 48 then ([c], rest) else digits (c :: rest)
      let (fraction, rest) := scanFraction rest
      let (exponent, rest) := scanExponent rest
      if fraction = [] ∧ exponent = none then
        if maxDigits < whole.length then none
        else some (.int (signed negative (natOf whole)), rest)
      else
        let scale : ℤ := exponent.getD 0 - fraction.length
        some (.float (nearest (signed negative (natOf (whole ++ fraction)) * 10 ^ scale)), rest)

/-! ### Values -/

/-- The text after a word. -/
def after (word : String) (text : CodePoints) : Option CodePoints :=
  if text.take word.length = codes word then some (text.drop word.length) else none

/-- A field of a dictionary: the last value of a key counts. -/
def setField (fields : List (CodePoints × Value)) (key : CodePoints) (value : Value) :
    List (CodePoints × Value) :=
  if key ∈ fields.map Prod.fst then
    fields.map fun field => if field.1 = key then (key, value) else field
  else fields ++ [(key, value)]

/-- The constants and the numbers. -/
def scanAtom (text : CodePoints) : Option (Value × CodePoints) :=
  ((after "null" text).map fun rest => (.null, rest)) <|>
    ((after "true" text).map fun rest => (.bool true, rest)) <|>
    ((after "false" text).map fun rest => (.bool false, rest)) <|>
    ((after "NaN" text).map fun rest => (.float none, rest)) <|>
    ((after "Infinity" text).map fun rest => (.float none, rest)) <|>
    ((after "-Infinity" text).map fun rest => (.float none, rest)) <|> scanNumber text

mutual

/-- `scan_once`. -/
def scanOnce : ℕ → CodePoints → Option (Value × CodePoints)
  | 0, _ => none
  | n + 1, text =>
    match text with
    | 34 :: rest => (scanString (rest.length + 1) rest).map fun (s, rest) => (.str s, rest)
    | 123 :: rest =>
      match skip rest with
      | 125 :: rest => some (.obj [], rest)
      | rest => scanMembers n [] rest
    | 91 :: rest =>
      match skip rest with
      | 93 :: rest => some (.arr [], rest)
      | rest => scanItems n [] rest
    | text => scanAtom text

/-- The rest of an object, from a key on. -/
def scanMembers : ℕ → List (CodePoints × Value) → CodePoints → Option (Value × CodePoints)
  | 0, _, _ => none
  | n + 1, fields, text =>
    match text with
    | 34 :: rest => do
      let (key, rest) ← scanString (rest.length + 1) rest
      match skip rest with
      | 58 :: rest =>
        let (value, rest) ← scanOnce n (skip rest)
        match skip rest with
        | 125 :: rest => some (.obj (setField fields key value), rest)
        | 44 :: rest => scanMembers n (setField fields key value) (skip rest)
        | _ => none
      | _ => none
    | _ => none

/-- The rest of an array, from an item on. -/
def scanItems : ℕ → List Value → CodePoints → Option (Value × CodePoints)
  | 0, _, _ => none
  | n + 1, items, text => do
    let (value, rest) ← scanOnce n text
    match skip rest with
    | 93 :: rest => some (.arr (items ++ [value]), rest)
    | 44 :: rest => scanItems n (items ++ [value]) (skip rest)
    | _ => none

end

/-- `json.loads`. -/
def loads (bytes : List UInt8) : Option Value := do
  let text ← decode bytes
  let (value, rest) ← scanOnce (text.length + 1) (skip text)
  if skip rest = [] then some value else none

/-! ### Compact text -/

def hexDigit (n : ℕ) : ℕ := if n < 10 then 48 + n else 87 + n

/-- How a writer puts a code point into a string: only what has to be escaped is. -/
def escape (c : ℕ) : CodePoints :=
  if c = 34 then [92, 34]
  else if c = 92 then [92, 92]
  else if c = 8 then [92, 98]
  else if c = 9 then [92, 116]
  else if c = 10 then [92, 110]
  else if c = 12 then [92, 102]
  else if c = 13 then [92, 114]
  else if c < 32 then [92, 117, 48, 48, hexDigit (c / 16), hexDigit (c % 16)]
  else [c]

def quote (s : CodePoints) : CodePoints := 34 :: (s.flatMap escape ++ [34])

/-- The fields of an object, each with the text of its value. -/
def writeMembers : List (CodePoints × CodePoints) → CodePoints
  | [] => []
  | [(key, text)] => quote key ++ 58 :: text
  | (key, text) :: rest => quote key ++ 58 :: text ++ 44 :: writeMembers rest

def writeObject (fields : List (CodePoints × CodePoints)) : CodePoints :=
  123 :: (writeMembers fields ++ [125])

def encodeUtf8 (c : ℕ) : List UInt8 :=
  if c < 0x80 then [c.toUInt8]
  else if c < 0x800 then [(0xC0 + c / 64).toUInt8, (0x80 + c % 64).toUInt8]
  else if c < 0x10000 then
    [(0xE0 + c / 4096).toUInt8, (0x80 + c / 64 % 64).toUInt8, (0x80 + c % 64).toUInt8]
  else
    [(0xF0 + c / 262144).toUInt8, (0x80 + c / 4096 % 64).toUInt8, (0x80 + c / 64 % 64).toUInt8,
      (0x80 + c % 64).toUInt8]

def encode (text : CodePoints) : List UInt8 := text.flatMap encodeUtf8

/-! ### What was encoded is decoded -/

variable {rest text : CodePoints} {n c : ℕ}

lemma toNat_toUInt8 (h : n < 256) : n.toUInt8.toNat = n := by
  simp only [Nat.toUInt8, UInt8.toNat_ofNat']
  omega

lemma isContinuation_toUInt8 (c : ℕ) : isContinuation (0x80 + c % 64).toUInt8 = true := by
  have := toNat_toUInt8 (n := 0x80 + c % 64) (by omega)
  simp only [isContinuation, this, Bool.and_eq_true, decide_eq_true_eq]
  omega

lemma tail_toUInt8 (c : ℕ) : tail (0x80 + c % 64).toUInt8 = c % 64 := by
  have hbyte := toNat_toUInt8 (n := 0x80 + c % 64) (by omega)
  have htail : tail (0x80 + c % 64).toUInt8 = (0x80 + c % 64).toUInt8.toNat - 0x80 := rfl
  omega

lemma decodeUtf8_encodeUtf8 (h : c ≤ 0x10FFFF) (rest : List UInt8) :
    decodeUtf8 (encodeUtf8 c ++ rest) = some (c, rest) := by
  unfold encodeUtf8
  split_ifs with h₁ h₂ h₃
  · have ha := toNat_toUInt8 (n := c) (by omega)
    simp [decodeUtf8, ha, h₁]
  · have ha := toNat_toUInt8 (n := 0xC0 + c / 64) (by omega)
    simp only [List.cons_append, List.nil_append, decodeUtf8, ha, isContinuation_toUInt8,
      tail_toUInt8]
    rw [if_neg (by omega), if_neg (by simp), if_pos (by omega)]
    congr 2
    omega
  · have ha := toNat_toUInt8 (n := 0xE0 + c / 4096) (by omega)
    simp only [List.cons_append, List.nil_append, decodeUtf8, ha, isContinuation_toUInt8,
      tail_toUInt8]
    rw [if_neg (by omega), if_neg (by simp), if_neg (by omega), if_neg (by simp),
      if_pos (by omega), if_neg (by omega)]
    congr 2
    omega
  · have ha := toNat_toUInt8 (n := 0xF0 + c / 262144) (by omega)
    simp only [List.cons_append, List.nil_append, decodeUtf8, ha, isContinuation_toUInt8,
      tail_toUInt8]
    rw [if_neg (by omega), if_neg (by simp), if_neg (by omega), if_neg (by simp),
      if_neg (by omega), if_neg (by simp), if_pos (by omega), if_neg (by omega)]
    congr 2
    omega

lemma encodeUtf8_ne_nil (c : ℕ) : encodeUtf8 c ≠ [] := by
  unfold encodeUtf8
  split_ifs <;> simp

lemma decodeAll_encode (h : ∀ c ∈ text, c ≤ 0x10FFFF) (hn : text.length ≤ n) :
    decodeAll decodeUtf8 n (encode text) = some text := by
  induction text generalizing n with
  | nil => cases n <;> rfl
  | cons c text ih =>
    obtain ⟨n, rfl⟩ : ∃ k, n = k + 1 := ⟨n - 1, by simp at hn; omega⟩
    have hfirst := decodeUtf8_encodeUtf8 (h c (by simp)) (encode text)
    have hrest := ih (n := n) (fun d hd => h d (by simp [hd])) (by simpa using hn)
    have hne : encodeUtf8 c ++ encode text ≠ [] := by
      simp [encodeUtf8_ne_nil]
    have hcons : encode (c :: text) = encodeUtf8 c ++ encode text := rfl
    rw [hcons]
    cases hbytes : encodeUtf8 c ++ encode text with
    | nil => exact absurd hbytes hne
    | cons b bytes =>
      rw [decodeAll, ← hbytes, hfirst, Option.bind_some]
      simp only [hrest, Option.map_some]

lemma length_le_encode (text : CodePoints) : text.length ≤ (encode text).length := by
  induction text with
  | nil => exact Nat.le_refl 0
  | cons c text ih =>
    have := List.length_pos_iff.mpr (encodeUtf8_ne_nil c)
    have hcons : encode (c :: text) = encodeUtf8 c ++ encode text := rfl
    rw [hcons, List.length_append, List.length_cons]
    omega

/-- Bytes that begin with two ASCII characters are taken for UTF-8. -/
lemma decode_ascii {a b : UInt8} (ha : 0 < a.toNat ∧ a.toNat < 0x80) (hb : b ≠ 0)
    (bytes : List UInt8) :
    decode (a :: b :: bytes) = decodeWith decodeUtf8 (a :: b :: bytes) := by
  have hne : ∀ n : UInt8, n.toNat = 0 ∨ 0x80 ≤ n.toNat → a ≠ n := by
    rintro n hn rfl
    omega
  have h₀ := hne 0 (by decide)
  have h₁ := hne 0xFF (by decide)
  have h₂ := hne 0xFE (by decide)
  have h₃ := hne 0xEF (by decide)
  unfold decode
  rw [if_neg (by simp [h₀]), if_neg (by simp [h₁]), if_neg (by simp [h₂]), if_neg (by simp [h₁]),
    if_neg (by simp [h₃])]
  split
  · rename_i heq
    cases heq
    rw [if_neg h₀, if_neg hb]
  · rename_i heq
    cases heq
    rw [if_neg h₀, if_neg hb]
  · rfl

lemma decode_encode {a b : ℕ} (ha : 0 < a ∧ a < 0x80) (hb : 0 < b ∧ b < 0x80)
    (h : ∀ c ∈ text, c ≤ 0x10FFFF) :
    decode (encode (a :: b :: text)) = some (a :: b :: text) := by
  have hall : ∀ c ∈ a :: b :: text, c ≤ 0x10FFFF := by
    simp only [List.mem_cons]
    rintro c (rfl | rfl | hc)
    · omega
    · omega
    · exact h c hc
  have hutf8 := decodeAll_encode hall (length_le_encode (a :: b :: text))
  have hbytes : encode (a :: b :: text) = a.toUInt8 :: b.toUInt8 :: encode text := by
    simp [encode, encodeUtf8, ha.2, hb.2]
  have hfirst := toNat_toUInt8 (n := a) (by omega)
  have hsecond : b.toUInt8 ≠ 0 := by
    intro hzero
    have := toNat_toUInt8 (n := b) (by omega)
    rw [hzero] at this
    simp at this
    omega
  rw [hbytes] at hutf8 ⊢
  rw [decode_ascii (by omega) hsecond]
  exact hutf8

/-! ### What was written is read -/

/-- A writer's hexadecimal digits. -/
lemma hexValue_hexDigit (h : n < 16) : hexValue (hexDigit n) = some n := by
  unfold hexDigit hexValue
  split_ifs <;> first | omega | (congr 1; omega)

/-- An escaped control character. -/
lemma scanEscape_control (h : c < 32) (rest : CodePoints) :
    scanEscape (117 :: 48 :: 48 :: hexDigit (c / 16) :: hexDigit (c % 16) :: rest) =
      some (c, rest) := by
  have hunit : hexUnit (48 :: 48 :: hexDigit (c / 16) :: hexDigit (c % 16) :: rest) =
      some (c, rest) := by
    have hzero : hexValue 48 = some 0 := rfl
    simp only [hexUnit, hzero, hexValue_hexDigit (n := c / 16) (by omega),
      hexValue_hexDigit (n := c % 16) (by omega), Option.bind_eq_bind, Option.bind_some]
    congr 2
    omega
  have hlow : isHigh c = false := by
    simp only [isHigh, Bool.and_eq_false_iff, decide_eq_false_iff_not]
    omega
  simp only [scanEscape, hunit, Option.bind_eq_bind, Option.bind_some]
  split
  · rw [if_neg (by simp [hlow])]
  · rfl

lemma scanString_escape (c : ℕ) (rest : CodePoints) (n : ℕ) :
    scanString (n + 1) (escape c ++ rest) =
      (scanString n rest).map fun (s, rest) => (c :: s, rest) := by
  unfold escape
  split_ifs with h₁ h₂ h₃ h₄ h₅ h₆ h₇ h₈
  · simp [scanString, scanEscape, unescape, h₁]
  · simp [scanString, scanEscape, unescape, h₂]
  · simp [scanString, scanEscape, unescape, h₃]
  · simp [scanString, scanEscape, unescape, h₄]
  · simp [scanString, scanEscape, unescape, h₅]
  · simp [scanString, scanEscape, unescape, h₆]
  · simp [scanString, scanEscape, unescape, h₇]
  · simp only [List.cons_append, List.nil_append, scanString, scanEscape_control h₈]
    simp
  · simp [scanString, h₁, h₂, h₈]

lemma scanString_quote (s rest : CodePoints) (h : s.length < n) :
    scanString n (s.flatMap escape ++ 34 :: rest) = some (s, rest) := by
  induction s generalizing n with
  | nil =>
    obtain ⟨n, rfl⟩ : ∃ k, n = k + 1 := ⟨n - 1, by simp at h; omega⟩
    simp [scanString]
  | cons c s ih =>
    obtain ⟨n, rfl⟩ : ∃ k, n = k + 1 := ⟨n - 1, by simp at h; omega⟩
    have hrest := ih (n := n) (by simpa using h)
    rw [List.flatMap_cons, List.append_assoc, scanString_escape, hrest]
    rfl

/-- What follows a value in a compact text. -/
def Closed (rest : CodePoints) : Prop := ∀ c ∈ rest.head?, c = 44 ∨ c = 125 ∨ c = 93 ∨ c = 10

/-- The text is read as the value, whatever compact text follows it. -/
structure Reads (text : CodePoints) (value : Value) : Prop where
  begins : ∃ c t, text = c :: t ∧ isSpace c = false
  scans : ∀ n rest, text.length ≤ n → Closed rest →
    scanOnce n (text ++ rest) = some (value, rest)

lemma skip_cons (h : isSpace c = false) (text : CodePoints) : skip (c :: text) = c :: text := by
  simp [skip, h]

lemma Reads.skip {value : Value} (h : Reads text value) (rest : CodePoints) :
    skip (text ++ rest) = text ++ rest := by
  obtain ⟨c, t, rfl, hc⟩ := h.begins
  exact skip_cons hc _

lemma length_le_escape (s : CodePoints) : s.length ≤ (s.flatMap escape).length := by
  induction s with
  | nil => exact Nat.le_refl 0
  | cons c s ih =>
    have hone : 1 ≤ (escape c).length := by
      unfold escape
      split_ifs <;> simp
    simp only [List.flatMap_cons, List.length_append, List.length_cons]
    omega

lemma scanString_quoted (s rest : CodePoints) :
    scanString ((s.flatMap escape ++ 34 :: rest).length + 1) (s.flatMap escape ++ 34 :: rest)
      = some (s, rest) := by
  refine scanString_quote s rest ?_
  have := length_le_escape s
  rw [List.length_append]
  omega

lemma reads_quote (s : CodePoints) : Reads (quote s) (.str s) := by
  refine ⟨⟨34, _, rfl, rfl⟩, fun n rest hn _ => ?_⟩
  obtain ⟨n, rfl⟩ : ∃ k, n = k + 1 := ⟨n - 1, by simp [quote] at hn; omega⟩
  have htext : quote s ++ rest = 34 :: (s.flatMap escape ++ 34 :: rest) := by
    simp [quote]
  rw [htext]
  simp only [scanOnce, scanString_quoted, Option.map_some]

lemma reads_null : Reads (codes "null") .null := by
  refine ⟨⟨110, _, rfl, rfl⟩, fun n rest hn _ => ?_⟩
  obtain ⟨n, rfl⟩ : ∃ k, n = k + 1 := ⟨n - 1, by simp [codes] at hn; omega⟩
  rfl

lemma Closed.number {rest : CodePoints} (h : Closed rest) :
    digits rest = ([], rest) ∧ scanFraction rest = ([], rest) ∧
      scanExponent rest = (none, rest) := by
  cases rest with
  | nil => exact ⟨rfl, rfl, rfl⟩
  | cons c rest =>
    have hc : c = 44 ∨ c = 125 ∨ c = 93 ∨ c = 10 := h c (by simp)
    rcases hc with rfl | rfl | rfl | rfl
    all_goals exact ⟨rfl, rfl, rfl⟩

/-- A digit is read as a number. -/
lemma reads_digit {d : ℕ} (hd : 49 ≤ d ∧ d ≤ 57) : Reads [d] (.int (d - 48 : ℕ)) := by
  have hspace : isSpace d = false := by
    simp only [isSpace, Bool.or_eq_false_iff, beq_eq_false_iff_ne]
    omega
  refine ⟨⟨d, [], rfl, hspace⟩, fun n rest hn hrest => ?_⟩
  obtain ⟨n, rfl⟩ : ∃ k, n = k + 1 := ⟨n - 1, by simp at hn; omega⟩
  have hdigit : isDigit d = true := by
    simp only [isDigit, Bool.and_eq_true, decide_eq_true_eq]
    omega
  obtain ⟨hdigits, hfraction, hexponent⟩ := hrest.number
  have hwhole : digits (d :: rest) = ([d], rest) := by
    rw [digits, List.span_eq_takeWhile_dropWhile] at hdigits ⊢
    simp only [Prod.mk.injEq] at hdigits
    simp [hdigit, hdigits.1, hdigits.2]
  have hnumber : scanNumber (d :: rest) = some (.int (d - 48 : ℕ), rest) := by
    have hsign : scanSign (d :: rest) = (false, d :: rest) := by
      unfold scanSign
      split
      · rename_i heq
        cases heq
        omega
      · rfl
    have hnonzero : d ≠ 48 := by omega
    simp only [scanNumber, hsign, hdigit, hwhole, hnonzero, if_false, hfraction, hexponent]
    simp [maxDigits, signed, natOf]
  have hword : ∀ (word : String) (c : ℕ) (t : CodePoints), codes word = c :: t →
      0 < word.length → c ≠ d → after word (d :: rest) = none := by
    intro word c t hcodes hlength hne
    obtain ⟨k, hk⟩ : ∃ k, word.length = k + 1 := ⟨word.length - 1, by omega⟩
    rw [after, if_neg]
    rw [hk, hcodes, List.take_succ_cons, List.cons.injEq]
    exact fun h => hne h.1.symm
  have hatom : scanAtom (d :: rest) = some (.int (d - 48 : ℕ), rest) := by
    rw [scanAtom, hword "null" 110 _ rfl (by decide) (by omega),
      hword "true" 116 _ rfl (by decide) (by omega),
      hword "false" 102 _ rfl (by decide) (by omega),
      hword "NaN" 78 _ rfl (by decide) (by omega),
      hword "Infinity" 73 _ rfl (by decide) (by omega),
      hword "-Infinity" 45 _ rfl (by decide) (by omega), hnumber]
    rfl
  simp only [List.cons_append, List.nil_append, scanOnce]
  split
  · rename_i heq
    cases heq
    omega
  · rename_i heq
    cases heq
    omega
  · rename_i heq
    cases heq
    omega
  · exact hatom

/-- The rest of an object is read, a field after the other. -/
lemma scanMembers_write (fields : List (CodePoints × CodePoints × Value))
    (hreads : ∀ f ∈ fields, Reads f.2.1 f.2.2) (hne : fields ≠ [])
    (read : List (CodePoints × Value))
    (hfresh : (read.map Prod.fst ++ fields.map Prod.fst).Nodup)
    (hn : (writeMembers (fields.map fun f => (f.1, f.2.1))).length ≤ n) (rest : CodePoints) :
    scanMembers n read (writeMembers (fields.map fun f => (f.1, f.2.1)) ++ 125 :: rest) =
      some (.obj (read ++ fields.map fun f => (f.1, f.2.2)), rest) := by
  induction fields generalizing n read with
  | nil => exact absurd rfl hne
  | cons f fields ih =>
    obtain ⟨key, text, value⟩ := f
    have hvalue : Reads text value := hreads (key, text, value) (by simp)
    have hkey : key ∉ read.map Prod.fst := by
      intro hmem
      exact (List.nodup_append.mp hfresh).2.2 key hmem key (by simp) rfl
    have hset : setField read key value = read ++ [(key, value)] := if_neg hkey
    -- the member up to its value, which some tail follows
    have hmember : ∀ k later, text.length ≤ k → Closed later →
        scanMembers (k + 1) read (quote key ++ 58 :: (text ++ later)) =
          match skip later with
          | 125 :: rest => some (.obj (setField read key value), rest)
          | 44 :: rest => scanMembers k (setField read key value) (skip rest)
          | _ => none := by
      intro k later hk hlater
      have hquote : quote key ++ 58 :: (text ++ later) =
          34 :: (key.flatMap escape ++ 34 :: 58 :: (text ++ later)) := by
        simp [quote]
      rw [hquote]
      simp only [scanMembers, scanString_quoted, Option.bind_eq_bind, Option.bind_some]
      rw [skip_cons rfl]
      simp only [hvalue.skip, hvalue.scans k later hk hlater, Option.bind_some]
    obtain ⟨n, rfl⟩ : ∃ k, n = k + 1 := by
      refine ⟨n - 1, ?_⟩
      have : 0 < (quote key).length := by simp [quote]
      cases fields <;> simp [writeMembers] at hn <;> omega
    cases fields with
    | nil =>
      simp only [List.map_cons, List.map_nil, writeMembers, List.length_append,
        List.length_cons] at hn ⊢
      have hread := hmember n (125 :: rest) (by omega) (by simp [Closed])
      rw [List.append_assoc, List.cons_append, hread, skip_cons rfl]
      simp only [hset]
    | cons g fields =>
      have hmore : writeMembers ((⟨key, text, value⟩ :: g :: fields).map fun f => (f.1, f.2.1)) =
          quote key ++ 58 ::
            (text ++ 44 :: writeMembers ((g :: fields).map fun f => (f.1, f.2.1))) := by
        simp [writeMembers]
      have hbegins : ∃ t, writeMembers ((g :: fields).map fun f => (f.1, f.2.1)) = 34 :: t := by
        cases fields <;> exact ⟨_, rfl⟩
      obtain ⟨t, ht⟩ := hbegins
      have hrest := ih (n := n) (fun f hf => hreads f (by simp [hf])) (by simp)
        (read ++ [(key, value)]) (by simpa using hfresh) (by
          rw [hmore, List.length_append, List.length_cons, List.length_append,
            List.length_cons] at hn
          omega)
      have hread := hmember n (44 :: (writeMembers ((g :: fields).map fun f => (f.1, f.2.1)) ++
        125 :: rest)) (by
          rw [hmore, List.length_append, List.length_cons, List.length_append] at hn
          omega) (by simp [Closed])
      have hskip : skip (writeMembers ((g :: fields).map fun f => (f.1, f.2.1)) ++ 125 :: rest) =
          writeMembers ((g :: fields).map fun f => (f.1, f.2.1)) ++ 125 :: rest := by
        rw [ht]
        exact skip_cons rfl _
      rw [hmore]
      simp only [List.append_assoc, List.cons_append]
      rw [hread, skip_cons rfl]
      simp only [hset, hskip]
      rw [hrest]
      simp

/-- A compact object is read. -/
lemma reads_object (fields : List (CodePoints × CodePoints × Value)) (hne : fields ≠ [])
    (hkeys : (fields.map Prod.fst).Nodup) (hreads : ∀ f ∈ fields, Reads f.2.1 f.2.2) :
    Reads (writeObject (fields.map fun f => (f.1, f.2.1)))
      (.obj (fields.map fun f => (f.1, f.2.2))) := by
  refine ⟨⟨123, _, rfl, rfl⟩, fun n rest hn _ => ?_⟩
  obtain ⟨n, rfl⟩ : ∃ k, n = k + 1 := ⟨n - 1, by simp [writeObject] at hn; omega⟩
  have hmembers := scanMembers_write (n := n) fields hreads hne [] (by simpa using hkeys)
    (by simp only [writeObject, List.length_cons, List.length_append] at hn; omega) rest
  obtain ⟨t, ht⟩ :
      ∃ t, writeMembers (fields.map fun f => (f.1, f.2.1)) ++ 125 :: rest = 34 :: t := by
    match fields, hne with
    | [f], _ => exact ⟨_, rfl⟩
    | f :: g :: fields, _ => exact ⟨_, rfl⟩
  have htext : writeObject (fields.map fun f => (f.1, f.2.1)) ++ rest =
      123 :: (writeMembers (fields.map fun f => (f.1, f.2.1)) ++ 125 :: rest) := by
    simp [writeObject]
  rw [htext]
  simp only [scanOnce]
  rw [ht] at hmembers ⊢
  rw [skip_cons rfl]
  simpa using hmembers

/-- Every code point is one of Unicode. -/
def Plain (text : CodePoints) : Prop := ∀ c ∈ text, c ≤ 0x10FFFF

lemma Plain.append {more : CodePoints} (h : Plain text) (hmore : Plain more) :
    Plain (text ++ more) := fun c hc =>
  (List.mem_append.mp hc).elim (h c) (hmore c)

lemma Plain.cons (hc : c ≤ 0x10FFFF) (h : Plain text) : Plain (c :: text) := by
  intro d hd
  rcases List.mem_cons.mp hd with rfl | hd
  · exact hc
  · exact h d hd

lemma plain_codes (s : String) : Plain (codes s) := by
  intro c hc
  obtain ⟨d, -, rfl⟩ := List.mem_map.mp hc
  have hvalid : d.toNat < 0xD800 ∨ 0xDFFF < d.toNat ∧ d.toNat < 0x110000 := d.valid
  omega

lemma plain_escape (h : c ≤ 0x10FFFF) : Plain (escape c) := by
  have hdigit : ∀ n, n < 16 → hexDigit n ≤ 0x10FFFF := by
    intro n hn
    unfold hexDigit
    split_ifs <;> omega
  have hhigh := hdigit (c / 16)
  have hlow := hdigit (c % 16) (by omega)
  intro d hd
  unfold escape at hd
  split_ifs at hd
  all_goals
    simp only [List.mem_cons, List.not_mem_nil, or_false] at hd
    omega

lemma plain_quote (h : Plain text) : Plain (quote text) := by
  have hbody : Plain (text.flatMap escape) := by
    intro d hd
    obtain ⟨c, hc, hd⟩ := List.mem_flatMap.mp hd
    exact plain_escape (h c hc) d hd
  exact .cons (by omega) (hbody.append (.cons (by omega) (by simp [Plain])))

lemma plain_object {fields : List (CodePoints × CodePoints)}
    (h : ∀ f ∈ fields, Plain f.1 ∧ Plain f.2) : Plain (writeObject fields) := by
  have hmembers : Plain (writeMembers fields) := by
    induction fields with
    | nil => simp [Plain, writeMembers]
    | cons f fields ih =>
      obtain ⟨hkey, hvalue⟩ := h f (by simp)
      have hrest := ih fun g hg => h g (by simp [hg])
      have hfirst : Plain (quote f.1 ++ 58 :: f.2) :=
        (plain_quote hkey).append (.cons (by omega) hvalue)
      cases fields with
      | nil => exact hfirst
      | cons g fields =>
        have hall := hfirst.append (.cons (c := 44) (by omega) hrest)
        simpa [writeMembers] using hall
  exact .cons (by omega) (hmembers.append (.cons (by omega) (by simp [Plain])))

/-- A compact text with a line's end is read as what its value is. -/
theorem loads_encode {value : Value} {a b : ℕ} (h : Reads (a :: b :: text) value)
    (ha : 0 < a ∧ a < 0x80) (hb : 0 < b ∧ b < 0x80) (htext : Plain text) :
    loads (encode (a :: b :: text ++ [10])) = some value := by
  have hline : Plain (text ++ [10]) := htext.append (.cons (by omega) (by simp [Plain]))
  have hdecode := decode_encode ha hb hline
  have hscan := h.scans ((a :: b :: text ++ [10]).length + 1) [10]
    (by simp only [List.length_append]; omega) (by simp [Closed])
  have hskip : skip [10] = [] := rfl
  simp only [List.cons_append] at hdecode hscan ⊢
  simp only [loads, hdecode, Option.bind_eq_bind, Option.bind_some]
  rw [show skip (a :: b :: (text ++ [10])) = a :: b :: (text ++ [10]) from h.skip [10], hscan]
  simp only [Option.bind_some, hskip, if_true]

end ManagedAgents.Lib.Json
