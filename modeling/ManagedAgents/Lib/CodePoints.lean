import Mathlib.Data.List.Defs
import Mathlib.Data.Nat.Notation
import Mathlib.Tactic.Lemma

/-!
Texts as lists of code points, as Python has them. A surrogate can stand alone, and then the text
has no encoding.
-/

namespace ManagedAgents.Lib

abbrev CodePoints := List ℕ

instance CodePoints.lawfulBEq : LawfulBEq CodePoints := inferInstance

def codes (s : String) : CodePoints := s.toList.map Char.toNat

/-- No code point is a surrogate, so that the text can be encoded. -/
def encodable (s : CodePoints) : Bool :=
  s.all fun c => c < 0xD800 || (0xDFFF < c && c < 0x110000)

/-- The string that an encodable text is. -/
def decoded (s : CodePoints) : String := String.ofList (s.map Char.ofNat)

variable {s t : String}

@[simp] lemma codes_inj : codes s = codes t ↔ s = t := by
  constructor
  · intro h
    have hchars := congrArg (List.map Char.ofNat) h
    exact String.toList_inj.mp (by simpa [codes, Function.comp_def] using hchars)
  · exact congrArg codes

@[simp] lemma codes_beq : (codes s == codes t) = (s == t) := by
  rw [Bool.eq_iff_iff, beq_iff_eq, beq_iff_eq, codes_inj]

@[simp] lemma codes_eq_nil : codes s = [] ↔ s = "" := by
  rw [← codes_inj]
  rfl

end ManagedAgents.Lib
