import ManagedAgents.Controller.Provider
import ManagedAgents.Lib.Double

/-!
JSON values in a protobuf `Struct`, and what is read back from it.

The carrier keeps strings, booleans, nulls, lists and the fields of objects, in no particular order;
it stores every number as the double nearest to it. A text that cannot be encoded raises, and so
does an integer that has no double. A number is an integer, or a finite float, as the decimal it is.
-/

namespace ManagedAgents.Controller

open ManagedAgents.Lib

namespace Json

/-- What holds of every value when it holds of the values it is made of. -/
@[induction_eliminator]
theorem induct {P : Json → Prop} (null : P null) (bool : ∀ b, P (bool b))
    (num : ∀ mantissa exponent, P (num mantissa exponent)) (str : ∀ s, P (str s))
    (arr : ∀ items, (∀ j ∈ items, P j) → P (arr items))
    (obj : ∀ fields, (∀ k j, (k, j) ∈ fields → P j) → P (obj fields)) : ∀ j, P j :=
  @Json.rec P (fun items => ∀ j ∈ items, P j) (fun fields => ∀ k j, (k, j) ∈ fields → P j)
    (fun field => P field.2) null bool num str arr obj (by simp)
    (fun item rest hitem hrest j hj => by
      rcases List.mem_cons.1 hj with rfl | hj
      · exact hitem
      · exact hrest j hj)
    (by simp)
    (fun field rest hfield hrest k j hj => by
      rcases List.mem_cons.1 hj with rfl | hj
      · exact hfield
      · exact hrest k j hj)
    fun _ _ h => h

/-! ### Numbers -/

def value (mantissa : ℤ) (exponent : ℕ) : ℚ := mantissa / 10 ^ exponent

mutual

/-- The numbers in a value. -/
def numbers : Json → List ℚ
  | num mantissa exponent => [value mantissa exponent]
  | arr items => itemNumbers items
  | obj fields => fieldNumbers fields
  | _ => []

def itemNumbers : List Json → List ℚ
  | [] => []
  | item :: rest => item.numbers ++ itemNumbers rest

def fieldNumbers : List (CodePoints × Json) → List ℚ
  | [] => []
  | (_, field) :: rest => field.numbers ++ fieldNumbers rest

end

mutual

/-- The texts in a value, the names of its fields included. -/
def texts : Json → List CodePoints
  | str s => [s]
  | arr items => itemTexts items
  | obj fields => fieldTexts fields
  | _ => []

def itemTexts : List Json → List CodePoints
  | [] => []
  | item :: rest => item.texts ++ itemTexts rest

def fieldTexts : List (CodePoints × Json) → List CodePoints
  | [] => []
  | (key, field) :: rest => key :: field.texts ++ fieldTexts rest

end

/-- Every text can be encoded. -/
def encodable (j : Json) : Bool := j.texts.all Lib.encodable

/-- Every number has a double to be stored as. -/
def fits (j : Json) : Bool := j.numbers.all fun x => |x| < doubleLimit

/-- Every number is stored as it is. -/
def Exact (j : Json) : Prop := ∀ x ∈ j.numbers, IsDouble x

lemma mem_itemNumbers {x : ℚ} {items : List Json} :
    x ∈ itemNumbers items ↔ ∃ j ∈ items, x ∈ j.numbers := by
  induction items with
  | nil => simp [itemNumbers]
  | cons item rest ih => simp [itemNumbers, ih]

lemma mem_fieldNumbers {x : ℚ} {fields : List (CodePoints × Json)} :
    x ∈ fieldNumbers fields ↔ ∃ k j, (k, j) ∈ fields ∧ x ∈ j.numbers := by
  induction fields with
  | nil => simp [fieldNumbers]
  | cons field rest ih =>
    obtain ⟨k, j⟩ := field
    simp only [fieldNumbers, List.mem_append, ih, List.mem_cons, Prod.mk.injEq]
    constructor
    · rintro (h | ⟨k', j', hmem, h⟩)
      · exact ⟨k, j, .inl ⟨rfl, rfl⟩, h⟩
      · exact ⟨k', j', .inr hmem, h⟩
    · rintro ⟨k', j', ⟨rfl, rfl⟩ | hmem, h⟩
      · exact .inl h
      · exact .inr ⟨k', j', hmem, h⟩

lemma fits_iff {j : Json} : j.fits = true ↔ ∀ x ∈ j.numbers, |x| < doubleLimit := by
  simp only [fits, List.all_eq_true, decide_eq_true_eq]

lemma Exact.fits {j : Json} (h : j.Exact) : j.fits = true :=
  fits_iff.2 fun x hx => (h x hx).lt_limit

@[simp] lemma exact_arr {items : List Json} : (arr items).Exact ↔ ∀ j ∈ items, j.Exact := by
  simp only [Exact, numbers, mem_itemNumbers]
  exact ⟨fun h j hj x hx => h x ⟨j, hj, hx⟩, fun h x ⟨j, hj, hx⟩ => h j hj x hx⟩

@[simp] lemma exact_obj {fields : List (CodePoints × Json)} :
    (obj fields).Exact ↔ ∀ k j, (k, j) ∈ fields → j.Exact := by
  simp only [Exact, numbers, mem_fieldNumbers]
  exact ⟨fun h k j hj x hx => h x ⟨k, j, hj, hx⟩, fun h x ⟨k, j, hj, hx⟩ => h k j hj x hx⟩

@[simp] lemma fits_arr {items : List Json} :
    (arr items).fits = true ↔ ∀ j ∈ items, j.fits = true := by
  simp only [fits_iff, numbers, mem_itemNumbers]
  exact ⟨fun h j hj x hx => h x ⟨j, hj, hx⟩, fun h x ⟨j, hj, hx⟩ => h j hj x hx⟩

@[simp] lemma fits_obj {fields : List (CodePoints × Json)} :
    (obj fields).fits = true ↔ ∀ k j, (k, j) ∈ fields → j.fits = true := by
  simp only [fits_iff, numbers, mem_fieldNumbers]
  exact ⟨fun h k j hj x hx => h x ⟨k, j, hj, hx⟩, fun h x ⟨k, j, hj, hx⟩ => h k j hj x hx⟩

/-! ### Equal values -/

/-- No object has two fields of one name. -/
inductive Dict : Json → Prop
  | null : Dict null
  | bool (b) : Dict (bool b)
  | num (mantissa exponent) : Dict (num mantissa exponent)
  | str (s) : Dict (str s)
  | arr {items} (h : ∀ j ∈ items, Dict j) : Dict (arr items)
  | obj {fields} (hkeys : (fields.map (·.1)).Nodup) (h : ∀ k j, (k, j) ∈ fields → Dict j) :
    Dict (obj fields)

/-- Equal JSON values: numbers are compared by value, objects field by field. -/
inductive Same : Json → Json → Prop
  | null : Same null null
  | bool (b) : Same (bool b) (bool b)
  | num {m e m' e'} (h : value m e = value m' e') : Same (num m e) (num m' e')
  | str (s) : Same (str s) (str s)
  | arr {items items'} (hlength : items.length = items'.length)
    (h : ∀ (i : ℕ) (j j' : Json), items[i]? = some j → items'[i]? = some j' → Same j j') :
    Same (arr items) (arr items')
  | obj {fields fields'} (hkeys : ∀ k, (fields.lookup k).isSome = (fields'.lookup k).isSome)
    (h : ∀ k j j', fields.lookup k = some j → fields'.lookup k = some j' → Same j j') :
    Same (obj fields) (obj fields')

end Json

/-! ### The carrier -/

/-- `google.protobuf.Value`; a number is the double it is stored as, and a text one that could be
encoded. -/
inductive Value
  | null
  | bool (b : Bool)
  | number (x : ℚ)
  | string (s : CodePoints)
  | list (values : List Value)
  | struct (fields : List (CodePoints × Value))

mutual

/-- What `Struct.update` stores of a value, when it can store it. -/
def Json.toValue : Json → Value
  | .null => .null
  | .bool b => .bool b
  | .num mantissa exponent => .number (toDouble (Json.value mantissa exponent))
  | .str s => .string s
  | .arr items => .list (Json.toValues items)
  | .obj fields => .struct (Json.toFields fields)

def Json.toValues : List Json → List Value
  | [] => []
  | item :: rest => item.toValue :: Json.toValues rest

def Json.toFields : List (CodePoints × Json) → List (CodePoints × Value)
  | [] => []
  | (key, field) :: rest => (key, field.toValue) :: Json.toFields rest

end

/-- A double as the decimal it is. -/
def Json.ofDouble (x : ℚ) : Json := .num (x.num * 5 ^ x.den.log2) x.den.log2

/-- The order a map's fields are read in. -/
abbrev FieldOrder := List (CodePoints × Json) → List (CodePoints × Json)

mutual

/-- `MessageToDict`: the value a carrier holds. -/
def Value.toJson (order : FieldOrder) : Value → Json
  | .null => .null
  | .bool b => .bool b
  | .number x => Json.ofDouble x
  | .string s => .str s
  | .list values => .arr (Value.toItems order values)
  | .struct fields => .obj (order (Value.toFields order fields))

def Value.toItems (order : FieldOrder) : List Value → List Json
  | [] => []
  | v :: rest => v.toJson order :: Value.toItems order rest

def Value.toFields (order : FieldOrder) : List (CodePoints × Value) → List (CodePoints × Json)
  | [] => []
  | (key, v) :: rest => (key, v.toJson order) :: Value.toFields order rest

end

/-- What is read of a value that was stored. -/
def Json.carried (order : FieldOrder) (j : Json) : Json := j.toValue.toJson order

section

variable {order : FieldOrder} {j : Json}

lemma toJson_toValues {items : List Json} :
    Value.toItems order (Json.toValues items) = items.map (·.carried order) := by
  induction items with
  | nil => rfl
  | cons item rest ih => rw [Json.toValues, Value.toItems, ih]; rfl

lemma toJson_toFields {fields : List (CodePoints × Json)} :
    Value.toFields order (Json.toFields fields) =
      fields.map fun field => (field.1, field.2.carried order) := by
  induction fields with
  | nil => rfl
  | cons field rest ih => rw [Json.toFields, Value.toFields, ih]; rfl

@[simp] lemma carried_str {s : CodePoints} : (Json.str s).carried order = .str s := rfl

@[simp] lemma carried_arr {items : List Json} :
    (Json.arr items).carried order = .arr (items.map (·.carried order)) :=
  congrArg Json.arr toJson_toValues

@[simp] lemma carried_obj {fields : List (CodePoints × Json)} :
    (Json.obj fields).carried order =
      .obj (order (fields.map fun field => (field.1, field.2.carried order))) :=
  congrArg (Json.obj ∘ order) toJson_toFields

/-- In a map, a name is looked up alike in every order. -/
lemma lookup_iff_mem {fields : List (CodePoints × Json)} (h : (fields.map (·.1)).Nodup)
    {k : CodePoints} :
    fields.lookup k = some j ↔ (k, j) ∈ fields := by
  induction fields with
  | nil => simp
  | cons field rest ih =>
    obtain ⟨k', j'⟩ := field
    simp only [List.map_cons, List.nodup_cons] at h
    rw [List.lookup_cons]
    by_cases hk : k = k'
    · subst hk
      simp only [BEq.rfl, List.mem_cons, Prod.mk.injEq, true_and]
      constructor
      · intro heq
        exact .inl (Option.some.inj heq).symm
      · rintro (rfl | hmem)
        · rfl
        · exact absurd (List.mem_map.2 ⟨_, hmem, rfl⟩) h.1
    · simp only [beq_eq_false_iff_ne.2 hk, ih h.2, List.mem_cons, Prod.mk.injEq, hk, false_and,
        false_or]

lemma lookup_perm {fields fields' : List (CodePoints × Json)} (hperm : fields'.Perm fields)
    (h : (fields.map (·.1)).Nodup) (k : CodePoints) : fields'.lookup k = fields.lookup k := by
  have h' : (fields'.map (·.1)).Nodup := (hperm.map _).nodup_iff.2 h
  refine Option.ext fun j => ?_
  rw [lookup_iff_mem h', lookup_iff_mem h, hperm.mem_iff]

lemma lookup_map {fields : List (CodePoints × Json)} {f : Json → Json} {k : CodePoints} :
    (fields.map fun field => (field.1, f field.2)).lookup k = (fields.lookup k).map f := by
  induction fields with
  | nil => rfl
  | cons field rest ih =>
    obtain ⟨k', j'⟩ := field
    rw [List.map_cons, List.lookup_cons, List.lookup_cons, ih]
    dsimp only
    cases k == k' <;> rfl

/-- The carried object, looked up. -/
lemma lookup_carried (hperm : ∀ fields, (order fields).Perm fields)
    {fields : List (CodePoints × Json)} (h : (fields.map (·.1)).Nodup) (k : CodePoints) :
    (order (fields.map fun field => (field.1, field.2.carried order))).lookup k =
      (fields.lookup k).map (·.carried order) := by
  rw [lookup_perm (hperm _) (by simpa [Function.comp_def] using h), lookup_map]

lemma value_ofDouble {x : ℚ} (h : IsDouble x) :
    Json.value (x.num * 5 ^ x.den.log2) x.den.log2 = x := by
  obtain ⟨n, hn⟩ := h.den
  have hten : (10 : ℚ) ^ n = 5 ^ n * 2 ^ n := by rw [← mul_pow]; norm_num
  rw [Json.value, hn, Nat.log2_two_pow, hten]
  conv_rhs => rw [← Rat.num_div_den x, hn]
  push_cast
  rw [mul_comm (5 ^ n : ℚ), mul_div_mul_right _ _ (by positivity)]

/-- **Only the doubles are carried.** What is read of a value is equal to it exactly when all its
numbers are doubles. -/
theorem same_carried (hperm : ∀ fields, (order fields).Perm fields) (hdict : j.Dict)
    (hfits : j.fits = true) : j.Same (j.carried order) ↔ j.Exact := by
  induction j with
  | null => exact ⟨fun _ => by simp [Json.Exact, Json.numbers], fun _ => .null⟩
  | bool b => exact ⟨fun _ => by simp [Json.Exact, Json.numbers], fun _ => .bool b⟩
  | str s => exact ⟨fun _ => by simp [Json.Exact, Json.numbers], fun _ => .str s⟩
  | num m e =>
    have hlimit : |Json.value m e| < doubleLimit :=
      Json.fits_iff.1 hfits _ (by simp [Json.numbers])
    have hstored := value_ofDouble (isDouble_toDouble hlimit)
    have hexact : (Json.num m e).Exact ↔ IsDouble (Json.value m e) := by
      simp [Json.Exact, Json.numbers]
    rw [hexact, ← toDouble_eq_self hlimit]
    constructor
    · rintro (_ | _ | h)
      exact (h.trans hstored).symm
    · exact fun h => .num (h.symm.trans hstored.symm)
  | arr items ih =>
    obtain - | - | - | - | hitems := hdict
    rw [Json.exact_arr, carried_arr]
    have heach := fun j hj => ih j hj (hitems j hj) (Json.fits_arr.1 hfits j hj)
    constructor
    · rintro (_ | _ | _ | _ | ⟨-, h⟩) j hj
      obtain ⟨i, hi⟩ := List.mem_iff_getElem?.1 hj
      exact (heach j hj).1 (h i j _ hi (by simp [hi]))
    · intro h
      refine .arr (by simp) fun i j j' hi hi' => ?_
      rw [List.getElem?_map, hi] at hi'
      cases hi'
      exact (heach j (List.mem_of_getElem? hi)).2 (h j (List.mem_of_getElem? hi))
  | obj fields ih =>
    obtain - | - | - | - | - | ⟨hkeys, hfields⟩ := hdict
    rw [Json.exact_obj, carried_obj]
    have heach := fun k j hj => ih k j hj (hfields k j hj) (Json.fits_obj.1 hfits k j hj)
    constructor
    · rintro (_ | _ | _ | _ | _ | ⟨-, h⟩) k j hj
      have hlookup := (lookup_iff_mem hkeys).2 hj
      exact (heach k j hj).1 (h k j _ hlookup (by rw [lookup_carried hperm hkeys, hlookup]; rfl))
    · intro h
      refine .obj (fun k => ?_) fun k j j' hlookup hlookup' => ?_
      · rw [lookup_carried hperm hkeys, Option.isSome_map]
      · rw [lookup_carried hperm hkeys, hlookup] at hlookup'
        cases hlookup'
        have hmem := (lookup_iff_mem hkeys).1 hlookup
        exact (heach k j hmem).2 (h k j hmem)

end

end ManagedAgents.Controller
