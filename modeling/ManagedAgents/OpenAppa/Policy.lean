import Mathlib.Data.Int.Notation
import Mathlib.Tactic.Lemma

/-!
Policy documents as the helper reads them, from `main.rs`.

The helper looks for features that need a history before it hands a policy to the native runtime. A
document is an arbitrary TOML tree; what has another shape than expected is left to the runtime.
-/

namespace ManagedAgents.OpenAppa

inductive Toml
  | string (s : String)
  | integer (i : ℤ)
  | float (bits : UInt64)
  | boolean (b : Bool)
  | datetime (s : String)
  | array (items : List Toml)
  | table (fields : List (String × Toml))

namespace Toml

/-- `value.get(key)`: only tables have fields. -/
def get (value : Toml) (key : String) : Option Toml :=
  match value with
  | table fields => fields.lookup key
  | _ => none

def asBool : Toml → Option Bool
  | boolean b => some b
  | _ => none

def asStr : Toml → Option String
  | string s => some s
  | _ => none

def asArray : Toml → Option (List Toml)
  | array items => some items
  | _ => none

def asTable : Toml → Option (List (String × Toml))
  | table fields => some fields
  | _ => none

/-- The value at the end of a path of keys. -/
def path (value : Toml) (keys : List String) : Option Toml := keys.foldlM get value

/-- The value is there, and is an array with an item. -/
def nonemptyArray (value : Option Toml) : Bool := (value.bind asArray).any (!·.isEmpty)

/-- The value is there, and is a table with a field. -/
def nonemptyTable (value : Option Toml) : Bool := (value.bind asTable).any (!·.isEmpty)

/-- The value is there, and is an array without items. -/
def emptyArray (value : Option Toml) : Bool := (value.bind asArray).any (·.isEmpty)

/-- The items of the array under a key, where there is one. -/
def items (value : Toml) (key : String) : List Toml := ((value.get key).bind asArray).getD []

end Toml

open Toml

/-! ### The features that are refused -/

def unsupportedDeployment (deployment : Toml) : Bool :=
  ((deployment.get "context_control").bind asBool).getD false
    || nonemptyArray (deployment.get "confined_results")
    || nonemptyArray (deployment.get "provider_run_tools")

def unsupportedTool (tool : Toml) : Bool :=
  nonemptyTable (tool.get "delta")
    || nonemptyArray (tool.get "effects")
    || (((tool.get "requires").bind (·.get "effects")).bind asTable).any fun fields =>
      fields.any fun field => nonemptyArray (some field.2)

/-- Omission grants an annotator the whole vocabulary, so its mandates have to be empty. -/
def unsupportedAnnotator (annotator : Toml) : Bool :=
  ["ranks", "audiences", "effects"].any fun field => !emptyArray (annotator.get field)

def unsupportedAuthority (authority : Toml) : Bool :=
  nonemptyArray ((authority.get "permits").bind (·.get "effects_containing"))

/-- A policy that needs controls the helper does not have. -/
def unsupportedPolicy (policy : Toml) : Bool :=
  (policy.get "deployment").any unsupportedDeployment
    || (policy.items "tool").any unsupportedTool
    || (policy.items "annotator").any unsupportedAnnotator
    || nonemptyArray (policy.get "sanitizer")
    || (policy.items "authority").any unsupportedAuthority

/-- A policy that declares a stateful feature, in one of the places a policy has for it. -/
inductive Stateful (policy : Toml) : Prop
  | contextControl (h : policy.path ["deployment", "context_control"] = some (boolean true))
  | confinedResults {item rest}
    (h : policy.path ["deployment", "confined_results"] = some (array (item :: rest)))
  | providerRunTools {item rest}
    (h : policy.path ["deployment", "provider_run_tools"] = some (array (item :: rest)))
  | delta {tools tool field rest} (h : policy.get "tool" = some (array tools)) (hmem : tool ∈ tools)
    (hdelta : tool.get "delta" = some (table (field :: rest)))
  | effects {tools tool item rest} (h : policy.get "tool" = some (array tools))
      (hmem : tool ∈ tools)
    (heffects : tool.get "effects" = some (array (item :: rest)))
  | requiredEffects {tools tool fields name item rest} (h : policy.get "tool" = some (array tools))
    (hmem : tool ∈ tools) (hrequires : tool.path ["requires", "effects"] = some (table fields))
    (hfield : (name, array (item :: rest)) ∈ fields)
  | mandate {annotators annotator field} (h : policy.get "annotator" = some (array annotators))
    (hmem : annotator ∈ annotators) (hfield : field ∈ ["ranks", "audiences", "effects"])
    (hmandate : annotator.get field ≠ some (array []))
  | sanitizer {item rest} (h : policy.get "sanitizer" = some (array (item :: rest)))
  | effectsContaining {authorities authority item rest}
    (h : policy.get "authority" = some (array authorities)) (hmem : authority ∈ authorities)
    (hpermits : authority.path ["permits", "effects_containing"] = some (array (item :: rest)))

/-! ### The authority -/

/-- The name of the one declared authority, when it is the host's human reviewer. -/
def soleAuthority (document policy : Toml) : Option String :=
  ((((policy.get "authority").bind asArray).filter (·.length == 1)).bind
      fun items => (items.head?.bind (·.get "name")).bind asStr).filter fun name =>
    ((((document.get "externals").bind (·.get "authorities")).bind (·.get name)).bind
      (·.get "builtin")).bind asStr == some "hitl"

/-- The policy declares this authority and no other, and the host's human reviewer stands for it. -/
def DeclaresSole (document policy : Toml) (name : String) : Prop :=
  ∃ authority, policy.get "authority" = some (array [authority]) ∧
    authority.get "name" = some (string name) ∧
    document.path ["externals", "authorities", name, "builtin"] = some (string "hitl")

/-! ### What the readings mean -/

section

variable {value : Option Toml} {v : Toml} {key : String} {keys : List String}
  {document policy deployment tool annotator authority item : Toml} {name : String}

@[simp] lemma path_nil : v.path [] = some v := rfl

@[simp] lemma path_cons : v.path (key :: keys) = (v.get key).bind (·.path keys) := by
  simp [path, List.foldlM_cons]

lemma path_pair {key' : String} {w : Toml} :
    v.path [key, key'] = some w ↔ ∃ u, v.get key = some u ∧ u.get key' = some w := by
  simp [Option.bind_eq_some_iff]

lemma asStr_eq_some : v.asStr = some name ↔ v = string name := by
  cases v <;> simp [asStr]

lemma asArray_eq_some {items : List Toml} : v.asArray = some items ↔ v = array items := by
  cases v <;> simp [asArray]

lemma asTable_eq_some {fields : List (String × Toml)} :
    v.asTable = some fields ↔ v = table fields := by
  cases v <;> simp [asTable]

lemma nonemptyArray_iff : nonemptyArray value = true ↔
    ∃ item rest, value = some (array (item :: rest)) := by
  rcases value with _ | v
  · simp [nonemptyArray]
  · rcases v with _ | _ | _ | _ | _ | (_ | ⟨item, rest⟩) | _ <;> simp [nonemptyArray, asArray]

lemma nonemptyTable_iff : nonemptyTable value = true ↔
    ∃ field rest, value = some (table (field :: rest)) := by
  rcases value with _ | v
  · simp [nonemptyTable]
  · rcases v with _ | _ | _ | _ | _ | _ | (_ | ⟨field, rest⟩) <;> simp [nonemptyTable, asTable]

lemma emptyArray_iff : emptyArray value = true ↔ value = some (array []) := by
  rcases value with _ | v
  · simp [emptyArray]
  · rcases v with _ | _ | _ | _ | _ | (_ | ⟨item, rest⟩) | _ <;> simp [emptyArray, asArray]

lemma mem_items : item ∈ v.items key ↔ ∃ items, v.get key = some (array items) ∧ item ∈ items := by
  rcases h : v.get key with _ | w
  · simp [items, h]
  · cases w <;> simp [items, h, asArray]

/-! ### The refusal -/

lemma deployment_stateful (h : policy.get "deployment" = some deployment)
    (hd : unsupportedDeployment deployment = true) : Stateful policy := by
  simp only [unsupportedDeployment, Bool.or_eq_true, nonemptyArray_iff] at hd
  rcases hd with (hcontrol | ⟨item, rest, hresults⟩) | ⟨item, rest, htools⟩
  · rcases hc : deployment.get "context_control" with _ | control
    · simp [hc] at hcontrol
    · cases control <;> simp [hc, asBool] at hcontrol
      exact .contextControl (path_pair.2 ⟨deployment, h, by rw [hc, hcontrol]⟩)
  · exact .confinedResults (path_pair.2 ⟨deployment, h, hresults⟩)
  · exact .providerRunTools (path_pair.2 ⟨deployment, h, htools⟩)

lemma tool_stateful {tools : List Toml} (h : policy.get "tool" = some (array tools))
    (hmem : tool ∈ tools) (ht : unsupportedTool tool = true) : Stateful policy := by
  simp only [unsupportedTool, Bool.or_eq_true, nonemptyArray_iff, nonemptyTable_iff,
    Option.any_eq_true, Option.bind_eq_some_iff, asTable_eq_some, List.any_eq_true] at ht
  rcases ht with (⟨field, rest, hdelta⟩ | ⟨item, rest, heffects⟩) |
    ⟨fields, ⟨_, ⟨requires, hrequires, heffects⟩, rfl⟩, ⟨name, _⟩, hfield, item, rest, hsome⟩
  · exact .delta h hmem hdelta
  · exact .effects h hmem heffects
  · obtain rfl := Option.some.inj hsome
    exact .requiredEffects h hmem (path_pair.2 ⟨requires, hrequires, heffects⟩) hfield

lemma annotator_stateful {annotators : List Toml}
    (h : policy.get "annotator" = some (array annotators)) (hmem : annotator ∈ annotators)
    (ha : unsupportedAnnotator annotator = true) : Stateful policy := by
  simp only [unsupportedAnnotator, List.any_eq_true, Bool.not_eq_true', ← Bool.not_eq_true,
    emptyArray_iff] at ha
  obtain ⟨field, hfield, hmandate⟩ := ha
  exact .mandate h hmem hfield hmandate

lemma authority_stateful {authorities : List Toml}
    (h : policy.get "authority" = some (array authorities)) (hmem : authority ∈ authorities)
    (ha : unsupportedAuthority authority = true) : Stateful policy := by
  simp only [unsupportedAuthority, nonemptyArray_iff, Option.bind_eq_some_iff] at ha
  obtain ⟨item, rest, permits, hpermits, heffects⟩ := ha
  exact .effectsContaining h hmem (path_pair.2 ⟨permits, hpermits, heffects⟩)

/-- The helper refuses exactly the policies that declare a stateful feature. -/
lemma unsupportedPolicy_iff : unsupportedPolicy policy = true ↔ Stateful policy := by
  simp only [unsupportedPolicy, Bool.or_eq_true, Option.any_eq_true, List.any_eq_true, mem_items,
    nonemptyArray_iff]
  constructor
  · rintro ((((⟨deployment, h, hd⟩ | ⟨tool, ⟨tools, h, hmem⟩, ht⟩) |
      ⟨annotator, ⟨annotators, h, hmem⟩, ha⟩) | ⟨item, rest, h⟩) |
      ⟨authority, ⟨authorities, h, hmem⟩, ha⟩)
    · exact deployment_stateful h hd
    · exact tool_stateful h hmem ht
    · exact annotator_stateful h hmem ha
    · exact .sanitizer h
    · exact authority_stateful h hmem ha
  · rintro h
    cases h with
    | contextControl h =>
      obtain ⟨deployment, hd, hc⟩ := path_pair.1 h
      refine .inl (.inl (.inl (.inl ⟨deployment, hd, ?_⟩)))
      simp [unsupportedDeployment, hc, asBool]
    | confinedResults h =>
      obtain ⟨deployment, hd, hc⟩ := path_pair.1 h
      refine .inl (.inl (.inl (.inl ⟨deployment, hd, ?_⟩)))
      simp [unsupportedDeployment, hc, nonemptyArray, asArray]
    | providerRunTools h =>
      obtain ⟨deployment, hd, hc⟩ := path_pair.1 h
      refine .inl (.inl (.inl (.inl ⟨deployment, hd, ?_⟩)))
      simp [unsupportedDeployment, hc, nonemptyArray, asArray]
    | delta h hmem hdelta =>
      refine .inl (.inl (.inl (.inr ⟨_, ⟨_, h, hmem⟩, ?_⟩)))
      simp [unsupportedTool, hdelta, nonemptyTable, asTable]
    | effects h hmem heffects =>
      refine .inl (.inl (.inl (.inr ⟨_, ⟨_, h, hmem⟩, ?_⟩)))
      simp [unsupportedTool, heffects, nonemptyArray, asArray]
    | requiredEffects h hmem hrequires hfield =>
      obtain ⟨requires, hr, he⟩ := path_pair.1 hrequires
      refine .inl (.inl (.inl (.inr ⟨_, ⟨_, h, hmem⟩, ?_⟩)))
      simp only [unsupportedTool, Bool.or_eq_true, List.any_eq_true, Option.any_eq_true]
      refine .inr ⟨_, ?_, _, hfield, by simp [nonemptyArray, asArray]⟩
      simp [hr, he, asTable]
    | mandate h hmem hfield hmandate =>
      refine .inl (.inl (.inr ⟨_, ⟨_, h, hmem⟩, ?_⟩))
      simp only [unsupportedAnnotator, List.any_eq_true, Bool.not_eq_true', ← Bool.not_eq_true,
        emptyArray_iff]
      exact ⟨_, hfield, hmandate⟩
    | sanitizer h => exact .inl (.inr ⟨_, _, h⟩)
    | effectsContaining h hmem hpermits =>
      obtain ⟨permits, hp, he⟩ := path_pair.1 hpermits
      refine .inr ⟨_, ⟨_, h, hmem⟩, ?_⟩
      simp [unsupportedAuthority, hp, he, nonemptyArray, asArray]

lemma soleAuthority_eq_some :
    soleAuthority document policy = some name ↔ DeclaresSole document policy name := by
  simp only [soleAuthority, Option.filter_eq_some_iff, Option.bind_eq_some_iff, asArray_eq_some,
    asStr_eq_some, beq_iff_eq, DeclaresSole, path_cons, path_nil]
  constructor
  · rintro ⟨⟨items, ⟨⟨_, hauthorities, rfl⟩, hone⟩, _, ⟨authority, hhead, hname⟩, rfl⟩, hhitl⟩
    obtain ⟨first, rfl⟩ := List.length_eq_one_iff.1 hone
    obtain rfl : first = authority := by simpa using hhead
    obtain ⟨_, ⟨entry, ⟨authorities, ⟨externals, he, ha⟩, hn⟩, hb⟩, rfl⟩ := hhitl
    exact ⟨first, hauthorities, hname, externals, he, authorities, ha, entry, hn, _, hb, rfl⟩
  · rintro ⟨authority, hauthorities, hname, externals, he, entries, ha, entry, hn, hitl, hb, heq⟩
    refine ⟨⟨[authority], ⟨⟨_, hauthorities, rfl⟩, rfl⟩, _, ⟨authority, rfl, hname⟩, rfl⟩, ?_⟩
    exact ⟨hitl, ⟨entry, ⟨entries, ⟨externals, he, ha⟩, hn⟩, hb⟩, Option.some.inj heq⟩

end

end ManagedAgents.OpenAppa
