import ManagedAgents.Lib.Json
import ManagedAgents.OpenAppa.Consent

/-!
The helper and its client speak one protocol: what `main` of `main.rs` prints, and what `_exchange`
of `policy/openappa.py` makes of the output and the exit code.
-/

namespace ManagedAgents.OpenAppa

open ManagedAgents.Lib ManagedAgents.Lib.Prog ManagedAgents.Lib.Json

/-! ### The helper's output -/

/-- The variants in snake case. -/
def RuntimeError.name : RuntimeError → String
  | invalidRequest => "invalid_request"
  | invalidPolicy => "invalid_policy"
  | unsupportedPolicy => "unsupported_policy"
  | runtimeUnavailable => "runtime_unavailable"
  | unsupportedRemedy => "unsupported_remedy"
  | staleReview => "stale_review"

def quoted (s : String) : CodePoints := quote (codes s)

/-- A map's keys are written in their order. -/
def object (fields : List (String × CodePoints)) : CodePoints :=
  writeObject (fields.map fun (key, text) => (codes key, text))

def Decision.text : Decision → CodePoints
  | allow => object [("decision", quoted "allow"), ("reason", codes "null")]
  | deny reason => object [("decision", quoted "deny"), ("reason", quoted reason)]
  | humanReview authority fingerprint description =>
    object [("decision", quoted "human_review"), ("reason", codes "null"),
      ("review", object [("authority", quoted authority), ("description", quoted description),
        ("fingerprint", quoted fingerprint)])]

def response : Except RuntimeError Decision → CodePoints
  | .ok decision => object [("result", decision.text), ("version", codes "3")]
  | .error e => object [("error", quoted e.name), ("version", codes "3")]

/-- What `main` prints. -/
def printed (outcome : Except RuntimeError Decision) : List UInt8 :=
  encode (response outcome ++ [10])

/-! ### The client -/

structure HumanReview where
  authority : CodePoints
  fingerprint : CodePoints
  description : CodePoints
  deriving DecidableEq

structure ToolPolicyDecision where
  decision : CodePoints
  reason : Option String := none
  review : Option HumanReview := none
  deriving DecidableEq

/-- Operational failure, never an authorization decision. -/
structure PolicyError where
  code : String := "policy-unavailable"
  deriving DecidableEq

/-- How the exchange with the process went, when nobody cancelled it. -/
inductive Exchanged
  | notStarted
  | timedOut
  | exited (stdout : List UInt8) (returncode : ℤ)

def invalidResponse : PolicyError := ⟨"policy-invalid-response"⟩
def runtimeFailure : PolicyError := ⟨"policy-runtime-failure"⟩

/-- The value is a number, and this one. -/
def isNumber (n : ℤ) : Value → Bool
  | .int z => z == n
  | .float x => x == some (n : ℚ)
  | .bool b => (if b then 1 else 0) == n
  | _ => false

def field (fields : List (CodePoints × Value)) (key : String) : Option Value :=
  fields.lookup (codes key)

/-- `set(fields) == {…}`. -/
def hasKeys (fields : List (CodePoints × Value)) (names : List String) : Bool :=
  (fields.map Prod.fst).all (· ∈ names.map codes) && (names.map codes).all (· ∈ fields.map Prod.fst)

/-- The codes of the errors, by their names; there is none for a name that cannot be looked up. -/
def errorCode : Value → Option String
  | .str s =>
    some <|
      if s = codes "invalid_policy" then "policy-invalid-policy"
      else if s = codes "unsupported_policy" then "policy-unsupported-policy"
      else if s = codes "invalid_request" then "policy-invalid-request"
      else if s = codes "unsupported_remedy" then "policy-remedy-unsupported"
      else if s = codes "stale_review" then "policy-stale-review"
      else "policy-runtime-failure"
  | .arr _ | .obj _ => none
  | _ => some "policy-runtime-failure"

def isHexDigit (c : ℕ) : Bool := (97 ≤ c && c ≤ 102) || (48 ≤ c && c ≤ 57)

/-- `[a-f0-9]{64}`, the whole string. -/
def isDigest (s : CodePoints) : Bool := s.length == 64 && s.all isHexDigit

/-- A string that is not empty. -/
def someText : Value → Option CodePoints
  | .str s => if s = [] then none else some s
  | _ => none

def readReview : Value → Option HumanReview
  | .obj review =>
    if !hasKeys review ["authority", "fingerprint", "description"] then none
    else
      match (field review "authority").bind someText, (field review "fingerprint").bind someText,
        (field review "description").bind someText with
      | some authority, some fingerprint, some description =>
        if isDigest fingerprint then some { authority, fingerprint, description } else none
      | _, _, _ => none
  | _ => none

/-- The decision, unless the result is invalid. -/
def readResult : Value → Option ToolPolicyDecision
  | .obj result =>
    match field result "decision" with
    | some (.str decision) =>
      if decision = codes "human_review" then
        if !hasKeys result ["decision", "reason", "review"] then none
        else
          ((field result "review").bind readReview).map fun review =>
            { decision := codes "human_review"
              review := some review }
      else if !hasKeys result ["decision", "reason"] then none
      else if decision = codes "allow" then some { decision }
      else if decision = codes "deny" then
        some
          { decision
            reason := some "Denied by OpenAPPA policy." }
      else none
    | _ => none
  | _ => none

/-- What is made of the output of a process that exited. -/
def readResponse (stdout : List UInt8) (returncode : ℤ) : Except PolicyError ToolPolicyDecision :=
  match loads stdout with
  | none => .error invalidResponse
  | some response =>
    if returncode ≠ 0 then .error runtimeFailure
    else
      match response with
      | .obj fields =>
        if !(field fields "version").any (isNumber 3) then .error runtimeFailure
        else
          match field fields "error" with
          | some error =>
            if !hasKeys fields ["version", "error"] then .error invalidResponse
            else
              match errorCode error with
              | some code => .error ⟨code⟩
              | none => .error invalidResponse
          | none =>
            if !hasKeys fields ["version", "result"] then .error invalidResponse
            else
              match (field fields "result").bind readResult with
              | some decision => .ok decision
              | none => .error invalidResponse
      | _ => .error invalidResponse

/-- `_exchange`. -/
def exchange : Exchanged → Except PolicyError ToolPolicyDecision
  | .notStarted => .error {}
  | .timedOut => .error ⟨"policy-runtime-timeout"⟩
  | .exited stdout returncode =>
    if 65536 < stdout.length then .error invalidResponse else readResponse stdout returncode

/-! ### What the helper prints is read -/

/-- What a printed decision is read as. -/
def Decision.value : Decision → Value
  | allow => .obj [(codes "decision", .str (codes "allow")), (codes "reason", .null)]
  | deny reason =>
    .obj [(codes "decision", .str (codes "deny")), (codes "reason", .str (codes reason))]
  | humanReview authority fingerprint description =>
    .obj [(codes "decision", .str (codes "human_review")), (codes "reason", .null),
      (codes "review", .obj [(codes "authority", .str (codes authority)),
        (codes "description", .str (codes description)),
        (codes "fingerprint", .str (codes fingerprint))])]

def responseValue : Except RuntimeError Decision → Value
  | .ok decision => .obj [(codes "result", decision.value), (codes "version", .int 3)]
  | .error e => .obj [(codes "error", .str (codes e.name)), (codes "version", .int 3)]

lemma reads_quoted (s : String) : Reads (quoted s) (.str (codes s)) := reads_quote (codes s)

lemma reads_three : Reads (codes "3") (.int 3) := reads_digit (d := 51) (by decide)

lemma codes_injective : Function.Injective codes := by
  intro s t h
  refine String.toList_injective (List.map_injective_iff.mpr ?_ h)
  exact fun c d hcd => Char.toNat_inj.mp hcd

/-- An object of written values. -/
lemma reads_fields (fields : List (String × CodePoints × Value)) (hne : fields ≠ [])
    (hkeys : (fields.map Prod.fst).Nodup) (hreads : ∀ f ∈ fields, Reads f.2.1 f.2.2) :
    Reads (object (fields.map fun f => (f.1, f.2.1)))
      (.obj (fields.map fun f => (codes f.1, f.2.2))) := by
  have hnodup : ((fields.map fun f => (codes f.1, f.2)).map Prod.fst).Nodup := by
    have := hkeys.map codes_injective
    simpa [Function.comp_def] using this
  have h := reads_object (fields.map fun f => (codes f.1, f.2)) (by simpa using hne) hnodup (by
    intro f hf
    obtain ⟨g, hg, rfl⟩ := List.mem_map.mp hf
    exact hreads g hg)
  simpa [object, Function.comp_def] using h

lemma reads_decision (decision : Decision) : Reads decision.text decision.value := by
  cases decision with
  | allow =>
    exact reads_fields [("decision", quoted "allow", .str (codes "allow")),
      ("reason", codes "null", .null)] (by simp) (by simp) (by simp [reads_quoted, reads_null])
  | deny reason =>
    exact reads_fields [("decision", quoted "deny", .str (codes "deny")),
      ("reason", quoted reason, .str (codes reason))] (by simp) (by simp) (by simp [reads_quoted])
  | humanReview authority fingerprint description =>
    have hreview := reads_fields [("authority", quoted authority, .str (codes authority)),
      ("description", quoted description, .str (codes description)),
      ("fingerprint", quoted fingerprint, .str (codes fingerprint))]
      (by simp) (by simp) (by simp [reads_quoted])
    exact reads_fields [("decision", quoted "human_review", .str (codes "human_review")),
      ("reason", codes "null", .null), ("review", _, _)] (by simp) (by simp) (by
        simp only [List.forall_mem_cons, List.not_mem_nil, false_imp_iff, implies_true, and_true]
        exact ⟨reads_quoted _, reads_null, hreview⟩)

lemma reads_response (outcome : Except RuntimeError Decision) :
    Reads (response outcome) (responseValue outcome) := by
  cases outcome with
  | ok decision =>
    exact reads_fields [("result", decision.text, decision.value), ("version", codes "3", .int 3)]
      (by simp) (by simp) (by simp [reads_decision, reads_three])
  | error e =>
    exact reads_fields [("error", quoted e.name, .str (codes e.name)),
      ("version", codes "3", .int 3)] (by simp) (by simp) (by simp [reads_quoted, reads_three])

lemma plain_fields {fields : List (String × CodePoints)} (h : ∀ f ∈ fields, Plain f.2) :
    Plain (object fields) := by
  refine plain_object fun f hf => ?_
  obtain ⟨g, hg, rfl⟩ := List.mem_map.mp hf
  exact ⟨plain_codes g.1, h g hg⟩

lemma plain_quoted (s : String) : Plain (quoted s) := plain_quote (plain_codes s)

lemma plain_decision (decision : Decision) : Plain decision.text := by
  cases decision with
  | allow => exact plain_fields (by simp [plain_quoted, plain_codes])
  | deny reason => exact plain_fields (by simp [plain_quoted])
  | humanReview authority fingerprint description =>
    have hreview : Plain (object [("authority", quoted authority),
        ("description", quoted description), ("fingerprint", quoted fingerprint)]) :=
      plain_fields (by simp [plain_quoted])
    exact plain_fields (by simp [plain_quoted, plain_codes, hreview])

lemma plain_response (outcome : Except RuntimeError Decision) : Plain (response outcome) := by
  cases outcome with
  | ok decision => exact plain_fields (by simp [plain_decision, plain_codes])
  | error e => exact plain_fields (by simp [plain_quoted, plain_codes])

/-- The client reads what the helper printed. -/
lemma loads_printed (outcome : Except RuntimeError Decision) :
    loads (printed outcome) = some (responseValue outcome) := by
  have hreads := reads_response outcome
  have hplain := plain_response outcome
  obtain ⟨text, htext⟩ : ∃ text, response outcome = 123 :: 34 :: text := by
    cases outcome <;> exact ⟨_, rfl⟩
  rw [printed]
  rw [htext] at hreads hplain ⊢
  exact loads_encode hreads (by decide) (by decide) fun c hc => hplain c (by simp [hc])

/-! ### The client's answer -/

/-- The code of an error. -/
def RuntimeError.code : RuntimeError → String
  | invalidRequest => "policy-invalid-request"
  | invalidPolicy => "policy-invalid-policy"
  | unsupportedPolicy => "policy-unsupported-policy"
  | runtimeUnavailable => "policy-runtime-failure"
  | unsupportedRemedy => "policy-remedy-unsupported"
  | staleReview => "policy-stale-review"

/-- What the client is to make of what the helper decided. -/
def corresponding : Except RuntimeError Decision → Except PolicyError ToolPolicyDecision
  | .ok .allow => .ok { decision := codes "allow" }
  | .ok (.deny _) =>
    .ok
      { decision := codes "deny"
        reason := some "Denied by OpenAPPA policy." }
  | .ok (.humanReview authority fingerprint description) =>
    .ok
      { decision := codes "human_review"
        review := some
          { authority := codes authority
            fingerprint := codes fingerprint
            description := codes description } }
  | .error e => .error ⟨e.code⟩

lemma exchange_printed {outcome : Except RuntimeError Decision}
    (hsize : (printed outcome).length ≤ 65536) :
    exchange (.exited (printed outcome) 0) = readResponse (printed outcome) 0 :=
  if_neg (Nat.not_lt.mpr hsize)

lemma exchange_error {e : RuntimeError} (hsize : (printed (.error e)).length ≤ 65536) :
    exchange (.exited (printed (.error e)) 0) = corresponding (.error e) := by
  rw [exchange_printed hsize, readResponse, loads_printed]
  cases e <;> rfl

/-- A digest as it is formatted in hexadecimal. -/
def IsDigest (s : String) : Prop := isDigest (codes s) = true

lemma codes_eq_nil {s : String} : codes s = [] ↔ s = "" := by
  simp [codes]

lemma someText_codes (s : String) :
    someText (.str (codes s)) = if s = "" then none else some (codes s) := by
  simp only [someText, codes_eq_nil]

/-- What a printed review is read as. -/
def reviewFields (authority fingerprint description : String) : List (CodePoints × Value) :=
  [(codes "authority", .str (codes authority)), (codes "description", .str (codes description)),
    (codes "fingerprint", .str (codes fingerprint))]

/-- A review is read if its three texts are there. -/
lemma readReview_value {authority fingerprint description : String} (hdigest : IsDigest fingerprint)
    (hdescription : description ≠ "") :
    readReview (.obj (reviewFields authority fingerprint description)) =
      if authority = "" then none
      else some ⟨codes authority, codes fingerprint, codes description⟩ := by
  have hprint : fingerprint ≠ "" := by
    rintro rfl
    cases hdigest
  have hread : readReview (.obj (reviewFields authority fingerprint description)) =
      match someText (.str (codes authority)), someText (.str (codes fingerprint)),
        someText (.str (codes description)) with
      | some authority, some fingerprint, some description =>
        if isDigest fingerprint then some { authority, fingerprint, description } else none
      | _, _, _ => none := rfl
  rw [hread, someText_codes, someText_codes, someText_codes, if_neg hprint, if_neg hdescription]
  by_cases hname : authority = ""
  · rw [if_pos hname, if_pos hname]
  · rw [if_neg hname, if_neg hname]
    exact if_pos hdigest

lemma exchange_review {authority fingerprint description : String} (hdigest : IsDigest fingerprint)
    (hdescription : description ≠ "")
    (hsize : (printed (.ok (.humanReview authority fingerprint description))).length ≤ 65536) :
    exchange (.exited (printed (.ok (.humanReview authority fingerprint description))) 0) =
      if authority = "" then .error invalidResponse
      else corresponding (.ok (.humanReview authority fingerprint description)) := by
  have hread : readResult (Decision.humanReview authority fingerprint description).value =
      (readReview (.obj (reviewFields authority fingerprint description))).map fun review =>
        { decision := codes "human_review"
          review := some review } := rfl
  have hresponse : readResponse (printed (.ok (.humanReview authority fingerprint description))) 0 =
      match readResult (Decision.humanReview authority fingerprint description).value with
      | some decision => .ok decision
      | none => .error invalidResponse := by
    rw [readResponse, loads_printed]
    rfl
  rw [exchange_printed hsize, hresponse, hread, readReview_value hdigest hdescription]
  by_cases hname : authority = ""
  · rw [if_pos hname, if_pos hname]
    rfl
  · rw [if_neg hname, if_neg hname]
    rfl

lemma exchange_decision {decision : Decision}
    (hreview : ∀ authority fingerprint description,
      decision ≠ .humanReview authority fingerprint description)
    (hsize : (printed (.ok decision)).length ≤ 65536) :
    exchange (.exited (printed (.ok decision)) 0) = corresponding (.ok decision) := by
  rw [exchange_printed hsize, readResponse, loads_printed]
  cases decision with
  | allow => rfl
  | deny reason => rfl
  | humanReview authority fingerprint description => exact absurd rfl (hreview _ _ _)

/-! ### What the client allows -/

/-- The object has these keys and no others. -/
def HasKeys (fields : List (CodePoints × Value)) (names : List String) : Prop :=
  ∀ key, key ∈ fields.map Prod.fst ↔ key ∈ names.map codes

lemma hasKeys_iff {fields : List (CodePoints × Value)} {names : List String} :
    hasKeys fields names = true ↔ HasKeys fields names := by
  simp only [hasKeys, Bool.and_eq_true, List.all_eq_true, decide_eq_true_eq]
  exact ⟨fun ⟨h, h'⟩ key => ⟨h key, h' key⟩,
    fun h => ⟨fun key => (h key).mp, fun key => (h key).mpr⟩⟩

/-- The bytes are an object of version 3 with a result, and the result is an allowance. -/
def Allows (stdout : List UInt8) : Prop :=
  ∃ fields result version, loads stdout = some (.obj fields) ∧
    HasKeys fields ["version", "result"] ∧
    field fields "version" = some version ∧ isNumber 3 version = true ∧
    field fields "result" = some (.obj result) ∧ HasKeys result ["decision", "reason"] ∧
    field result "decision" = some (.str (codes "allow"))

lemma readResult_allow {value : Value} {decision : ToolPolicyDecision}
    (h : readResult value = some decision) (hallow : decision.decision = codes "allow") :
    ∃ result, value = .obj result ∧ HasKeys result ["decision", "reason"] ∧
      field result "decision" = some (.str (codes "allow")) := by
  unfold readResult at h
  split at h
  · rename_i result
    split at h
    · rename_i s hdecision
      split at h
      · split at h
        · cases h
        · obtain ⟨review, -, rfl⟩ := Option.map_eq_some_iff.mp h
          have hne : codes "human_review" ≠ codes "allow" := by decide
          exact absurd hallow hne
      · split at h
        · cases h
        · rename_i hkeys
          have hkeys : HasKeys result ["decision", "reason"] :=
            hasKeys_iff.mp (by simpa using hkeys)
          split at h
          · rename_i hs
            exact ⟨result, rfl, hkeys, by rw [hdecision, hs]⟩
          · split at h
            · cases h
              exact ⟨result, rfl, hkeys, by rw [hdecision]; exact congrArg _ (congrArg _ hallow)⟩
            · cases h
    · cases h
  · cases h

lemma readResponse_allow {stdout : List UInt8} {returncode : ℤ} {decision : ToolPolicyDecision}
    (h : readResponse stdout returncode = .ok decision)
    (hallow : decision.decision = codes "allow") : returncode = 0 ∧ Allows stdout := by
  unfold readResponse at h
  split at h
  · cases h
  · rename_i response hloads
    split at h
    · cases h
    · rename_i hcode
      split at h
      · rename_i fields
        split at h
        · cases h
        · rename_i hversion
          split at h
          · split at h
            · cases h
            · split at h <;> cases h
          · split at h
            · cases h
            · rename_i hkeys
              split at h
              · rename_i found hresult
                cases h
                obtain ⟨value, hvalue, hread⟩ := Option.bind_eq_some_iff.mp hresult
                obtain ⟨result, rfl, hresultKeys, hdecision⟩ := readResult_allow hread hallow
                obtain ⟨version, hfound, hthree⟩ : ∃ version,
                    field fields "version" = some version ∧ isNumber 3 version = true := by
                  simpa [Option.any_eq_true] using hversion
                exact ⟨by simpa using hcode, fields, result, version, hloads,
                  hasKeys_iff.mp (by simpa using hkeys), hfound, hthree, hvalue, hresultKeys,
                  hdecision⟩
              · cases h
      · cases h

/-- Only a process that succeeded and printed an allowance allows. -/
lemma exchange_allow {run : Exchanged} {decision : ToolPolicyDecision}
    (h : exchange run = .ok decision) (hallow : decision.decision = codes "allow") :
    ∃ stdout, run = .exited stdout 0 ∧ Allows stdout := by
  cases run with
  | notStarted => cases h
  | timedOut => cases h
  | exited stdout returncode =>
    simp only [exchange] at h
    split at h
    · cases h
    · obtain ⟨rfl, hallows⟩ := readResponse_allow h hallow
      exact ⟨stdout, rfl, hallows⟩

/-! ### The main result -/

section

variable {Arguments : Type} {crates : Crates Arguments} {input : Request Arguments}

/-- A policy has one authority. -/
lemma PolicyAuthority.unique {name name' : String} (h : PolicyAuthority crates input name)
    (h' : PolicyAuthority crates input name') : name = name' := by
  obtain ⟨document, policy, hparsed, hpolicy, hsole⟩ := h
  obtain ⟨document', policy', hparsed', hpolicy', hsole'⟩ := h'
  obtain rfl : document = document' := Option.some.inj (hparsed.symm.trans hparsed')
  obtain rfl : policy = policy' := Option.some.inj (hpolicy.symm.trans hpolicy')
  have hname := soleAuthority_eq_some.2 hsole
  rw [soleAuthority_eq_some.2 hsole'] at hname
  exact (Option.some.inj hname).symm

variable [BEq Arguments] {said : List (Exchange HostCall.Reply RuntimeError)}
  {authority print description : String}

/-- A review that is returned is the policy's authority's; it has a text, and a digest for its
fingerprint. -/
lemma review_returned
    (h : (evaluate crates input).Ran said (.ok (.humanReview authority print description))) :
    PolicyAuthority crates input authority ∧ description ≠ "" ∧
      ∃ bytes, print = crates.sha256 bytes := by
  rcases decided h with ⟨-, ⟨-, h⟩ | ⟨_, h⟩ | ⟨name, print', _, hname, hprint, hdescribed, h⟩⟩ |
    ⟨resolve, tool, outcome, -, h⟩
  · cases h
  · cases h
  · cases h
    obtain ⟨bytes, -, rfl⟩ := Option.map_eq_some_iff.mp hprint
    exact ⟨hname, hdescribed, bytes, rfl⟩
  · unfold conclude at h
    split at h
    · split at h <;> cases h
    · split at h <;> cases h
    · cases h

end

/-- A human review, whoever gives it. -/
def Decision.IsReview (decision : Decision) : Prop :=
  ∃ authority print description, decision = .humanReview authority print description

/-- **The helper and its client speak one protocol, but for an authority without a name.** The
client makes of every error and of every decision the helper prints what corresponds to it, exactly
when it is not asked for a review by an authority whose name is empty; that is taken for an invalid
response. And it allows a call only when the process succeeded and printed an allowance. -/
theorem protocol_shared {Arguments : Type} [BEq Arguments] (crates : Crates Arguments)
    (hsha : ∀ bytes, IsDigest (crates.sha256 bytes)) (input : Request Arguments) :
    (∀ e, (printed (.error e)).length ≤ 65536 →
      exchange (.exited (printed (.error e)) 0) = corresponding (.error e)) ∧
    (∀ said decision, (evaluate crates input).Ran said (.ok decision) →
      (printed (.ok decision)).length ≤ 65536 →
      (exchange (.exited (printed (.ok decision)) 0) = corresponding (.ok decision) ↔
        ¬ (PolicyAuthority crates input "" ∧ decision.IsReview))) ∧
    (∀ run decision, exchange run = .ok decision → decision.decision = codes "allow" →
      ∃ stdout, run = .exited stdout 0 ∧ Allows stdout) := by
  refine ⟨fun e => exchange_error, fun said decision hran hsize => ?_,
    fun run decision => exchange_allow⟩
  by_cases hreview : decision.IsReview
  · obtain ⟨authority, print, description, rfl⟩ := id hreview
    obtain ⟨hauthority, hdescribed, bytes, rfl⟩ := review_returned hran
    rw [exchange_review (hsha bytes) hdescribed hsize]
    by_cases hname : authority = ""
    · subst hname
      simp [corresponding, hauthority, hreview]
    · have hnamed : ¬ PolicyAuthority crates input "" := fun h => hname (hauthority.unique h)
      simp [hname, hnamed]
  · have hnot : ∀ authority print description,
        decision ≠ .humanReview authority print description :=
      fun authority print description h => hreview ⟨authority, print, description, h⟩
    simp [exchange_decision hnot hsize, hreview]

/-! A policy with one human reviewer, under a name: as text, and as a document. -/

def reviewPolicy (name : String) : String :=
  "[[policy.authority]]\nname = \"" ++ name ++ "\"\n\n[externals.authorities.\"" ++ name ++
    "\"]\nbuiltin = \"hitl\"\n"

def reviewDocument (name : String) : Toml :=
  .table [("policy", .table [("authority", .array [.table [("name", .string name)]])]),
    ("externals", .table [("authorities", .table [(name, .table [("builtin", .string "hitl")])])])]

def reviewedText (reviewed : Reviewed Unit) : CodePoints :=
  object [("authority", reviewed.authority.elim (codes "null") quoted),
    ("call", object [("agent_id", quoted reviewed.call.agentId), ("arguments", codes "\x7b\x7d"),
      ("invocation_id", quoted reviewed.call.invocationId),
      ("root_id", quoted reviewed.call.rootId), ("runtime", quoted reviewed.call.runtime),
      ("tool_kind", quoted reviewed.call.toolKind), ("tool_name", quoted reviewed.call.toolName)]),
    ("policy", quoted reviewed.policy)]

/-- The crates on that policy. The calls here have no arguments. -/
def reviewCrates (name digest : String) : Crates Unit where
  isObject _ := true
  isCanonicalTool := (!·.isEmpty)
  parseToml text := if text = reviewPolicy name then some (reviewDocument name) else none
  printToml _ := some (reviewPolicy name)
  toRaw _ := some "\x7b\x7d"
  fromStr _ := some ()
  toControl := some
  toRemedy := some
  controlTool := "control"
  toVec reviewed := some (encode (reviewedText reviewed))
  sha256 _ := digest

def mailRequest (name : String) : Request Unit where
  version := 3
  policy := reviewPolicy name
  request :=
    { rootId := "context-1"
      invocationId := "event-1"
      agentId := "application"
      toolKind := "builtin"
      toolName := "send_mail"
      arguments := ()
      runtime := "cma" }

/-- The runtime denies the call, and offers one remedy with a review. -/
def mailDenied (name : String) : List (Exchange HostCall.Reply RuntimeError) :=
  [⟨.tempFile, .ok ()⟩, ⟨.writeConfig (reviewPolicy name), .ok ()⟩, ⟨.loadConfig, .ok ()⟩,
    ⟨.openStore, .ok ()⟩, ⟨.openRuntime, .ok ()⟩,
    ⟨.hook (.sessionStart "context-1"), .ok .ack⟩,
    ⟨.hook (.toolCall { root := "context-1" }
        { tool := "host/cma/send_mail", arguments := "\x7b\x7d" } (some "event-1") none),
      .ok (.denyCall [{ id := "offer-1" }] [{ offer := "offer-1", text := "Send the mail?" }])⟩]

def deskDigest : String := "60163375e35eff1cf1222c31b1286dc02d40ee02aafac00d397acb091f638013"

def namelessDigest : String := "619e8749fe131c8fb31f07589acb3f95f5d42752dac8372b945d5f1d36093a06"

/-- The desk's review is returned, and read. -/
theorem protocol_shared_desk :
    (evaluate (reviewCrates "desk" deskDigest) (mailRequest "desk")).Ran (mailDenied "desk")
      (.ok (.humanReview "desk" deskDigest "Send the mail?")) ∧
    exchange (.exited (printed (.ok (.humanReview "desk" deskDigest "Send the mail?"))) 0) =
      corresponding (.ok (.humanReview "desk" deskDigest "Send the mail?")) := by
  have hran : (evaluate (reviewCrates "desk" deskDigest) (mailRequest "desk")).Ran
      (mailDenied "desk") (.ok (.humanReview "desk" deskDigest "Send the mail?")) :=
    ⟨_, _, rfl, _, _, rfl, _, _, rfl, _, _, rfl, _, _, rfl, _, _, rfl, _, _, rfl, rfl, rfl⟩
  have hsize :
      (printed (.ok (.humanReview "desk" deskDigest "Send the mail?"))).length ≤ 65536 := by
    decide +kernel
  have hdigest : isDigest (codes deskDigest) = true := by decide +kernel
  refine ⟨hran, ((protocol_shared (reviewCrates "desk" deskDigest) (fun _ => hdigest)
    (mailRequest "desk")).2.1 _ _ hran hsize).mpr ?_⟩
  rintro ⟨⟨document, policy, hparsed, hpolicy, hsole⟩, -⟩
  have hdocument : (reviewCrates "desk" deskDigest).parseToml (mailRequest "desk").policy =
      some (reviewDocument "desk") := rfl
  obtain rfl : reviewDocument "desk" = document := Option.some.inj (hdocument.symm.trans hparsed)
  obtain rfl := Option.some.inj hpolicy
  have hnone := soleAuthority_eq_some.2 hsole
  revert hnone
  decide +kernel

/-- A review by an authority without a name is returned, printed, and refused. -/
theorem nameless_refused :
    ∃ said decision,
      (evaluate (reviewCrates "" namelessDigest) (mailRequest "")).Ran said (.ok decision) ∧
      (printed (.ok decision)).length ≤ 65536 ∧
      exchange (.exited (printed (.ok decision)) 0) = .error invalidResponse ∧
      exchange (.exited (printed (.ok decision)) 0) ≠ corresponding (.ok decision) := by
  have hsize :
      (printed (.ok (.humanReview "" namelessDigest "Send the mail?"))).length ≤ 65536 := by
    decide +kernel
  have hdigest : isDigest (codes namelessDigest) = true := by decide +kernel
  have hrefused : exchange
      (.exited (printed (.ok (.humanReview "" namelessDigest "Send the mail?"))) 0) =
        .error invalidResponse :=
    (exchange_review hdigest (by decide) hsize).trans (if_pos rfl)
  refine ⟨mailDenied "", .humanReview "" namelessDigest "Send the mail?",
    ⟨_, _, rfl, _, _, rfl, _, _, rfl, _, _, rfl, _, _, rfl, _, _, rfl, _, _, rfl, rfl, rfl⟩,
    hsize, hrefused, ?_⟩
  rw [hrefused]
  exact fun h => nomatch h

end ManagedAgents.OpenAppa
