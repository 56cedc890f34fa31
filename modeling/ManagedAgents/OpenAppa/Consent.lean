import ManagedAgents.OpenAppa.Evaluate

/-!
What a decision rests on.

A call is allowed only by the runtime, or by a human whose ruling names exactly this call, policy
and authority. A run is given by its transcript, in which the host and the runtime answer anything.
-/

namespace ManagedAgents.OpenAppa

open ManagedAgents.Lib ManagedAgents.Lib.Prog

section

variable {Value : Type} [BEq Value] {crates : Crates Value} {input : Request Value}
  {said : List (Exchange HostCall.Reply RuntimeError)} {outcome : Except RuntimeError Decision}
  {decision : Decision} {tool print : String} {authority : Option String} {document : Toml}
  {actor : Actor} {offers : List Offer} {review : List Review} {offer : Offer} {r : Review}

/-- The policy's authority: the one it declares, if that is the host's human reviewer. -/
def PolicyAuthority (crates : Crates Value) (input : Request Value) (name : String) : Prop :=
  ∃ document policy, crates.parseToml input.policy = some document ∧
    document.get "policy" = some policy ∧ DeclaresSole document policy name

/-- An evaluation that got as far as the runtime. -/
structure Consulted (crates : Crates Value) (input : Request Value) (tool print : String)
    (authority : Option String) (document policy : Toml) : Prop where
  valid : validRequest crates input = true
  named : toolOf input.request = some tool
  parsed : crates.parseToml input.policy = some document
  declared : document.get "policy" = some policy
  supported : unsupportedPolicy policy = false
  sole : soleAuthority document policy = authority
  hashed : fingerprint crates input.request input.policy authority = some print
  current : stale input.resolve print authority = false

lemma evaluate_ran (h : (evaluate crates input).Ran said outcome)
    (hfar : said ≠ [] ∨ ∃ decision, outcome = .ok decision) :
    ∃ tool print authority document policy,
      Consulted crates input tool print authority document policy ∧
      (consult crates input tool print authority document).Ran said outcome := by
  have hstop : ∀ e, ¬ (throw e : Program Decision).Ran said outcome := by
    rintro e ⟨rfl, rfl⟩
    simp at hfar
  unfold evaluate at h
  split at h
  · exact absurd h (hstop _)
  rename_i hvalid
  split at h
  · exact absurd h (hstop _)
  rename_i tool htool
  split at h
  · exact absurd h (hstop _)
  rename_i document hparsed
  split at h
  · exact absurd h (hstop _)
  rename_i policy hpolicy
  split at h
  · exact absurd h (hstop _)
  rename_i hsupported
  dsimp only at h
  split at h
  · exact absurd h (hstop _)
  rename_i print hprint
  split at h
  · exact absurd h (hstop _)
  rename_i hstale
  refine ⟨tool, print, _, document, policy, ⟨?_, ?_, hparsed, hpolicy, ?_, rfl, hprint, ?_⟩, h⟩
  · simpa using hvalid
  · exact (Option.filter_eq_some_iff.1 htool).1
  · simpa using hsupported
  · simpa using hstale

/-- The call as the runtime is asked about it. -/
def proposal (input : Request Value) (tool arguments : String) : HookEvent :=
  .toolCall { root := input.request.rootId } { tool, arguments } (some input.request.invocationId)
    none

lemma consult_ran
    (h : (consult crates input tool print authority document).Ran said (.ok decision)) :
    ∃ setup arguments answered later,
      said = setup ++ ⟨.hook (proposal input tool arguments), .ok answered⟩ :: later ∧
      crates.toRaw input.request.arguments = some arguments ∧
      (answer crates input { root := input.request.rootId } tool print authority answered).Ran later
        (.ok decision) := by
  simp only [consult, ran_bind_ok] at h
  obtain ⟨exe, rest, _, rfl, -, opened, rest, _, rfl, -, started, rest, start, rfl, -, h⟩ := h
  split at h
  · simp only [ran_bind_ok, ran_orThrow_ok, hook, ran_perform_ok] at h
    obtain ⟨_, rest, arguments, rfl, ⟨rfl, hraw⟩, _, later, answered, rfl, rfl, h⟩ := h
    exact ⟨exe ++ (opened ++ started), arguments, answered, later, by simp [proposal], hraw, h⟩
  · cases h.2

lemma remediable_eq_some (h : remediable offers review = some (offer, r)) :
    offers = [offer] ∧ review = [r] ∧ r.offer = offer.id ∧ r.text ≠ "" := by
  unfold remediable at h
  split at h
  · split at h
    · rename_i hc
      cases h
      simp only [Bool.and_eq_true, beq_iff_eq, Bool.not_eq_true'] at hc
      exact ⟨rfl, rfl, hc.1.1.1, by simpa using hc.1.1.2⟩
    · cases h
  · cases h

/-- A human ruling, submitted and carried out. -/
def ruled (crates : Crates Value) (actor : Actor) (ruling : Ruling) (control remedy : String)
    (outcome : RemedyOutcome) : List (Exchange HostCall.Reply RuntimeError) :=
  [⟨.hook (.toolCall actor { tool := crates.controlTool, arguments := control } none (some ruling)),
      .ok .passControl⟩,
    ⟨.executeRemedy actor remedy, .ok outcome⟩]

lemma settle_ran {resolve : Resolution}
    (h : (settle crates input actor tool offer resolve).Ran said (.ok decision)) :
    ∃ control remedy outcome, crates.toControl offer.id = some control ∧
      crates.toRemedy offer.id = some remedy ∧
      said = ruled crates actor resolve.ruling control remedy outcome ∧
      conclude crates input tool resolve.ruling outcome = .ok decision := by
  simp only [settle, ran_bind_ok, ran_orThrow_ok, hook, ran_perform_ok] at h
  obtain ⟨_, rest, control, rfl, ⟨rfl, hcontrol⟩, _, rest, gate, rfl, rfl, h⟩ := h
  split at h
  · rename_i hgate
    subst hgate
    simp only [ran_bind_ok, ran_orThrow_ok, ran_perform_ok] at h
    obtain ⟨_, rest, remedy, rfl, ⟨rfl, hremedy⟩, _, later, outcome, rfl, rfl, h⟩ := h
    refine ⟨control, remedy, outcome, hcontrol, hremedy, ?_⟩
    split at h
    · rename_i decision' hconclude
      obtain ⟨rfl, hdecision⟩ := h
      cases hdecision
      exact ⟨by simp [ruled], hconclude⟩
    · cases h.2
  · cases h.2

/-- What the runtime's answer becomes: without a ruling at once, with one after it is carried
out. -/
lemma answer_ran {answered : HookDecision}
    (h : (answer crates input actor tool print authority answered).Ran said (.ok decision)) :
    (input.resolve = none ∧ said = [] ∧
      (answered = .allowCall none ∧ decision = .allow ∨
        (∃ reason, decision = .deny reason) ∨
        ∃ name description, authority = some name ∧ description ≠ "" ∧
          decision = .humanReview name print description)) ∨
    ∃ resolve offer r control remedy outcome, input.resolve = some resolve ∧
      answered = .denyCall [offer] [r] ∧ r.offer = offer.id ∧ r.text ≠ "" ∧
      said = ruled crates actor resolve.ruling control remedy outcome ∧
      conclude crates input tool resolve.ruling outcome = .ok decision := by
  unfold answer at h
  split at h
  · split at h
    · rename_i hresolve
      obtain ⟨rfl, hdecision⟩ := h
      exact .inl ⟨by simpa using hresolve, rfl, .inl ⟨rfl, by simpa using hdecision⟩⟩
    · cases h.2
  · split at h
    · cases h.2
    · rename_i hresolve
      obtain ⟨rfl, hdecision⟩ := h
      exact .inl ⟨by simpa using hresolve, rfl, .inr (.inl ⟨_, by simpa using hdecision⟩)⟩
  · split at h
    · rename_i offer r name hremediable
      obtain ⟨rfl, rfl, hoffer, htext⟩ := remediable_eq_some hremediable
      split at h
      · rename_i resolve hresolve
        obtain ⟨control, remedy, outcome, -, -, hsaid, hconclude⟩ := settle_ran h
        exact .inr ⟨resolve, offer, r, control, remedy, outcome, hresolve, rfl, hoffer, htext,
          hsaid, hconclude⟩
      · rename_i hresolve
        obtain ⟨rfl, hdecision⟩ := h
        exact .inl ⟨hresolve, rfl, .inr (.inr ⟨name, r.text, rfl, htext, by simpa using hdecision⟩)⟩
    · cases h.2
  · cases h.2

/-- The decision was carried out by the runtime under a human ruling that names this call. -/
structure Ruled (crates : Crates Value) (input : Request Value) (resolve : Resolution)
    (tool : String) (outcome : RemedyOutcome)
    (said : List (Exchange HostCall.Reply RuntimeError)) : Prop where
  given : input.resolve = some resolve
  authority : PolicyAuthority crates input resolve.authority
  bound : fingerprint crates input.request input.policy (some resolve.authority) =
    some resolve.fingerprint
  named : toolOf input.request = some tool
  carried : ∃ setup arguments offer r control remedy,
    crates.toRaw input.request.arguments = some arguments ∧ r.offer = offer.id ∧ r.text ≠ "" ∧
    said = setup ++ ⟨.hook (proposal input tool arguments), .ok (.denyCall [offer] [r])⟩ ::
      ruled crates { root := input.request.rootId } resolve.ruling control remedy outcome

/-- The runtime allowed this call by itself. -/
def AllowedOutright (crates : Crates Value) (input : Request Value)
    (said : List (Exchange HostCall.Reply RuntimeError)) : Prop :=
  input.resolve = none ∧ ∃ setup tool arguments, toolOf input.request = some tool ∧
    crates.toRaw input.request.arguments = some arguments ∧
    said = setup ++ [⟨.hook (proposal input tool arguments), .ok (.allowCall none)⟩]

omit [BEq Value] in
lemma Consulted.ruling_bound {policy : Toml} {resolve : Resolution}
    (h : Consulted crates input tool print authority document policy)
    (hresolve : input.resolve = some resolve) :
    authority = some resolve.authority ∧ print = resolve.fingerprint := by
  have hcurrent := h.current
  simp only [stale, hresolve, Option.any_some, Bool.or_eq_false_iff, bne_eq_false_iff_eq]
    at hcurrent
  exact ⟨hcurrent.2.symm, hcurrent.1.symm⟩

/-- Every decision is the runtime's own, or carried out under a ruling. -/
lemma decided (h : (evaluate crates input).Ran said (.ok decision)) :
    (input.resolve = none ∧
      (AllowedOutright crates input said ∧ decision = .allow ∨
        (∃ reason, decision = .deny reason) ∨
        ∃ name print description, PolicyAuthority crates input name ∧
          fingerprint crates input.request input.policy (some name) = some print ∧
          description ≠ "" ∧ decision = .humanReview name print description)) ∨
    ∃ resolve tool outcome, Ruled crates input resolve tool outcome said ∧
      conclude crates input tool resolve.ruling outcome = .ok decision := by
  obtain ⟨tool, print, authority, document, policy, hc, hran⟩ := evaluate_ran h (.inr ⟨_, rfl⟩)
  obtain ⟨setup, arguments, answered, later, rfl, hraw, hanswer⟩ := consult_ran hran
  have hauthority : ∀ name, authority = some name → PolicyAuthority crates input name :=
    fun name hname => ⟨document, policy, hc.parsed, hc.declared,
      soleAuthority_eq_some.1 (hc.sole.trans hname)⟩
  rcases answer_ran hanswer with
    ⟨hresolve, rfl, ⟨rfl, rfl⟩ | ⟨reason, rfl⟩ | ⟨name, description, rfl, hdescribed, rfl⟩⟩ |
    ⟨resolve, offer, r, control, remedy, outcome, hresolve, rfl, hoffer, htext, rfl, hconclude⟩
  · exact .inl ⟨hresolve, .inl ⟨⟨hresolve, setup, tool, arguments, hc.named, hraw, rfl⟩, rfl⟩⟩
  · exact .inl ⟨hresolve, .inr (.inl ⟨reason, rfl⟩)⟩
  · exact .inl ⟨hresolve, .inr (.inr
      ⟨name, print, description, hauthority name rfl, hc.hashed, hdescribed, rfl⟩)⟩
  · obtain ⟨rfl, rfl⟩ := hc.ruling_bound hresolve
    exact .inr ⟨resolve, tool, outcome, ⟨hresolve, hauthority _ rfl, hc.hashed, hc.named, setup,
      arguments, offer, r, control, remedy, hraw, hoffer, htext, rfl⟩, hconclude⟩

lemma conclude_allow {ruling : Ruling} {outcome : RemedyOutcome}
    (h : conclude crates input tool ruling outcome = .ok .allow) :
    ruling = .approve ∧ ∃ authorized, outcome = .authorized authorized ∧ authorized.tool = tool ∧
      authorized.cwd = none ∧ ∃ v, crates.fromStr authorized.arguments = some v ∧
        (v == input.request.arguments) = true := by
  unfold conclude at h
  split at h
  · split at h
    · rename_i authorized hallowed
      obtain ⟨hruling, hauthorizes⟩ := hallowed
      simp only [authorizes, Bool.and_eq_true, beq_iff_eq, Option.isNone_iff_eq_none,
        Option.any_eq_true] at hauthorizes
      exact ⟨hruling, authorized, rfl, hauthorizes.1.1, hauthorizes.1.2, hauthorizes.2⟩
    · cases h
  · split at h <;> cases h
  · cases h

lemma conclude_deny {ruling : Ruling} {outcome : RemedyOutcome} {reason : String}
    (h : conclude crates input tool ruling outcome = .ok (.deny reason)) :
    ruling = .deny ∧ outcome = .declined := by
  unfold conclude at h
  split at h
  · split at h <;> cases h
  · split at h
    · exact ⟨by assumption, rfl⟩
    · cases h
  · cases h

/-- A request that is refused before its policy is read. -/
def Malformed (crates : Crates Value) (input : Request Value) : Prop :=
  validRequest crates input = false ∨ (toolOf input.request).filter crates.isCanonicalTool = none

lemma evaluate_malformed (h : Malformed crates input) :
    evaluate crates input = throw .invalidRequest := by
  unfold evaluate
  rcases h with hinvalid | htool
  · simp [hinvalid]
  · rcases validRequest crates input with _ | _
    · simp
    · simp [htool]

/-- A stateful policy is refused before anything is asked of the host. -/
lemma evaluate_stateful {document policy : Toml} (h : ¬ Malformed crates input)
    (hparsed : crates.parseToml input.policy = some document)
    (hpolicy : document.get "policy" = some policy) (hstateful : Stateful policy) :
    evaluate crates input = throw .unsupportedPolicy := by
  obtain ⟨hvalid, htool⟩ := not_or.mp h
  rw [Bool.not_eq_false] at hvalid
  obtain ⟨tool, htool⟩ := Option.ne_none_iff_exists'.mp htool
  have hunsupported := unsupportedPolicy_iff.2 hstateful
  unfold evaluate
  simp [hvalid, htool, hparsed, hpolicy, hunsupported]

/-- Neither the hash nor the text it hashes is the same for two things. -/
structure CollisionFree (crates : Crates Value) : Prop where
  text : ∀ a b v, crates.toVec a = some v → crates.toVec b = some v → a = b
  hash : Function.Injective crates.sha256

omit [BEq Value] in
lemma CollisionFree.fingerprint (h : CollisionFree crates) {call call' : Call Value}
    {policy policy' : String} {authority authority' : Option String}
    (hprint : fingerprint crates call policy authority = some print)
    (hprint' : fingerprint crates call' policy' authority' = some print) :
    call = call' ∧ policy = policy' ∧ authority = authority' := by
  simp only [OpenAppa.fingerprint, Option.map_eq_some_iff] at hprint hprint'
  obtain ⟨v, hv, hhash⟩ := hprint
  obtain ⟨v', hv', hhash'⟩ := hprint'
  obtain rfl := h.hash (hhash.trans hhash'.symm)
  have hsame := h.text _ _ _ hv hv'
  cases hsame
  exact ⟨rfl, rfl, rfl⟩

/-- A ruling under a review's fingerprint gets past the helper only for what was reviewed. -/
lemma review_binds (hfree : CollisionFree crates) {input' : Request Value}
    {said' : List (Exchange HostCall.Reply RuntimeError)} {name description : String}
    {resolve : Resolution}
    (h : (evaluate crates input).Ran said (.ok (.humanReview name print description)))
    (hresolve : input'.resolve = some resolve) (hprint : resolve.fingerprint = print)
    (h' : (evaluate crates input').Ran said' outcome)
    (hfar : said' ≠ [] ∨ ∃ decision, outcome = .ok decision) :
    input'.request = input.request ∧ input'.policy = input.policy ∧ resolve.authority = name := by
  obtain ⟨tool, print', authority, document, policy, hc, -⟩ := evaluate_ran h' hfar
  obtain ⟨rfl, rfl⟩ := hc.ruling_bound hresolve
  rcases decided h with ⟨-, ⟨-, h⟩ | ⟨_, h⟩ | ⟨name', _, _, -, hreviewed, -, h⟩⟩ |
    ⟨resolve', tool', remedied, -, h⟩
  · cases h
  · cases h
  · cases h
    obtain ⟨hcall, hpolicy, hauthority⟩ := hfree.fingerprint (hprint ▸ hc.hashed) hreviewed
    exact ⟨hcall, hpolicy, Option.some.inj hauthority⟩
  · unfold conclude at h
    split at h
    · split at h <;> cases h
    · split at h <;> cases h
    · cases h

end

/-! ### The main result -/

variable {Value : Type} [BEq Value]

/-- **Evaluation is fail-closed, and consent is bound to one call.** A call is allowed by the
runtime alone when nobody ruled, or by a remedy that authorized exactly this call under an approval
of this call, policy and authority; with a ruling it is denied only by a remedy that declined under
a denial. A malformed request is refused before its policy is read, whatever the policy is, and
every other one under a stateful policy before anything is asked of the host. A ruling on a review
counts for nothing but what was reviewed. -/
theorem fail_closed (crates : Crates Value) (input : Request Value) :
    (∀ said, (evaluate crates input).Ran said (.ok .allow) →
      AllowedOutright crates input said ∨
      ∃ resolve tool authorized, Ruled crates input resolve tool (.authorized authorized) said ∧
        resolve.ruling = .approve ∧ authorized.tool = tool ∧ authorized.cwd = none ∧
        ∃ v, crates.fromStr authorized.arguments = some v ∧
          (v == input.request.arguments) = true) ∧
    (∀ said reason resolve, (evaluate crates input).Ran said (.ok (.deny reason)) →
      input.resolve = some resolve →
      ∃ tool, Ruled crates input resolve tool .declined said ∧ resolve.ruling = .deny) ∧
    (Malformed crates input → evaluate crates input = throw .invalidRequest) ∧
    (¬ Malformed crates input → ∀ document policy,
      crates.parseToml input.policy = some document → document.get "policy" = some policy →
      Stateful policy → evaluate crates input = throw .unsupportedPolicy) ∧
    (CollisionFree crates → ∀ said name print description,
      (evaluate crates input).Ran said (.ok (.humanReview name print description)) →
      ∀ (input' : Request Value) resolve said' outcome, input'.resolve = some resolve →
        resolve.fingerprint = print → (evaluate crates input').Ran said' outcome →
        (said' ≠ [] ∨ ∃ decision, outcome = .ok decision) →
        input'.request = input.request ∧ input'.policy = input.policy ∧
          resolve.authority = name) := by
  refine ⟨fun said h => ?_, fun said reason resolve h hresolve => ?_,
    evaluate_malformed, fun h document policy => evaluate_stateful h,
    fun hfree said name print description h input' resolve said' outcome hresolve hprint h' hfar =>
      review_binds hfree h hresolve hprint h' hfar⟩
  · rcases decided h with ⟨-, ⟨hallowed, -⟩ | ⟨_, h⟩ | ⟨_, _, _, -, -, -, h⟩⟩ |
      ⟨resolve, tool, outcome, hruled, hconclude⟩
    · exact .inl hallowed
    · cases h
    · cases h
    · obtain ⟨hruling, authorized, rfl, hsame⟩ := conclude_allow hconclude
      exact .inr ⟨resolve, tool, authorized, hruled, hruling, hsame⟩
  · rcases decided h with ⟨hnone, -⟩ | ⟨resolve', tool, outcome, hruled, hconclude⟩
    · cases hnone.symm.trans hresolve
    · obtain rfl : resolve' = resolve := Option.some.inj (hruled.given.symm.trans hresolve)
      obtain ⟨hruling, rfl⟩ := conclude_deny hconclude
      exact ⟨tool, hruled, hruling⟩

/-! ### A malformed request under a stateful policy -/

def statefulPolicy : Toml := .table [("deployment", .table [("context_control", .boolean true)])]

def policyText : String := "[policy.deployment]\ncontext_control = true\n"

/-- The crates on that text; a JSON value is a flat object here. -/
def flatCrates : Crates (List (String × String)) :=
  { isObject := fun _ => true
    isCanonicalTool := (!·.isEmpty)
    parseToml := fun text =>
      if text = policyText then some (.table [("policy", statefulPolicy)]) else none
    printToml := fun _ => some policyText
    toRaw := fun _ => some "{}"
    fromStr := fun _ => some []
    toControl := some
    toRemedy := some
    controlTool := "control"
    toVec := fun reviewed => some reviewed.policy.toUTF8.toList
    sha256 := fun bytes => toString bytes }

/-- A request for another runtime. -/
def misdirected : Request (List (String × String)) :=
  { version := 3
    policy := policyText
    request :=
      { rootId := "context-1"
        invocationId := "event-1"
        agentId := "application"
        toolKind := "builtin"
        toolName := "web_fetch"
        arguments := []
        runtime := "bedrock" } }

theorem stateful_but_misdirected :
    misdirected.version = 3 ∧ ∃ document policy,
      flatCrates.parseToml misdirected.policy = some document ∧
      document.get "policy" = some policy ∧ Stateful policy ∧
      ¬ ∃ said, (evaluate flatCrates misdirected).Ran said (.error .unsupportedPolicy) := by
  have hstateful : Stateful statefulPolicy := .contextControl rfl
  refine ⟨rfl, .table [("policy", statefulPolicy)], statefulPolicy, ?_, rfl, hstateful, ?_⟩
  · simp [flatCrates, misdirected]
  rintro ⟨said, h⟩
  have hinvalid : validRequest flatCrates misdirected = false := by decide
  rw [evaluate, hinvalid] at h
  cases h.2

end ManagedAgents.OpenAppa
