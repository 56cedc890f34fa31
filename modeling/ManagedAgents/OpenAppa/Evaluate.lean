import ManagedAgents.Lib.Transcript
import ManagedAgents.OpenAppa.Policy

/-!
The evaluation of one tool call, `evaluate` of `main.rs`.

The crates the helper calls without an effect are parameters: the canonical tool names, the TOML and
JSON codecs and the hash. What it asks of its host and of the native runtime are calls, which may be
answered with anything. JSON values are those of any type with an equality test.
-/

namespace ManagedAgents.OpenAppa

open ManagedAgents.Lib ManagedAgents.Lib.Prog Toml

inductive RuntimeError
  | invalidRequest | invalidPolicy | unsupportedPolicy | runtimeUnavailable | unsupportedRemedy
  | staleReview
  deriving DecidableEq

inductive Ruling
  | approve | deny
  deriving DecidableEq

structure Resolution where
  fingerprint : String
  authority : String
  ruling : Ruling

structure Call (Value : Type) where
  rootId : String
  invocationId : String
  agentId : String
  toolKind : String
  toolName : String
  arguments : Value
  runtime : String

structure Request (Value : Type) where
  version : UInt32
  policy : String
  request : Call Value
  resolve : Option Resolution := none

/-- What the fingerprint of a review is the hash of. -/
structure Reviewed (Value : Type) where
  call : Call Value
  policy : String
  authority : Option String

structure Crates (Value : Type) where
  isObject : Value → Bool
  /-- `CanonicalTool::parse` succeeds. -/
  isCanonicalTool : String → Bool
  parseToml : String → Option Toml
  printToml : Toml → Option String
  /-- `to_raw_value`, and the text of a raw value read back. -/
  toRaw : Value → Option String
  fromStr : String → Option Value
  /-- The arguments of a control call about an offer, and of its remedy. -/
  toControl : String → Option String
  toRemedy : String → Option String
  /-- `CONTROL_TOOL`. -/
  controlTool : String
  toVec : Reviewed Value → Option (List UInt8)
  /-- The digest in hexadecimal. -/
  sha256 : List UInt8 → String

/-! ### The native runtime -/

structure Actor where
  root : String
  child : Option String := none

structure ProposedCall where
  tool : String
  cwd : Option String := none
  arguments : String

inductive HookEvent
  | sessionStart (root : String)
  | toolCall (actor : Actor) (call : ProposedCall) (callId : Option String)
      (ruling : Option Ruling)

structure Offer where
  id : String
  returns : Option String := none
  inputSanitizer : Option String := none
  deriving DecidableEq

structure Review where
  offer : String
  text : String
  deriving DecidableEq

inductive HookDecision
  | ack
  | allowCall (spawn : Option String)
  | denyCall (offers : List Offer) (review : List Review)
  | passControl
  /-- A refusal, or another decision. -/
  | other
  deriving DecidableEq

inductive RemedyOutcome
  | authorized (call : ProposedCall)
  | declined
  | other

inductive HostCall
  | currentExe
  | tempFile
  | writeConfig (text : String)
  | loadConfig
  | openStore
  | openRuntime
  | hook (event : HookEvent)
  | executeRemedy (actor : Actor) (arguments : String)

@[reducible] def HostCall.Reply : HostCall → Type
  | currentExe => String
  | tempFile | writeConfig _ | loadConfig | openStore | openRuntime => Unit
  | hook _ => HookDecision
  | executeRemedy _ _ => RemedyOutcome

abbrev Program (α : Type) := Prog HostCall HostCall.Reply RuntimeError α

def hook (event : HookEvent) : Program HookDecision := perform (HostCall.hook event)

/-- A call to the host whose failure is the given error. -/
def host (c : HostCall) (e : RuntimeError) : Program c.Reply := attempt c e

/-! ### The evaluation -/

inductive Decision
  | allow
  | deny (reason : String)
  | humanReview (authority fingerprint description : String)
  deriving DecidableEq

variable {Value : Type} (crates : Crates Value) (input : Request Value)

def validRequest : Bool :=
  input.version == 3 && !input.request.rootId.isEmpty && !input.request.invocationId.isEmpty
    && !input.request.agentId.isEmpty && input.request.runtime == "cma"
    && crates.isObject input.request.arguments

/-- The canonical name of the called tool. -/
def toolOf (call : Call Value) : Option String :=
  if call.toolKind = "builtin" then some ("host/cma/" ++ call.toolName)
  else if call.toolKind = "mcp" then some call.toolName
  else none

def fingerprint (call : Call Value) (policy : String) (authority : Option String) : Option String :=
  (crates.toVec { call, policy, authority }).map crates.sha256

/-- A human ruling that is not about this call, policy and authority. -/
def stale (resolve : Option Resolution) (fingerprint : String) (authority : Option String) : Bool :=
  resolve.any fun r => r.fingerprint != fingerprint || some r.authority != authority

def annotatorCommand : List String := ["externals", "annotators", "deny-undeclared", "command"]

/-- The value at the end of a path of keys, replaced. -/
def Toml.set (value : Toml) (keys : List String) (new : Toml) : Toml :=
  match keys, value with
  | [], _ => new
  | key :: keys, table fields =>
    table (fields.map fun field => if field.1 = key then (key, field.2.set keys new) else field)
  | _ :: _, value => value

/-- The declarative annotator runs this executable. -/
def resolveExecutable (document : Toml) : Program Toml :=
  match (document.path annotatorCommand).bind asArray with
  | some (string "@openappa-cma" :: arguments) => do
    let executable ← host .currentExe .runtimeUnavailable
    pure (document.set annotatorCommand (array (string executable :: arguments)))
  | _ => pure document

/-- A runtime of its own for the policy, in memory. -/
def openRuntime (document : Toml) : Program Unit := do
  host .tempFile .runtimeUnavailable
  let text ← orThrow (crates.printToml document) .invalidPolicy
  host (.writeConfig text) .runtimeUnavailable
  host .loadConfig .invalidPolicy
  host .openStore .runtimeUnavailable
  host .openRuntime .invalidPolicy

variable [BEq Value]

/-- The runtime authorized exactly this call. -/
def authorizes (tool : String) (arguments : Value) (authorized : ProposedCall) : Bool :=
  authorized.tool == tool && authorized.cwd.isNone
    && (crates.fromStr authorized.arguments).any (· == arguments)

/-- What a remedy's outcome makes of a human ruling. -/
def conclude (tool : String) (ruling : Ruling) : RemedyOutcome → Except RuntimeError Decision
  | .authorized authorized =>
    if ruling = .approve ∧ authorizes crates tool input.request.arguments authorized then
      .ok .allow
    else .error .runtimeUnavailable
  | .declined =>
    if ruling = .deny then .ok (.deny "Denied by OpenAPPA policy.")
    else .error .runtimeUnavailable
  | .other => .error .runtimeUnavailable

/-- Submit a human ruling on an offer, and execute its remedy. -/
def settle (actor : Actor) (tool : String) (offer : Offer) (resolve : Resolution) :
    Program Decision := do
  let arguments ← orThrow (crates.toControl offer.id) .invalidRequest
  let control : ProposedCall := { tool := crates.controlTool, arguments }
  let gate ← hook (.toolCall actor control none (some resolve.ruling))
  if gate = .passControl then
    let remedy ← orThrow (crates.toRemedy offer.id) .invalidRequest
    let outcome ← perform (HostCall.executeRemedy actor remedy)
    match conclude crates input tool resolve.ruling outcome with
    | .ok decision => pure decision
    | .error e => throw e
  else throw .runtimeUnavailable

/-- The offer of a denial that a human may resolve: the only one, with its review. -/
def remediable (offers : List Offer) (review : List Review) : Option (Offer × Review) :=
  match offers, review with
  | [offer], [r] =>
    if r.offer == offer.id && !r.text.isEmpty && offer.returns.isNone
        && offer.inputSanitizer.isNone then some (offer, r)
    else none
  | _, _ => none

/-- What the decision on the call becomes. -/
def answer (actor : Actor) (tool fingerprint : String) (authority : Option String) :
    HookDecision → Program Decision
  | .allowCall none =>
    if input.resolve.isNone then pure .allow else throw .runtimeUnavailable
  | .denyCall [] [] =>
    if input.resolve.isSome then throw .staleReview
    else pure (.deny "Denied by OpenAPPA policy.")
  | .denyCall offers review =>
    match remediable offers review, authority with
    | some (offer, r), some authority =>
      match input.resolve with
      | some resolve => settle crates input actor tool offer resolve
      | none => pure (.humanReview authority fingerprint r.text)
    | _, _ => throw .unsupportedRemedy
  | _ => throw .runtimeUnavailable

/-- Put the call to a fresh runtime. -/
def consult (tool fingerprint : String) (authority : Option String) (document : Toml) :
    Program Decision := do
  let document ← resolveExecutable document
  openRuntime crates document
  let actor : Actor := { root := input.request.rootId }
  let start ← hook (.sessionStart input.request.rootId)
  if start = .ack then
    let arguments ← orThrow (crates.toRaw input.request.arguments) .invalidRequest
    let decision ← hook (.toolCall actor { tool, arguments } (some input.request.invocationId) none)
    answer crates input actor tool fingerprint authority decision
  else throw .runtimeUnavailable

/-- `evaluate`. -/
def evaluate : Program Decision :=
  if !validRequest crates input then throw .invalidRequest
  else
    match (toolOf input.request).filter crates.isCanonicalTool with
    | none => throw .invalidRequest
    | some tool =>
      match crates.parseToml input.policy with
      | none => throw .invalidPolicy
      | some document =>
        match document.get "policy" with
        | none => throw .invalidPolicy
        | some policy =>
          if unsupportedPolicy policy then throw .unsupportedPolicy
          else
            let authority := soleAuthority document policy
            match fingerprint crates input.request input.policy authority with
            | none => throw .invalidRequest
            | some fingerprint =>
              if stale input.resolve fingerprint authority then throw .staleReview
              else consult crates input tool fingerprint authority document

end ManagedAgents.OpenAppa
