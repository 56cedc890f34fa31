import Mathlib.Data.Int.Notation
import ManagedAgents.Controller.Rows
import ManagedAgents.Lib.CodePoints

/-!
What the provider and the policy engine send: session events, with the reading helpers of the
scheduler, and policy requests and decisions.

A missing and an empty id are both `none`; the programs only test ids for presence. The texts of an
event are Python's, so a surrogate can stand alone in one.
-/

namespace ManagedAgents.Controller

open ManagedAgents.Lib

inductive Json
  | null
  | bool (b : Bool)
  | num (mantissa : ℤ) (exponent : ℕ)
  | str (s : CodePoints)
  | arr (items : List Json)
  | obj (fields : List (CodePoints × Json))

namespace Json

def isObj : Json → Bool
  | obj _ => true
  | _ => false

/-- `value.get(key)` on an object. -/
def field? (key : String) : Json → Option Json
  | obj fields => fields.lookup (codes key)
  | _ => none

/-- A string that is written out. -/
def literal (s : String) : Json := str (codes s)

/-- An object whose names are written out. -/
def object (fields : List (String × Json)) : Json :=
  obj (fields.map fun field => (codes field.1, field.2))

lemma lookup_codes {α : Type} {fields : List (String × α)} {key : String} :
    (fields.map fun field => (codes field.1, field.2)).lookup (codes key) = fields.lookup key := by
  induction fields with
  | nil => rfl
  | cons field rest ih =>
    obtain ⟨name, value⟩ := field
    simp only [List.map_cons, List.lookup_cons, codes_beq, ih]

@[simp] lemma field?_object {fields : List (String × Json)} {key : String} :
    (object fields).field? key = fields.lookup key := lookup_codes

/-- A non-empty string. -/
def isText : Json → Bool
  | str s => !s.isEmpty
  | _ => false

end Json

/-- What follows `session.status_` or `session.thread_status_`. -/
inductive Status
  | running | idle | terminated | other
  deriving DecidableEq

inductive EventType
  | userMessage | userInterrupt | userToolConfirmation | userCustomToolResult
  | agentMessage | agentToolUse | agentMcpToolUse | agentCustomToolUse
  | status (s : Status) | threadStatus (s : Status) | budgetReached
  | other
  deriving DecidableEq

inductive StopKind
  | endTurn | requiresAction | budgetReached | other
  deriving DecidableEq

structure StopReason where
  type : StopKind
  eventIds : List EventId := []
  deriving DecidableEq

inductive Part
  | text (s : CodePoints) | other
  deriving DecidableEq

structure Event where
  type : EventType
  id : Option EventId := none
  content : List Part := []
  stopReason : Option StopReason := none
  /-- `tool_use_id` and `result` of a `user.tool_confirmation`. -/
  toolUseId : Option EventId := none
  result : Option Ruling := none
  /-- `custom_tool_use_id` of a `user.custom_tool_result`. -/
  customToolUseId : Option EventId := none
  name : Option Json := none
  /-- `mcp_server_name`, when it is a string. -/
  mcpServerName : Option CodePoints := none
  input : Json := .null

namespace Event

/-- The event's type with `thread_status` read as `status`, when it reports a status at all. -/
inductive Kind
  | running | idle | terminated | otherStatus | budgetReached
  deriving DecidableEq

def kind? (e : Event) : Option Kind :=
  match e.type with
  | .status s | .threadStatus s => some <|
    match s with
    | .running => .running
    | .idle => .idle
    | .terminated => .terminated
    | .other => .otherStatus
  | .budgetReached => some .budgetReached
  | _ => none

def stopKind (e : Event) : Option StopKind := e.stopReason.map (·.type)

def isUserMessage (e : Event) : Bool := e.type == .userMessage

/-- The provider's record of a confirmation of the tool use with this result. -/
def confirms (e : Event) (toolUse : EventId) (decision : Option Ruling) : Bool :=
  e.type == .userToolConfirmation && e.toolUseId == some toolUse && e.result == decision

/-- The provider's record of a result for the custom tool use. -/
def answers (e : Event) (toolUse : EventId) : Bool :=
  e.type == .userCustomToolResult && e.customToolUseId == some toolUse

/-- `name`, when it is a string. -/
def toolName? (e : Event) : Option CodePoints :=
  match e.name with
  | some (.str name) => some name
  | _ => none

/-- An `ask_user` call with a prompt. -/
def asksUser (e : Event) : Bool :=
  e.type == .agentCustomToolUse && e.toolName? == some (codes "ask_user") &&
    ((e.input.field? "prompt").any (·.isText))

def isToolUse (e : Event) : Bool := e.type == .agentToolUse || e.type == .agentMcpToolUse

end Event

/-- `_after`: the events after the one with this id, none of them when it is not there. -/
def after (events : List Event) : Option EventId → List Event
  | none => events
  | some id => (events.dropWhile fun e => e.id != some id).tail

/-- `_latest_status`: the last event that reports a status. -/
def latestStatus (events : List Event) : Option Event :=
  events.reverse.find? (·.kind?.isSome)

/-- The last event with this id, as a dictionary built in order keeps it. -/
def byId (events : List Event) (id : EventId) : Option Event :=
  events.reverse.find? (·.id == some id)

/-! ### Policy -/

inductive ToolKind
  | builtin | mcp
  deriving DecidableEq

structure ToolPolicyRequest where
  rootId : ContextId
  invocationId : EventId
  agentId : String
  toolKind : ToolKind
  toolName : CodePoints
  arguments : Json

structure HumanReview where
  authority : Authority
  fingerprint : Digest
  description : Text

inductive PolicyAnswer
  | allow | deny | humanReview
  deriving DecidableEq

structure ToolPolicyDecision where
  decision : PolicyAnswer
  review : Option HumanReview := none

/-- The ruling a policy process is asked to resolve an offer with. -/
structure PolicyResolution where
  fingerprint : Option Digest
  authority : Option Authority
  ruling : Ruling

/-- The `ToolPolicyRequest` for the tool use a row is about. -/
def toolPolicyRequest (rootId : ContextId) (agentId : String) (invocationId : EventId)
    (source : Option Event) : Except PolicyCode ToolPolicyRequest :=
  match source with
  | none => .error .invalidRequest
  | some source =>
    match source.toolName? with
    | none => .error .invalidRequest
    | some name =>
      let arguments := match source.input with
        | .null => .obj []
        | input => input
      if !arguments.isObj then .error .invalidRequest
      else if source.type == .agentMcpToolUse then
        if (codes "mcp/").isPrefixOf name then
          .ok { rootId, invocationId, agentId, toolKind := .mcp, toolName := name, arguments }
        else match source.mcpServerName with
          | none => .error .invalidRequest
          | some server =>
            if server.isEmpty then .error .invalidRequest
            else .ok
              { rootId, invocationId, agentId, toolKind := .mcp
                toolName := codes "mcp/" ++ server ++ codes "/" ++ name, arguments }
      else .ok { rootId, invocationId, agentId, toolKind := .builtin, toolName := name, arguments }

end ManagedAgents.Controller
