import ManagedAgents.Controller.Service

/-!
What a task that waits for input says on the wire, and what `requests_from_task` reads of it, from
`human_input.py` and `human_input_wire.py`.

Payloads are dumped under their aliases and without the fields that are none. They are read back
strictly: a field goes by its alias, or else by its name, and no other field may be there.
-/

namespace ManagedAgents.Controller

open ManagedAgents.Lib

/-- How request ids are written. -/
abbrev RequestNames := RequestId → { s : String // s ≠ "" }

/-- `model_dump(by_alias=True, exclude_none=True)`. -/
def HumanInputRequest.dump (names : RequestNames) : HumanInputRequest → Json
  | toolApproval requestId name arguments message => .object
    [("kind", .literal "tool_approval"),
      ("requestId", .literal (names requestId).1),
      ("tool", .object [("name", .str name), ("arguments", arguments)]),
      ("allowedResponses", .arr [.literal "allow", .literal "deny"]),
      ("message", .literal message)]
  | clarification requestId prompt none => .object
    [("kind", .literal "clarification"),
      ("requestId", .literal (names requestId).1),
      ("prompt", .str prompt)]
  | clarification requestId prompt (some choices) => .object
    [("kind", .literal "clarification"),
      ("requestId", .literal (names requestId).1),
      ("prompt", .str prompt),
      ("choices", .arr (choices.map .str))]

/-- The extensions a message declares. -/
def ViewMessage.extensions (message : ViewMessage) : List String :=
  if message.requests.isEmpty then [] else [humanInputExtensionUri]

/-- What its metadata was updated with. -/
def ViewMessage.metadata (names : RequestNames) (message : ViewMessage) :
    List (CodePoints × Json) :=
  if message.requests.isEmpty then []
  else [(codes humanInputExtensionUri,
    .object [("requests", .arr (message.requests.map (·.dump names)))])]

/-! ### Reading -/

/-- A request, as it is read. -/
inductive WireRequest
  | toolApproval (requestId name : CodePoints) (arguments : List (CodePoints × Json))
      (message : Option CodePoints)
  | clarification (requestId prompt : CodePoints) (choices : Option (List CodePoints))

namespace WireRequest

/-- The field of this alias, or else of this name. -/
def field? (camel name : String) (payload : Json) : Option Json :=
  (payload.field? camel).or (payload.field? name)

/-- `extra="forbid"`: every field is one of the model's. -/
def closed (keys : List (String × String)) : Json → Bool
  | .obj fields => fields.all fun field => keys.any fun key =>
    field.1 == codes key.1 || field.1 == codes key.2 && (fields.lookup (codes key.1)).isNone
  | _ => false

/-- `str = Field(min_length=1)`. -/
def text (value : Option Json) : Option CodePoints := value.bind Json.text?

/-- `dict[str, JsonValue]`. -/
def arguments : Option Json → Option (List (CodePoints × Json))
  | some (.obj fields) => some fields
  | _ => none

/-- `both_decisions_required`, which the default meets. -/
def allowedResponses : Option Json → Option Unit
  | none => some ()
  | some (.arr [.str first, .str second]) =>
    if first = codes "allow" ∧ second = codes "deny" then some () else none
  | _ => none

/-- `str | None = None`. -/
def message : Option Json → Option (Option CodePoints)
  | none | some .null => some none
  | some (.str s) => some (some s)
  | _ => none

/-- `ToolDescriptor`. -/
def tool (value : Option Json) : Option (CodePoints × List (CodePoints × Json)) := do
  let tool ← value
  if closed [("name", "name"), ("arguments", "arguments")] tool then
    let name ← text (tool.field? "name")
    let arguments ← arguments (tool.field? "arguments")
    pure (name, arguments)
  else none

/-- `ToolApprovalRequest`. -/
def approval (item : Json) : Option WireRequest :=
  if closed [("kind", "kind"), ("requestId", "request_id"), ("tool", "tool"),
      ("allowedResponses", "allowed_responses"), ("message", "message")] item then do
    let requestId ← text (field? "requestId" "request_id" item)
    let tool ← tool (item.field? "tool")
    allowedResponses (field? "allowedResponses" "allowed_responses" item)
    let message ← message (item.field? "message")
    pure (toolApproval requestId tool.1 tool.2 message)
  else none

/-- `ClarificationRequest`. -/
def question (item : Json) : Option WireRequest :=
  if closed [("kind", "kind"), ("requestId", "request_id"), ("prompt", "prompt"),
      ("choices", "choices")] item then do
    let requestId ← text (field? "requestId" "request_id" item)
    let prompt ← text (item.field? "prompt")
    let choices ← clarificationChoices item
    pure (clarification requestId prompt choices)
  else none

/-- `adapter.validate_python`, by the kind. -/
def validate (item : Json) : Option WireRequest :=
  match item.field? "kind" with
  | some (.str kind) =>
    if kind = codes "tool_approval" then approval item
    else if kind = codes "clarification" then question item
    else none
  | _ => none

end WireRequest

/-- `requests_from_task`; it raises when one of the requests is not valid. -/
def requestsFromTask (names : RequestNames) (order : FieldOrder) (task : TaskObject) :
    Option (List WireRequest) :=
  if task.state != .inputRequired then some []
  else match task.statusMessage with
    | none => some []
    | some message =>
      if !message.extensions.contains humanInputExtensionUri then some []
      else
        let metadata := (Json.obj (message.metadata names)).carried order
        match metadata.field? humanInputExtensionUri with
        | some (.obj envelope) =>
          match envelope.lookup (codes "requests") with
          | some (.arr raw) => raw.mapM WireRequest.validate
          | _ => some []
        | _ => some []

/-! ### What is written is read -/

section

variable {order : FieldOrder} {names : RequestNames} {fields : List (CodePoints × Json)}

/-- An object whose fields have different names. -/
def Json.Keyed : Json → Prop
  | .obj fields => (fields.map (·.1)).Nodup
  | _ => False

lemma field?_carried (hperm : ∀ fields, (order fields).Perm fields) {j : Json} (h : j.Keyed)
    (k : String) : (j.carried order).field? k = (j.field? k).map (·.carried order) := by
  cases j with
  | obj fields =>
    rw [carried_obj]
    exact lookup_carried hperm h (codes k)
  | _ => exact h.elim

lemma keyed_object {fields : List (String × Json)} (h : (fields.map (·.1)).Nodup) :
    (Json.object fields).Keyed := by
  have hinjective : Function.Injective codes := fun _ _ => codes_inj.1
  simpa [Json.Keyed, Json.object, Function.comp_def] using h.map hinjective

@[simp] lemma carried_literal {s : String} : (Json.literal s).carried order = .literal s := rfl

lemma closed_carried (hperm : ∀ fields, (order fields).Perm fields) {j : Json} (h : j.Keyed)
    (keys : List (String × String)) :
    WireRequest.closed keys (j.carried order) = WireRequest.closed keys j := by
  cases j with
  | obj fields =>
    have hlookup := lookup_carried hperm h
    rw [carried_obj]
    simp only [WireRequest.closed, hlookup, Option.isNone_map]
    rw [(hperm _).all_eq, List.all_map]
    rfl
  | _ => exact h.elim

/-- The fields that are read, as they were carried. -/
def carriedFields (order : FieldOrder) (fields : List (CodePoints × Json)) :
    List (CodePoints × Json) :=
  order (fields.map fun field => (field.1, field.2.carried order))

/-- A tool, from its fields. -/
lemma tool_eq {item : Json} {name : CodePoints} (hclosed : WireRequest.closed
      [("name", "name"), ("arguments", "arguments")] item = true)
    (hname : item.field? "name" = some (.str name)) (hne : name ≠ [])
    (harguments : item.field? "arguments" = some (.obj fields)) :
    WireRequest.tool (some item) = some (name, fields) := by
  simp [WireRequest.tool, hclosed, hname, WireRequest.text, Json.text?, hne, harguments,
    WireRequest.arguments]

/-- An approval, from its fields. -/
lemma approval_eq {item tool : Json} {requestId name message : CodePoints}
    (hclosed : WireRequest.closed [("kind", "kind"), ("requestId", "request_id"), ("tool", "tool"),
      ("allowedResponses", "allowed_responses"), ("message", "message")] item = true)
    (hkind : item.field? "kind" = some (.literal "tool_approval"))
    (hid : item.field? "requestId" = some (.str requestId)) (hne : requestId ≠ [])
    (htool : item.field? "tool" = some tool) (hread : WireRequest.tool tool = some (name, fields))
    (hallowed : item.field? "allowedResponses" = some (.arr [.literal "allow", .literal "deny"]))
    (hmessage : item.field? "message" = some (.str message)) :
    WireRequest.validate item = some (.toolApproval requestId name fields (some message)) := by
  simp [WireRequest.validate, hkind, Json.literal, WireRequest.approval, hclosed,
    WireRequest.field?, hid, WireRequest.text, Json.text?, hne, htool, hread, hallowed,
    WireRequest.allowedResponses, hmessage, WireRequest.message]

/-- A clarification, from its fields. -/
lemma question_eq {item : Json} {requestId prompt : CodePoints}
    {choices : Option (List CodePoints)}
    (hclosed : WireRequest.closed [("kind", "kind"), ("requestId", "request_id"),
      ("prompt", "prompt"), ("choices", "choices")] item = true)
    (hkind : item.field? "kind" = some (.literal "clarification"))
    (hid : item.field? "requestId" = some (.str requestId)) (hne : requestId ≠ [])
    (hprompt : item.field? "prompt" = some (.str prompt)) (hasks : prompt ≠ [])
    (hchoices : clarificationChoices item = some choices) :
    WireRequest.validate item = some (.clarification requestId prompt choices) := by
  simp [WireRequest.validate, hkind, Json.literal, WireRequest.question, hclosed,
    WireRequest.field?, hid, WireRequest.text, Json.text?, hne, hprompt, hasks, hchoices]

/-- A list of strings is read as it is. -/
lemma mapM_str (choices : List CodePoints) :
    (choices.map Json.str).mapM Json.str? = some choices := by
  induction choices with
  | nil => rfl
  | cons choice rest ih => simp [List.mapM_cons, Json.str?, ih]

lemma carried_strings (choices : List CodePoints) :
    (Json.arr (choices.map .str)).carried order = .arr (choices.map .str) := by
  rw [carried_arr, List.map_map]
  rfl

lemma validate_approval (hperm : ∀ fields, (order fields).Perm fields) {requestId : RequestId}
    {name : CodePoints} (hname : name ≠ []) (message : String) :
    WireRequest.validate (((HumanInputRequest.toolApproval requestId name (.obj fields)
      message).dump names).carried order) =
        some (.toolApproval (codes (names requestId).1) name (carriedFields order fields)
          (some (codes message))) := by
  have htool : (Json.object [("name", .str name), ("arguments", .obj fields)]).Keyed :=
    keyed_object (by simp)
  have hdump : ((HumanInputRequest.toolApproval requestId name (.obj fields) message).dump
      names).Keyed := keyed_object (by simp)
  have hget := fun key => field?_carried hperm hdump key
  have hid : codes (names requestId).1 ≠ [] := by
    rw [Ne, codes_eq_nil]
    exact (names requestId).2
  refine approval_eq ((closed_carried hperm hdump _).trans ?_) ((hget _).trans ?_)
    ((hget _).trans ?_) hid ((hget _).trans ?_) (tool_eq ((closed_carried hperm htool _).trans ?_)
      ((field?_carried hperm htool _).trans ?_) hname ((field?_carried hperm htool _).trans ?_))
    ((hget _).trans ?_) ((hget _).trans ?_)
  · simp [HumanInputRequest.dump, Json.object, WireRequest.closed]
  · simp [HumanInputRequest.dump, Json.literal]
  · simp [HumanInputRequest.dump, List.lookup_cons, Json.literal]
  · simp [HumanInputRequest.dump, List.lookup_cons, Json.literal]
  · simp [Json.object, WireRequest.closed]
  · simp
  · simp [List.lookup_cons, carriedFields]
  · simp [HumanInputRequest.dump, List.lookup_cons, Json.literal]
  · simp [HumanInputRequest.dump, List.lookup_cons, Json.literal]

lemma validate_clarification (hperm : ∀ fields, (order fields).Perm fields)
    {requestId : RequestId} {prompt : CodePoints} (hprompt : prompt ≠ [])
    (choices : Option (List CodePoints)) :
    WireRequest.validate (((HumanInputRequest.clarification requestId prompt choices).dump
      names).carried order) = some (.clarification (codes (names requestId).1) prompt choices) := by
  have hdump : ((HumanInputRequest.clarification requestId prompt choices).dump names).Keyed := by
    cases choices <;> exact keyed_object (by simp)
  have hget := fun key => field?_carried hperm hdump key
  have hid : codes (names requestId).1 ≠ [] := by
    rw [Ne, codes_eq_nil]
    exact (names requestId).2
  cases choices with
  | none =>
    refine question_eq ((closed_carried hperm hdump _).trans ?_) ((hget _).trans ?_)
      ((hget _).trans ?_) hid ((hget _).trans ?_) hprompt ?_
    · simp [HumanInputRequest.dump, Json.object, WireRequest.closed]
    · simp [HumanInputRequest.dump, Json.literal]
    · simp [HumanInputRequest.dump, List.lookup_cons, Json.literal]
    · simp [HumanInputRequest.dump, List.lookup_cons, Json.literal]
    · rw [clarificationChoices, hget]
      simp [HumanInputRequest.dump, List.lookup_cons]
  | some choices =>
    refine question_eq ((closed_carried hperm hdump _).trans ?_) ((hget _).trans ?_)
      ((hget _).trans ?_) hid ((hget _).trans ?_) hprompt ?_
    · simp [HumanInputRequest.dump, Json.object, WireRequest.closed]
    · simp [HumanInputRequest.dump, Json.literal]
    · simp [HumanInputRequest.dump, List.lookup_cons, Json.literal]
    · simp [HumanInputRequest.dump, List.lookup_cons, Json.literal]
    · have hfield := hget "choices"
      have hlookup : ((HumanInputRequest.clarification requestId prompt (some choices)).dump
          names).field? "choices" = some (.arr (choices.map .str)) := by
        simp [HumanInputRequest.dump, List.lookup_cons]
      rw [hlookup, Option.map_some, carried_strings] at hfield
      rw [clarificationChoices, hfield]
      change some <$> (choices.map Json.str).mapM Json.str? = _
      rw [mapM_str]
      rfl

/-- The requests of a message are under its extension. -/
lemma metadata_carried (names : RequestNames) (hperm : ∀ fields, (order fields).Perm fields)
    {message : ViewMessage} (h : message.requests ≠ []) : ∃ envelope,
      (carriedFields order (message.metadata names)).lookup (codes humanInputExtensionUri) =
        some (.obj envelope) ∧
      envelope.lookup (codes "requests") =
        some (.arr (message.requests.map fun request => (request.dump names).carried order)) := by
  have hmetadata : (Json.obj (message.metadata names)).Keyed := by
    simp [ViewMessage.metadata, h, Json.Keyed]
  have hlist : (Json.arr (message.requests.map (·.dump names))).carried order =
      .arr (message.requests.map fun request => (request.dump names).carried order) := by
    rw [carried_arr, List.map_map]
    rfl
  refine ⟨carriedFields order
    [(codes "requests", .arr (message.requests.map (·.dump names)))], ?_, ?_⟩
  · refine (lookup_carried hperm hmetadata (codes humanInputExtensionUri)).trans ?_
    simp [ViewMessage.metadata, h, Json.object, carriedFields]
  · rw [← hlist]
    exact lookup_carried hperm (by simp) (codes "requests") |>.trans (by simp)

lemma requestsFromTask_eq (hperm : ∀ fields, (order fields).Perm fields) {task : TaskObject}
    {message : ViewMessage} (hstate : task.state = .inputRequired)
    (hmessage : task.statusMessage = some message) :
    requestsFromTask names order task = message.requests.mapM fun request =>
      WireRequest.validate ((request.dump names).carried order) := by
  simp only [requestsFromTask, hstate, hmessage, bne_self_eq_false, Bool.false_eq_true, if_false]
  by_cases h : message.requests = []
  · simp [ViewMessage.extensions, h]
  · obtain ⟨envelope, hget, hlookup⟩ := metadata_carried names hperm h
    have hextension : message.extensions.contains humanInputExtensionUri = true := by
      simp [ViewMessage.extensions, h]
    have hfield : ((Json.obj (message.metadata names)).carried order).field?
        humanInputExtensionUri = some (.obj envelope) := by
      rw [carried_obj]
      exact hget
    simp only [hextension, hfield, hlookup, Bool.not_true, Bool.false_eq_true, if_false]
    rw [List.mapM_map]
    rfl

end

/-! ### The requests a task shows -/

/-- The pending rows whose events are there, and nothing once the task is cancelled. -/
def askedRows (task : TaskRow) (events : List Event) (rows : List ViewRow) :
    List (ViewRow × Event) :=
  if task.cancelRequestedAt.isSome then []
  else (rows.filter (·.isPending)).filterMap fun row =>
    (byId events row.request.cmaEventId).map fun e => (row, e)

/-- `tool_input`. -/
def Event.toolInput (e : Event) : Json := e.input.orEmpty

namespace ViewRow

/-- The request is the one the row and its event make. -/
def Shows (str : Json → CodePoints) (row : ViewRow) (e : Event) : HumanInputRequest → Prop
  | .toolApproval requestId name arguments message => ∃ r value fields,
    row.request = .approval r ∧ requestId = r.requestId ∧ e.name = some value ∧
    name = value.toText str ∧ name ≠ [] ∧ encodable name = true ∧ arguments = .obj fields ∧
    e.toolInput = .obj fields ∧ row.reviewDescription = some message
  | .clarification requestId prompt choices => ∃ r value, row.request = .clarification r ∧
    requestId = r.requestId ∧ e.toolInput.field? "prompt" = some value ∧
    prompt = value.toText str ∧ prompt ≠ [] ∧ encodable prompt = true ∧
    clarificationChoices e.toolInput = some choices

/-- What was read is the row's request, with arguments equal to the event's input. -/
def ReadAs (str : Json → CodePoints) (names : RequestNames) (row : ViewRow) (e : Event) :
    WireRequest → Prop
  | .toolApproval requestId name arguments message => ∃ r value, row.request = .approval r ∧
    requestId = codes (names r.requestId).1 ∧ e.name = some value ∧ name = value.toText str ∧
    e.toolInput.Same (.obj arguments) ∧ message = row.reviewDescription.map codes
  | .clarification requestId prompt choices => ∃ r value, row.request = .clarification r ∧
    requestId = codes (names r.requestId).1 ∧ e.toolInput.field? "prompt" = some value ∧
    prompt = value.toText str ∧ clarificationChoices e.toolInput = some choices

/-- The input of a tool is one that is carried as it is, and choices can be encoded. -/
def Kept (row : ViewRow) (e : Event) : Prop :=
  match row.request with
  | .approval _ => e.toolInput.Exact ∧ e.toolInput.encodable = true
  | .clarification _ => ∀ choices, clarificationChoices e.toolInput = some (some choices) →
    choices.all encodable = true

end ViewRow

section

variable {str : Json → CodePoints} {events : List Event}

lemma requestPayload_shows {row : ViewRow} {e : Event} {payload : Option HumanInputRequest}
    (hpending : row.isPending = true) (hid : byId events row.request.cmaEventId = some e)
    (h : requestPayload str events row = .ok payload) : ∃ request, payload = some request ∧
      row.Shows str e request := by
  unfold requestPayload at h
  rw [hid] at h
  dsimp only at h
  split at h
  · rename_i r hrequest
    split at h
    · cases h
    rename_i value hname
    split at h
    · cases h
    rename_i hok
    cases h
    simp only [Bool.or_eq_true, List.isEmpty_iff, Bool.not_eq_true', not_or,
      Bool.not_eq_false] at hok
    obtain ⟨⟨hne, hencodable⟩, hobj⟩ := hok
    simp only [ViewRow.isPending, hrequest, Bool.and_eq_true, Option.any_eq_true] at hpending
    obtain ⟨⟨-, text, htext, -⟩, -⟩ := hpending
    cases hinput : e.input.orEmpty with
    | obj fields =>
      exact ⟨_, rfl, r, value, fields, hrequest, rfl, hname, rfl, hne, hencodable, rfl, hinput,
        by rw [htext]; rfl⟩
    | _ => simp [hinput, Json.isObj] at hobj
  · rename_i r hrequest
    split at h
    · cases h
    split at h
    · cases h
    rename_i value hprompt
    split at h
    · cases h
    rename_i choices hchoices
    split at h
    · cases h
    rename_i hok
    cases h
    simp only [Bool.or_eq_true, List.isEmpty_iff, Bool.not_eq_true', not_or,
      Bool.not_eq_false] at hok
    exact ⟨_, rfl, r, value, hrequest, rfl, hprompt, rfl, hok.1, hok.2, hchoices⟩

/-- The payloads, one for each row whose event is there. -/
lemma requestPayloads_shows {rows : List ViewRow} {payloads : List HumanInputRequest}
    (hpending : ∀ row ∈ rows, row.isPending = true)
    (h : requestPayloads str events rows = .ok payloads) :
    List.Forall₂ (fun asked request => asked.1.Shows str asked.2 request)
      (rows.filterMap fun row => (byId events row.request.cmaEventId).map fun e => (row, e))
      payloads := by
  induction rows generalizing payloads with
  | nil =>
    cases h
    exact .nil
  | cons row rest ih =>
    have hrest := fun row hrow => hpending row (List.mem_cons_of_mem _ hrow)
    rw [requestPayloads] at h
    cases hrow : requestPayload str events row with
    | error e => simp [hrow, bind, Except.bind] at h
    | ok payload =>
      cases hpayloads : requestPayloads str events rest with
      | error e => simp [hrow, hpayloads, bind, Except.bind] at h
      | ok others =>
        simp only [hrow, hpayloads, bind, Except.bind, pure, Except.pure, Except.ok.injEq] at h
        subst h
        rw [List.filterMap_cons]
        cases hid : byId events row.request.cmaEventId with
        | none =>
          have hnone : payload = none := by
            simpa [requestPayload, hid, eq_comm] using hrow
          subst hnone
          exact ih hrest hpayloads
        | some e =>
          obtain ⟨request, rfl, hshows⟩ :=
            requestPayload_shows (hpending row List.mem_cons_self) hid hrow
          exact .cons hshows (ih hrest hpayloads)

variable {t : TaskRow} {rows : List ViewRow} {options : TaskViewOptions}
  {pendingText : Option Text} {payloads : List HumanInputRequest}

/-- A view raises for a text of its messages, or while it asks for input. -/
lemma buildTask_iff (henabled : options.humanInputEnabled = true) :
    (∃ object, buildTask str t events rows options pendingText = .ok object) ↔
      textsEncodable t events = true ∧
      (t.a2aState = .inputRequired → t.cancelRequestedAt = none →
        ∃ payloads, requestPayloads str events (rows.filter (·.isPending)) = .ok payloads ∧
          payloads.all (·.storable) = true) := by
  unfold buildTask
  cases htexts : textsEncodable t events with
  | false => simp
  | true =>
    simp only [Bool.not_true, Bool.false_eq_true, if_false, true_and]
    cases t.a2aState with
    | inputRequired =>
      simp only [inputMessage, henabled, if_true, pendingMessage, true_implies]
      cases t.cancelRequestedAt with
      | some _ => simp [bind, Except.bind, pure, Except.pure]
      | none =>
        simp only [Option.isSome_none, Bool.false_eq_true, if_false, true_implies]
        cases requestPayloads str events (rows.filter (·.isPending)) with
        | error _ => simp [bind, Except.bind]
        | ok payloads =>
          cases payloads with
          | nil => simp [bind, Except.bind, pure, Except.pure]
          | cons payload rest =>
            by_cases hstorable : (payload :: rest).all (·.storable) = true
            · simp only [hstorable, if_true]
              simpa [bind, Except.bind, pure, Except.pure] using hstorable
            · simp only [hstorable]
              simpa [bind, Except.bind] using hstorable
    | _ => simp

/-- The payloads a task shows. -/
def askedPayloads (task : TaskRow) (payloads : List HumanInputRequest) : List HumanInputRequest :=
  if task.cancelRequestedAt.isSome then [] else payloads

/-- A task that waits for input carries its payloads. -/
lemma buildTask_shows {object : TaskObject} (ht : t.a2aState = .inputRequired)
    (henabled : options.humanInputEnabled = true)
    (hpayloads : requestPayloads str events (rows.filter (·.isPending)) = .ok payloads)
    (h : buildTask str t events rows options pendingText = .ok object) :
    textsEncodable t events = true ∧ object.state = .inputRequired ∧
      (∃ message, object.statusMessage = some message ∧
        message.requests = askedPayloads t payloads) ∧
      (askedPayloads t payloads).all (·.storable) = true := by
  unfold buildTask at h
  cases htexts : textsEncodable t events with
  | false => simp [htexts] at h
  | true =>
    simp only [htexts, Bool.not_true, Bool.false_eq_true, if_false, ht, inputMessage, henabled,
      if_true, pendingMessage, hpayloads] at h
    refine ⟨rfl, ?_⟩
    unfold askedPayloads
    cases hcancel : t.cancelRequestedAt with
    | some _ =>
      simp only [hcancel, Option.isSome_some, if_true, bind, Except.bind, pure, Except.pure,
        Except.ok.injEq] at h
      subst h
      exact ⟨rfl, ⟨_, rfl, rfl⟩, rfl⟩
    | none =>
      simp only [hcancel, Option.isSome_none, Bool.false_eq_true, if_false] at h ⊢
      cases payloads with
      | nil =>
        simp only [bind, Except.bind, pure, Except.pure, Except.ok.injEq] at h
        subst h
        exact ⟨rfl, ⟨_, rfl, rfl⟩, rfl⟩
      | cons payload rest =>
        by_cases hstorable : (payload :: rest).all (·.storable) = true
        · simp only [hstorable, if_true, bind, Except.bind, pure, Except.pure,
            Except.ok.injEq] at h
          subst h
          exact ⟨rfl, ⟨_, rfl, rfl⟩, hstorable⟩
        · simp only [hstorable, bind, Except.bind] at h
          cases h

lemma buildTask_built (henabled : options.humanInputEnabled = true)
    (htexts : textsEncodable t events = true)
    (hpayloads : requestPayloads str events (rows.filter (·.isPending)) = .ok payloads)
    (hstorable : (askedPayloads t payloads).all (·.storable) = true) :
    ∃ object, buildTask str t events rows options pendingText = .ok object := by
  rw [buildTask_iff henabled]
  refine ⟨htexts, fun _ hcancel => ⟨payloads, hpayloads, ?_⟩⟩
  simpa [askedPayloads, hcancel] using hstorable

lemma askedRows_shows
    (hpayloads : requestPayloads str events (rows.filter (·.isPending)) = .ok payloads) :
    List.Forall₂ (fun asked request => asked.1.Shows str asked.2 request) (askedRows t events rows)
      (askedPayloads t payloads) := by
  unfold askedRows askedPayloads
  split
  · exact .nil
  · exact requestPayloads_shows (fun row hrow => (List.mem_filter.1 hrow).2) hpayloads

end

lemma forall₂_mem {α β : Type} {R : α → β → Prop} {as : List α} {bs : List β}
    (h : List.Forall₂ R as bs) : ∀ b ∈ bs, ∃ a ∈ as, R a b := by
  induction h with
  | nil => simp
  | @cons a b as bs hab _ ih =>
    rw [List.forall_mem_cons]
    refine ⟨⟨a, List.mem_cons_self, hab⟩, fun b' hb' => ?_⟩
    obtain ⟨a', ha', hab'⟩ := ih b' hb'
    exact ⟨a', List.mem_cons_of_mem _ ha', hab'⟩

/-- A list is read one by one, and is as it should be when each of its items is. -/
lemma mapM_forall₂ {α β γ : Type} {f : β → Option γ} {R : α → β → Prop} {S : α → γ → Prop}
    {G : α → Prop} {as : List α} {bs : List β} (h : List.Forall₂ R as bs)
    (heach : ∀ a ∈ as, ∀ b ∈ bs, R a b → ∃ c, f b = some c ∧ (S a c ↔ G a)) :
    ∃ cs, bs.mapM f = some cs ∧ (List.Forall₂ S as cs ↔ ∀ a ∈ as, G a) := by
  induction h with
  | nil => exact ⟨[], rfl, by simp⟩
  | cons hab _ ih =>
    obtain ⟨c, hc, hgood⟩ := heach _ List.mem_cons_self _ List.mem_cons_self hab
    obtain ⟨cs, hcs, hall⟩ := ih fun a ha b hb =>
      heach a (List.mem_cons_of_mem _ ha) b (List.mem_cons_of_mem _ hb)
    refine ⟨c :: cs, by simp [List.mapM_cons, hc, hcs], ?_⟩
    rw [List.forall₂_cons, List.forall_mem_cons, hgood, hall]

section

variable {str : Json → CodePoints} {order : FieldOrder} {names : RequestNames} {row : ViewRow}
  {e : Event} {request : HumanInputRequest}

lemma Json.Dict.orEmpty {j : Json} (h : j.Dict) : j.orEmpty.Dict := by
  have hcases : j.orEmpty = j ∨ j.orEmpty = .obj [] := by
    unfold Json.orEmpty
    split <;> simp
  rcases hcases with heq | heq <;> rw [heq]
  · exact h
  · exact .obj List.nodup_nil (by simp)

/-- A request that is kept can be stored. -/
lemma storable_of_kept (h : row.Shows str e request) (hkept : row.Kept e) :
    request.storable = true := by
  cases request with
  | toolApproval requestId name arguments message =>
    obtain ⟨r, value, fields, hrequest, -, -, rfl, -, hname, rfl, hinput, -⟩ := h
    simp only [ViewRow.Kept, hrequest, hinput] at hkept
    simp [HumanInputRequest.storable, hname, hkept.2, hkept.1.fits]
  | clarification requestId prompt choices =>
    obtain ⟨r, value, hrequest, -, -, rfl, -, hprompt, hchoices⟩ := h
    simp only [ViewRow.Kept, hrequest] at hkept
    rw [HumanInputRequest.storable, hprompt, Bool.true_and]
    cases choices with
    | none => rfl
    | some choices => exact hkept choices hchoices

/-- What can be stored is kept when the carrier does not change a tool's input. -/
lemma kept_iff (h : row.Shows str e request) (hstorable : request.storable = true) :
    row.Kept e ↔ match row.request with
      | .approval _ => e.toolInput.Exact
      | .clarification _ => True := by
  cases request with
  | toolApproval requestId name arguments message =>
    obtain ⟨r, value, fields, hrequest, -, -, rfl, -, -, rfl, hinput, -⟩ := h
    simp only [HumanInputRequest.storable, Bool.and_eq_true] at hstorable
    simp [ViewRow.Kept, hrequest, hinput, hstorable.1.2]
  | clarification requestId prompt choices =>
    obtain ⟨r, value, hrequest, -, -, rfl, -, -, hchoices⟩ := h
    simp only [HumanInputRequest.storable, Bool.and_eq_true] at hstorable
    simp only [ViewRow.Kept, hrequest, iff_true]
    intro choices' hchoices'
    rw [hchoices, Option.some.injEq] at hchoices'
    rw [hchoices'] at hstorable
    exact hstorable.2

lemma HumanInputRequest.fits_of_storable {requestId : RequestId} {name : CodePoints}
    {arguments : Json} {message : Text}
    (h : (toolApproval requestId name arguments message).storable = true) :
    arguments.fits = true := by
  simp only [storable, Bool.and_eq_true] at h
  exact h.2

/-- A request is read, and is the row's unless the carrier changed a tool's input. -/
lemma validate_shows (hperm : ∀ fields, (order fields).Perm fields) (h : row.Shows str e request)
    (hdict : e.input.Dict) (hstorable : request.storable = true) :
    ∃ decoded, WireRequest.validate ((request.dump names).carried order) = some decoded ∧
      (row.ReadAs str names e decoded ↔ row.Kept e) := by
  rw [kept_iff h hstorable]
  cases request with
  | toolApproval requestId name arguments message =>
    obtain ⟨r, value, fields, hrequest, rfl, hname, rfl, hne, -, rfl, hinput, htext⟩ := h
    refine ⟨_, validate_approval hperm hne message, ?_⟩
    have hdict : (Json.obj fields).Dict := by
      rw [← hinput]
      exact hdict.orEmpty
    have hsame : (Json.obj fields).Same (.obj (carriedFields order fields)) ↔
        (Json.obj fields).Exact := by
      have hcarried := same_carried hperm hdict
        (HumanInputRequest.fits_of_storable hstorable)
      rwa [carried_obj] at hcarried
    simp only [ViewRow.ReadAs, hrequest, hinput, ← hsame]
    constructor
    · rintro ⟨-, -, -, -, -, -, hargs, -⟩
      exact hargs
    · exact fun hargs => ⟨r, value, rfl, rfl, hname, rfl, hargs, by rw [htext]; rfl⟩
  | clarification requestId prompt choices =>
    obtain ⟨r, value, hrequest, rfl, hprompt, rfl, hne, -, hchoices⟩ := h
    refine ⟨_, validate_clarification hperm hne choices, ?_⟩
    simp only [ViewRow.ReadAs, hrequest, iff_true]
    exact ⟨r, value, rfl, rfl, hprompt, rfl, hchoices⟩

end

end ManagedAgents.Controller
