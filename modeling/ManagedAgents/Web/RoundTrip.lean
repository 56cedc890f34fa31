import ManagedAgents.Controller.Wire
import ManagedAgents.Web.Mapper

/-!
The requests a task shows, read back by either of its readers.

Both readers find the requests the view was built with, in order. What the carrier changes are
the arguments of a tool: a number that is no double, and for the web function a field it leaves out.
-/

namespace ManagedAgents.Web

open ManagedAgents.Lib
open ManagedAgents.Controller (Json FieldOrder RequestNames ViewMessage ViewRow TaskObject A2aState
  HumanInputRequest WireRequest Event carriedFields field?_carried keyed_object carried_obj
  carried_arr)

/-! ### On the wire -/

def TaskState.of : A2aState → TaskState
  | .submitted => .submitted
  | .working => .working
  | .inputRequired => .inputRequired
  | .completed => .completed
  | .failed => .failed
  | .canceled => .canceled
  | .rejected => .rejected

/-- A message as it arrives, under some id. -/
def A2AMessage.of (names : RequestNames) (order : FieldOrder) (messageId : String)
    (message : ViewMessage) : A2AMessage where
  messageId := messageId
  role := .agent
  parts := [.text (utf16 message.text)]
  extensions := message.extensions
  metadata := carriedFields order (message.metadata names)

/-- The status of a task as it arrives. -/
def TaskStatus.of (names : RequestNames) (order : FieldOrder) (messageId : String)
    (object : TaskObject) : TaskStatus where
  state := .of object.state
  message := object.statusMessage.map (A2AMessage.of names order messageId)

/-- What a request says, whoever read it. -/
def RequestItem.read : RequestItem → WireRequest
  | toolApproval requestId name arguments message => .toolApproval requestId name arguments message
  | clarification requestId prompt choices => .clarification requestId prompt choices

section

variable {order : FieldOrder} {names : RequestNames} {fields : List (CodePoints × Json)}

/-- An approval, from its fields. -/
lemma approval_eq {item tool : Json} {requestId name message : CodePoints}
    (hkind : item.field? "kind" = some (.literal "tool_approval"))
    (hid : item.field? "requestId" = some (.str requestId)) (hne : requestId ≠ [])
    (htool : item.field? "tool" = some tool) (hname : tool.field? "name" = some (.str name))
    (hnamed : name ≠ []) (harguments : tool.field? "arguments" = some (.obj fields))
    (hallowed : item.field? "allowedResponses" = some (.arr [.literal "allow", .literal "deny"]))
    (hmessage : item.field? "message" = some (.str message)) :
    RequestItem.parse item = some (.toolApproval requestId name
      (fields.filter (·.1 != codes "__proto__")) (some message)) := by
  simp [RequestItem.parse, hkind, Json.literal, RequestItem.parseApproval, hid, RequestItem.text,
    hne, htool, hname, hnamed, harguments, RequestItem.record, hallowed,
    RequestItem.allowedResponses, hmessage, RequestItem.optionalString]

/-- A clarification, from its fields. -/
lemma clarification_eq {item : Json} {requestId prompt : CodePoints}
    {choices : Option (List CodePoints)}
    (hkind : item.field? "kind" = some (.literal "clarification"))
    (hid : item.field? "requestId" = some (.str requestId)) (hne : requestId ≠ [])
    (hprompt : item.field? "prompt" = some (.str prompt)) (hasks : prompt ≠ [])
    (hchoices : RequestItem.optionalStrings (item.field? "choices") = some choices) :
    RequestItem.parse item = some (.clarification requestId prompt choices) := by
  simp [RequestItem.parse, hkind, Json.literal, RequestItem.parseClarification, hid,
    RequestItem.text, hne, hprompt, hasks, hchoices]

lemma mapM_string (choices : List CodePoints) :
    (choices.map Json.str).mapM RequestItem.string = some choices := by
  induction choices with
  | nil => rfl
  | cons choice rest ih => simp [List.mapM_cons, RequestItem.string, ih]

lemma parse_approval (hperm : ∀ fields, (order fields).Perm fields)
    {requestId : Controller.RequestId} {name : CodePoints} (hname : name ≠ []) (message : String) :
    RequestItem.parse (((HumanInputRequest.toolApproval requestId name (.obj fields)
      message).dump names).carried order) = some (.toolApproval (codes (names requestId).1) name
        ((carriedFields order fields).filter (·.1 != codes "__proto__"))
        (some (codes message))) := by
  have htool : (Json.object [("name", .str name), ("arguments", .obj fields)]).Keyed :=
    keyed_object (by simp)
  have hdump : ((HumanInputRequest.toolApproval requestId name (.obj fields) message).dump
      names).Keyed := keyed_object (by simp)
  have hget := fun key => field?_carried hperm hdump key
  have hid : codes (names requestId).1 ≠ [] := by
    rw [Ne, codes_eq_nil]
    exact (names requestId).2
  refine approval_eq ((hget _).trans ?_) ((hget _).trans ?_) hid ((hget _).trans ?_)
    ((field?_carried hperm htool _).trans ?_) hname ((field?_carried hperm htool _).trans ?_)
    ((hget _).trans ?_) ((hget _).trans ?_)
  · simp [HumanInputRequest.dump, List.lookup]
  · simp [HumanInputRequest.dump, List.lookup, Json.literal]
  · simp [HumanInputRequest.dump, List.lookup]
  · simp [List.lookup]
  · simp [List.lookup, carriedFields]
  · simp [HumanInputRequest.dump, List.lookup]
  · simp [HumanInputRequest.dump, List.lookup, Json.literal]

lemma parse_clarification (hperm : ∀ fields, (order fields).Perm fields)
    {requestId : Controller.RequestId} {prompt : CodePoints} (hprompt : prompt ≠ [])
    (choices : Option (List CodePoints)) :
    RequestItem.parse (((HumanInputRequest.clarification requestId prompt choices).dump
      names).carried order) = some (.clarification (codes (names requestId).1) prompt choices) := by
  have hdump : ((HumanInputRequest.clarification requestId prompt choices).dump names).Keyed := by
    cases choices <;> exact keyed_object (by simp)
  have hget := fun key => field?_carried hperm hdump key
  have hid : codes (names requestId).1 ≠ [] := by
    rw [Ne, codes_eq_nil]
    exact (names requestId).2
  cases choices with
  | none =>
    refine clarification_eq ((hget _).trans ?_) ((hget _).trans ?_) hid
      ((hget _).trans ?_) hprompt ?_
    · simp [HumanInputRequest.dump, List.lookup]
    · simp [HumanInputRequest.dump, List.lookup, Json.literal]
    · simp [HumanInputRequest.dump, List.lookup]
    · rw [hget]
      simp [HumanInputRequest.dump, List.lookup, RequestItem.optionalStrings]
  | some choices =>
    refine clarification_eq ((hget _).trans ?_) ((hget _).trans ?_) hid
      ((hget _).trans ?_) hprompt ?_
    · simp [HumanInputRequest.dump, List.lookup]
    · simp [HumanInputRequest.dump, List.lookup, Json.literal]
    · simp [HumanInputRequest.dump, List.lookup]
    · have hfield := hget "choices"
      have hlookup : ((HumanInputRequest.clarification requestId prompt (some choices)).dump
          names).field? "choices" = some (.arr (choices.map .str)) := by
        simp [HumanInputRequest.dump, List.lookup]
      rw [hlookup, Option.map_some, Controller.carried_strings] at hfield
      rw [hfield, RequestItem.optionalStrings, mapM_string]
      rfl

/-! ### What is left out -/

lemma lookup_own (fields : List (CodePoints × Json)) :
    (fields.filter (·.1 != codes "__proto__")).lookup (codes "__proto__") = none := by
  rw [List.lookup_eq_none_iff]
  intro field hfield
  rw [bne_comm]
  exact (List.mem_filter.1 hfield).2

/-- Nothing is left out of an object without that field. -/
lemma filter_own (hperm : ∀ fields, (order fields).Perm fields)
    (h : fields.lookup (codes "__proto__") = none) :
    (carriedFields order fields).filter (·.1 != codes "__proto__") =
      carriedFields order fields := by
  rw [List.filter_eq_self]
  intro field hfield
  obtain ⟨field', hmem, rfl⟩ := List.mem_map.1 ((hperm _).mem_iff.1 hfield)
  rw [bne_comm]
  exact List.lookup_eq_none_iff.1 h field' hmem

/-- The arguments are the input exactly when it is carried as it is and no field is left out. -/
lemma same_own (hperm : ∀ fields, (order fields).Perm fields) (hdict : (Json.obj fields).Dict)
    (hfits : (Json.obj fields).fits = true) :
    (Json.obj fields).Same (.obj ((carriedFields order fields).filter (·.1 != codes "__proto__"))) ↔
      (Json.obj fields).Exact ∧ fields.lookup (codes "__proto__") = none := by
  have hcarried := Controller.same_carried hperm hdict hfits
  rw [carried_obj] at hcarried
  constructor
  · intro h
    have hnone : fields.lookup (codes "__proto__") = none := by
      obtain - | - | - | - | - | ⟨hkeys, -⟩ := h
      have hkey := hkeys (codes "__proto__")
      rw [lookup_own] at hkey
      simpa using hkey
    rw [filter_own hperm hnone] at h
    exact ⟨hcarried.1 h, hnone⟩
  · rintro ⟨hexact, hnone⟩
    rw [filter_own hperm hnone]
    exact hcarried.2 hexact

end

/-! ### Both readers -/

/-- No field of a tool's input is left out. -/
def Owned (row : ViewRow) (e : Event) : Prop :=
  match row.request with
  | .approval _ => e.toolInput.field? "__proto__" = none
  | .clarification _ => True

section

variable {str : Json → CodePoints} {order : FieldOrder} {names : RequestNames} {row : ViewRow}
  {e : Event} {request : HumanInputRequest}

lemma parse_shows (hperm : ∀ fields, (order fields).Perm fields) (h : row.Shows str e request)
    (hdict : e.input.Dict) (hstorable : request.storable = true) :
    ∃ item, RequestItem.parse ((request.dump names).carried order) = some item ∧
      (row.ReadAs str names e item.read ↔ row.Kept e ∧ Owned row e) := by
  rw [Controller.kept_iff h hstorable]
  cases request with
  | toolApproval requestId name arguments message =>
    obtain ⟨r, value, fields, hrequest, rfl, hname, rfl, hne, -, rfl, hinput, htext⟩ := h
    refine ⟨_, parse_approval hperm hne message, ?_⟩
    have hdict : (Json.obj fields).Dict := by
      rw [← hinput]
      exact hdict.orEmpty
    simp only [RequestItem.read, ViewRow.ReadAs, Owned, hrequest, hinput]
    rw [show Json.field? "__proto__" (.obj fields) = fields.lookup (codes "__proto__") from rfl,
      ← same_own hperm hdict (HumanInputRequest.fits_of_storable hstorable)]
    constructor
    · rintro ⟨-, -, -, -, -, -, hargs, -⟩
      exact hargs
    · exact fun hargs => ⟨r, value, rfl, rfl, hname, rfl, hargs, by rw [htext]; rfl⟩
  | clarification requestId prompt choices =>
    obtain ⟨r, value, hrequest, rfl, hprompt, rfl, hne, -, hchoices⟩ := h
    refine ⟨_, parse_clarification hperm hne choices, ?_⟩
    simp only [RequestItem.read, ViewRow.ReadAs, Owned, hrequest, and_self, iff_true]
    exact ⟨r, value, rfl, rfl, hprompt, rfl, hchoices⟩

lemma interrupts_eq (hperm : ∀ fields, (order fields).Perm fields) {object : TaskObject}
    {message : ViewMessage} (hstate : object.state = .inputRequired)
    (hmessage : object.statusMessage = some message) (id messageId : String) :
    interrupts { id := id, status := some (.of names order messageId object) } =
      (message.requests.mapM fun request =>
        RequestItem.parse ((request.dump names).carried order)).map (·.map (·.interrupt)) := by
  simp only [interrupts, TaskStatus.of, hstate, TaskState.of, hmessage, Option.map_some]
  by_cases h : message.requests = []
  · simp [A2AMessage.of, ViewMessage.extensions, h]
  · obtain ⟨envelope, hget, hlookup⟩ := Controller.metadata_carried names hperm h
    have hextension : message.extensions.contains humanInput = true := by
      simp [ViewMessage.extensions, h, humanInput, Controller.humanInputExtensionUri]
    have hfield : (carriedFields order (message.metadata names)).lookup (codes humanInput) =
        some (.obj envelope) := hget
    simp only [A2AMessage.of, hextension, hfield, if_true, Option.bind_some, Json.field?, hlookup,
      parseRequests]
    rw [List.mapM_map]
    rfl

end

lemma interrupt_injective : Function.Injective RequestItem.interrupt := fun _ _ h =>
  congrArg Interrupt.metadata h

/-- Both readers find the requests of these rows, in order. -/
def ReadBack (str : Json → CodePoints) (names : RequestNames) (order order' : FieldOrder)
    (id messageId : String) (object : TaskObject) (asked : List (ViewRow × Event)) : Prop :=
  ∃ (decoded : List WireRequest) (items : List RequestItem),
    Controller.requestsFromTask names order object = some decoded ∧
    interrupts { id := id, status := some (.of names order' messageId object) } =
      some (items.map (·.interrupt)) ∧
    List.Forall₂ (fun row request => row.1.ReadAs str names row.2 request) asked decoded ∧
    List.Forall₂ (fun row item => row.1.ReadAs str names row.2 item.read) asked items

section

variable {str : Json → CodePoints} {names : RequestNames} {order order' : FieldOrder}
  {t : Controller.TaskRow} {events : List Event} {rows : List ViewRow}
  {payloads : List HumanInputRequest} {options : Controller.TaskViewOptions}
  {pendingText : Option Controller.Text} {id messageId : String}

/-- What is read back was kept. -/
lemma kept_of_readBack (hperm' : ∀ fields, (order' fields).Perm fields)
    (ht : t.a2aState = .inputRequired)
    (hpayloads : Controller.requestPayloads str events (rows.filter (·.isPending)) = .ok payloads)
    (hdict : ∀ row ∈ Controller.askedRows t events rows, row.2.input.Dict)
    (henabled : options.humanInputEnabled = true) {object : TaskObject}
    (hbuilt : Controller.buildTask str t events rows options pendingText = .ok object)
    (hread : ReadBack str names order order' id messageId object
      (Controller.askedRows t events rows)) :
    Controller.textsEncodable t events = true ∧
      ∀ row ∈ Controller.askedRows t events rows, row.1.Kept row.2 ∧ Owned row.1 row.2 := by
  have hshows := Controller.askedRows_shows (t := t) hpayloads
  obtain ⟨decoded, items, -, hitems, -, hread⟩ := hread
  obtain ⟨htexts, hstate, ⟨message, hmessage, hrequests⟩, hstorable⟩ :=
    Controller.buildTask_shows ht henabled hpayloads hbuilt
  obtain ⟨items', hparsed, hall⟩ := Controller.mapM_forall₂ hshows
    fun row hrow request hrequest h => parse_shows hperm' h (hdict row hrow)
      (List.all_eq_true.1 hstorable request hrequest)
  rw [interrupts_eq hperm' hstate hmessage, hrequests, hparsed] at hitems
  have hsame : items'.map (·.interrupt) = items.map (·.interrupt) := Option.some.inj hitems
  rw [← List.map_injective_iff.2 interrupt_injective hsame] at hread
  exact ⟨htexts, hall.1 hread⟩

/-- What is kept is read back. -/
lemma readBack_of_kept (hperm : ∀ fields, (order fields).Perm fields)
    (hperm' : ∀ fields, (order' fields).Perm fields) (ht : t.a2aState = .inputRequired)
    (hpayloads : Controller.requestPayloads str events (rows.filter (·.isPending)) = .ok payloads)
    (hdict : ∀ row ∈ Controller.askedRows t events rows, row.2.input.Dict)
    (henabled : options.humanInputEnabled = true)
    (htexts : Controller.textsEncodable t events = true)
    (hkept : ∀ row ∈ Controller.askedRows t events rows, row.1.Kept row.2 ∧ Owned row.1 row.2) :
    ∃ object, Controller.buildTask str t events rows options pendingText = .ok object ∧
      ReadBack str names order order' id messageId object
        (Controller.askedRows t events rows) := by
  have hshows := Controller.askedRows_shows (t := t) hpayloads
  have hstorable : (Controller.askedPayloads t payloads).all (·.storable) = true := by
    rw [List.all_eq_true]
    intro request hrequest
    obtain ⟨row, hrow, hrowshows⟩ := Controller.forall₂_mem hshows request hrequest
    exact Controller.storable_of_kept hrowshows (hkept row hrow).1
  obtain ⟨object, hbuilt⟩ := Controller.buildTask_built henabled htexts hpayloads hstorable
  obtain ⟨-, hstate, ⟨message, hmessage, hrequests⟩, -⟩ :=
    Controller.buildTask_shows ht henabled hpayloads hbuilt
  obtain ⟨decoded, hdecoded, hpython⟩ := Controller.mapM_forall₂ hshows
    fun row hrow request hrequest h => Controller.validate_shows hperm h (hdict row hrow)
      (List.all_eq_true.1 hstorable request hrequest)
  obtain ⟨items, hparsed, hweb⟩ := Controller.mapM_forall₂ hshows
    fun row hrow request hrequest h => parse_shows hperm' h (hdict row hrow)
      (List.all_eq_true.1 hstorable request hrequest)
  refine ⟨object, hbuilt, decoded, items, ?_, ?_, hpython.2 fun row hrow => (hkept row hrow).1,
    hweb.2 hkept⟩
  · rw [Controller.requestsFromTask_eq hperm hstate hmessage, hrequests, hdecoded]
  · rw [interrupts_eq hperm' hstate hmessage, hrequests, hparsed]
    rfl

end

/-- **Round trip.** A task that waits for input is built, and both readers find the requests of its
pending rows, in order and with their ids, kinds, names, prompts, choices, messages and arguments,
exactly when its texts can be encoded and every tool's input has doubles for numbers and no field of
the name that is left out. -/
theorem requests_round_trip (str : Json → CodePoints) (names : RequestNames)
    {order order' : FieldOrder} (hperm : ∀ fields, (order fields).Perm fields)
    (hperm' : ∀ fields, (order' fields).Perm fields) {t : Controller.TaskRow}
    (ht : t.a2aState = .inputRequired) {events : List Event} {rows : List ViewRow}
    {payloads : List HumanInputRequest}
    (hpayloads : Controller.requestPayloads str events (rows.filter (·.isPending)) = .ok payloads)
    (hdict : ∀ row ∈ Controller.askedRows t events rows, row.2.input.Dict)
    (options : Controller.TaskViewOptions) (henabled : options.humanInputEnabled = true)
    (pendingText : Option Controller.Text) (id messageId : String) :
    (∃ object, Controller.buildTask str t events rows options pendingText = .ok object ∧
      ReadBack str names order order' id messageId object
        (Controller.askedRows t events rows)) ↔
      Controller.textsEncodable t events = true ∧
        ∀ row ∈ Controller.askedRows t events rows, row.1.Kept row.2 ∧ Owned row.1 row.2 := by
  constructor
  · rintro ⟨object, hbuilt, hread⟩
    exact kept_of_readBack hperm' ht hpayloads hdict henabled hbuilt hread
  · rintro ⟨htexts, hkept⟩
    exact readBack_of_kept hperm hperm' ht hpayloads hdict henabled htexts hkept

/-! ### One tool -/

/-- A task that waits for the review of tool use 52. -/
def reviewed : Controller.TaskRow where
  taskId := 100
  contextId := 1
  messageId := 100
  sequence := 1
  a2aState := .inputRequired
  internalState := .inputRequired
  cmaInputEventId := some 50

def reviewedRow : ViewRow where
  request := .approval
    { requestId := .random 7
      taskId := 100
      cmaEventId := 52
      reviewDigest := some 1
      reviewAuthority := some 2
      reviewObjectKey := some 3
      createdAt := 0 }
  reviewDescription := some "Run bash"

/-- The tool use, with one number in its input. -/
def counting (n : ℤ) : Event where
  type := .agentToolUse
  id := some 52
  name := some (.literal "bash")
  input := .object [("n", .num n 0)]

def namedAlike : RequestNames := fun _ => ⟨"7", by decide⟩

lemma counting_dict (n : ℤ) :
    ∀ row ∈ Controller.askedRows reviewed [counting n] [reviewedRow], row.2.input.Dict := by
  intro row hrow
  cases List.mem_singleton.1 hrow
  exact .obj (by simp) (by simp +contextual [Json.Dict.num])

lemma counting_exact {n : ℤ} : reviewedRow.Kept (counting n) ↔ Lib.IsDouble n := by
  have hexact : (counting n).toolInput.Exact ↔ Lib.IsDouble n := by
    change (Json.obj [(codes "n", .num n 0)]).Exact ↔ _
    simp [Json.Exact, Json.numbers, Json.fieldNumbers, Json.value]
  have hencodable : (counting n).toolInput.encodable = true := by
    change (Json.obj [(codes "n", .num n 0)]).encodable = true
    simp [Json.encodable, Json.texts, Json.fieldTexts, codes, encodable]
  exact (and_iff_left hencodable).trans hexact

/-- An input of small numbers is read back. -/
theorem requests_round_trip_one : ∃ object,
    Controller.buildTask (fun _ => codes "None") reviewed [counting 1] [reviewedRow]
      { humanInputEnabled := true } none = .ok object ∧
    ReadBack (fun _ => codes "None") namedAlike id id "100" "1" object
      (Controller.askedRows reviewed [counting 1] [reviewedRow]) := by
  refine (requests_round_trip (fun _ => codes "None") namedAlike (fun _ => .refl _)
    (fun _ => .refl _) rfl rfl (counting_dict 1) _ rfl none "100" "1").2
      ⟨rfl, fun row hrow => ?_⟩
  cases List.mem_singleton.1 hrow
  refine ⟨counting_exact.2 ⟨1, 0, by norm_num, by norm_num, by norm_num, by norm_num⟩, ?_⟩
  rfl

/-- **The first integer that no double is.** The input with it is not what either reader finds. -/
theorem arguments_rounded : ¬ ∀ (str : Json → CodePoints) (names : RequestNames)
    (order order' : FieldOrder),
    (∀ fields, (order fields).Perm fields) → (∀ fields, (order' fields).Perm fields) →
    ∀ t : Controller.TaskRow, t.a2aState = .inputRequired → ∀ (events : List Event) rows payloads,
    Controller.requestPayloads str events (rows.filter (·.isPending)) = .ok payloads →
    (∀ row ∈ Controller.askedRows t events rows, row.2.input.Dict) →
    ∀ options : Controller.TaskViewOptions, options.humanInputEnabled = true →
    ∀ pendingText id messageId, ∃ object,
      Controller.buildTask str t events rows options pendingText = .ok object ∧
      ReadBack str names order order' id messageId object
        (Controller.askedRows t events rows) := by
  intro h
  obtain ⟨object, hbuilt, hread⟩ := h (fun _ => codes "None") namedAlike id id
    (fun _ => .refl _) (fun _ => .refl _) reviewed rfl [counting (2 ^ 53 + 1)] [reviewedRow] _ rfl
    (counting_dict _) { humanInputEnabled := true } rfl none "100" "1"
  have hkept := (kept_of_readBack (fun _ => .refl _) rfl rfl (counting_dict _) rfl hbuilt
    hread).2 _ (List.mem_singleton_self _)
  have hdouble := counting_exact.1 hkept.1
  exact Lib.not_isDouble (by exact_mod_cast hdouble)

end ManagedAgents.Web
