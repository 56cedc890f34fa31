import ManagedAgents.Controller.Consent
import ManagedAgents.Controller.Discipline
import ManagedAgents.Controller.Wire
import ManagedAgents.Controller.Script
import ManagedAgents.Lib.Replay

/-!
A task that waits for input can be shown, unless one of its requests has no payload.

The provider never changes an event, and the engine asks for a review only of a tool that has a
name. Then every request the scheduler made is about an event it admitted. What it admits is less
than what a payload needs: the choices of a clarification are not looked at, nor are the numbers of
a tool's input, nor is any text tried for an encoding.
-/

namespace ManagedAgents.Controller

open ManagedAgents.Lib

/-- What the provider wrote under each id. -/
abbrev Book := EventId → Event

/-- The events are as they were written. -/
def Book.Shows (book : Book) (events : List Event) : Prop :=
  ∀ e ∈ events, ∀ id, e.id = some id → e = book id

/-- The canonical path of the tool does not end in an empty part. -/
def ToolPolicyRequest.named (request : ToolPolicyRequest) : Bool :=
  match request.toolKind with
  | .builtin => !request.toolName.isEmpty
  | .mcp => request.toolName.getLast?.any (· != '/'.toNat)

/-- Histories show what was written; only a tool with a name is sent to a review. -/
def Book.faithful (book : Book) : (c : Call) → Except Exn c.Reply → Prop
  | .listEvents _, .ok events => book.Shows events
  | .policyExchange request _, .ok decision =>
    decision.decision = .humanReview → request.named = true
  | _, _ => True

def faithfulEnvironment (book : Book) : Environment Call Call.Reply Exn World :=
  environment.restrict (fun _ c r _ => book.faithful c r) fun _ _ => True

/-- The tool use can be reviewed: it has a name, and an object for its input. -/
def Event.Reviewable (e : Event) : Prop :=
  (∃ name, e.name = some (.str name) ∧ name ≠ []) ∧ (e.input = .null ∨ e.input.isObj = true)

lemma toolName?_eq {e : Event} {name : CodePoints} :
    e.toolName? = some name ↔ e.name = some (.str name) := by
  unfold Event.toolName?
  split <;> simp_all

/-- A request is made of a tool with a name and an object for its input. -/
lemma toolPolicyRequest_ok {rootId : ContextId} {agentId : String} {eventId : EventId}
    {source : Event} {request : ToolPolicyRequest}
    (h : toolPolicyRequest rootId agentId eventId (some source) = .ok request) :
    (source.input = .null ∨ source.input.isObj = true) ∧ ∃ name, source.name = some (.str name) ∧
      (request.toolName = name ∨ request.toolKind = .mcp ∧
        ∃ server, request.toolName = codes "mcp/" ++ server ++ codes "/" ++ name) := by
  unfold toolPolicyRequest at h
  dsimp only at h
  split at h
  · cases h
  rename_i name hname
  rw [toolName?_eq] at hname
  cases hinput : source.input with
  | null | obj =>
    refine ⟨by simp [Json.isObj], name, hname, ?_⟩
    simp only [hinput, Json.isObj, Bool.not_true, Bool.false_eq_true, if_false] at h
    split at h
    · split at h
      · cases h
        exact .inl rfl
      split at h
      · cases h
      split at h
      · cases h
      · cases h
        exact .inr ⟨rfl, _, rfl⟩
    · cases h
      exact .inl rfl
  | _ => simp [hinput, Json.isObj] at h

/-- What is sent to a review can be reviewed. -/
lemma reviewable_of_request {rootId : ContextId} {agentId : String} {eventId : EventId}
    {source : Event} {request : ToolPolicyRequest}
    (h : toolPolicyRequest rootId agentId eventId (some source) = .ok request)
    (hnamed : request.named = true) : source.Reviewable := by
  obtain ⟨hinput, name, hname, htool⟩ := toolPolicyRequest_ok h
  refine ⟨⟨name, hname, ?_⟩, hinput⟩
  rintro rfl
  rcases htool with htool | ⟨hkind, server, htool⟩
  · cases hkind : request.toolKind <;> simp [ToolPolicyRequest.named, htool, hkind] at hnamed
  · have hlast : request.toolName = (codes "mcp/" ++ server) ++ ['/'.toNat] := by
      rw [htool, List.append_nil]
      rfl
    simp only [ToolPolicyRequest.named, hkind, hlast, List.getLast?_concat] at hnamed
    exact absurd hnamed (by decide)

/-! ### Requests are about what was admitted -/

/-- What a program may do that knows the rows it listed. -/
def sourceContract (book : Book) : Contract Call Call.Reply Exn (List ApprovalRow) where
  possible _ c r := book.faithful c r
  allowed rows
    | .query q => q.Names ∧
      match q with
      | .addClarificationRequest _ _ eventId _ _ => (book eventId).asksUser = true
      | .recordHumanReview _ _ _ requestId offer => offer = {} ∨
        ∃ row ∈ rows, row.requestId = requestId ∧ (book row.cmaEventId).Reviewable
      | _ => True
    | _ => True
  learn rows
    | .query (.listInputRequests _), .ok requests => requests.filterMap Request.approval? ++ rows
    | _, _ => rows

section

variable {book : Book} {rows : List ApprovalRow}

/-- What is remembered, against the rows and the book. -/
structure Attested (book : Book) (t : Record) (rows : List ApprovalRow) : Prop where
  listed : ∀ {row}, t.Listed (.approval row) → row ∈ rows
  showed : ∀ {e}, t.Showed e → ∀ id, e.id = some id → e = book id
  named : ∀ {request resolution decision}, t.Heard (.policyExchange request resolution) decision →
    decision.decision = .humanReview → request.named = true

/-- Only a listing is learned from. -/
lemma sourceContract_learn (book : Book) (rows : List ApprovalRow) (c : Call)
    (r : Except Exn c.Reply) :
    (sourceContract book).learn rows c r = rows ∨ ∃ taskId requests,
      (⟨c, r⟩ : Prog.Exchange Call.Reply Exn) = ⟨.query (.listInputRequests taskId), .ok requests⟩ ∧
      (sourceContract book).learn rows c r = requests.filterMap Request.approval? ++ rows := by
  dsimp only [sourceContract]
  split
  · exact .inr ⟨_, _, rfl, rfl⟩
  · exact .inl rfl

lemma sourceContract_subset {c : Call} {r : Except Exn c.Reply} :
    rows ⊆ (sourceContract book).learn rows c r := by
  rcases sourceContract_learn book rows c r with h | ⟨_, _, -, h⟩
  · rw [h]
    exact List.Subset.refl rows
  · rw [h]
    exact List.subset_append_right _ _

lemma sourced_job {p : Program Unit} (hp : Job p) :
    (sourceContract book).Conforms p (fun _ _ => True) (fun _ => True) [] := by
  refine Contract.Conforms.mono (C := sourceContract book) (Contract.Conforms.transfer
    (R := Attested book) (grounded_job (t := {}) hp) ?_ ?_ (fun _ _ => trivial) ?_)
    (fun _ _ _ => trivial) fun _ _ => trivial
  · refine ⟨?_, ?_, fun h => by cases h⟩
    · rintro row ⟨_, _, h, -⟩
      cases h
    · rintro e ⟨_, _, h, -⟩
      cases h
  · intro t rows c h hallow
    cases c with
    | query q =>
      cases q with
      | addInputRequest requestId taskId eventId contextId claim => exact ⟨hallow.1, trivial⟩
      | addClarificationRequest requestId taskId eventId contextId claim =>
        obtain ⟨-, source, hshowed, hid, hasks⟩ := hallow
        refine ⟨trivial, ?_⟩
        change (book eventId).asksUser = true
        rw [← h.showed hshowed eventId hid]
        exact hasks
      | recordHumanReview contextId taskId claim requestId offer =>
        refine ⟨trivial, hallow.imp_right ?_⟩
        rintro ⟨row, decision, review, key, ⟨hlisted, source, agentId, request, resolution, hfound,
          hrequest, hheard⟩, hrow, hreview, -⟩
        obtain ⟨hshowed, hid⟩ := hfound.showed
        refine ⟨row, h.listed hlisted, hrow, ?_⟩
        rw [← h.showed hshowed _ hid]
        exact reviewable_of_request hrequest (h.named hheard hreview)
      | _ => exact ⟨trivial, trivial⟩
    | _ => trivial
  · intro t rows c r h _ hpossible
    refine ⟨?_, ?_, ?_⟩
    · rintro row ⟨taskId, requests, hheard, hrow⟩
      rcases List.mem_cons.1 hheard with heq | hold
      · cases heq
        exact List.mem_append_left _ (List.mem_filterMap.2 ⟨_, hrow, rfl⟩)
      · exact sourceContract_subset (h.listed ⟨taskId, requests, hold, hrow⟩)
    · rintro e ⟨sessionId, events, hheard, he⟩
      rcases List.mem_cons.1 hheard with heq | hold
      · cases heq
        exact hpossible e he
      · exact h.showed ⟨sessionId, events, hold, he⟩
    · intro request resolution decision hheard hreview
      rcases List.mem_cons.1 hheard with heq | hold
      · cases heq
        exact hpossible hreview
      · exact h.named hold hreview

end

/-- Which events the requests of the store are about. -/
structure About (book : Book) (db : Db) : Prop where
  asked : ∀ {key r}, db.clarification key = some r → (book key.2).asksUser = true
  offered : ∀ {key r}, db.approval key = some r → r.reviewObjectKey.isSome = true →
    (book key.2).Reviewable

section

variable {book : Book} {rows : List ApprovalRow} {uuid : ℕ} {db db' : Db} {q : Query}

/-- The rows have their ids for good. -/
abbrev Placed (rows : List ApprovalRow) (uuid : ℕ) (db : Db) : Prop :=
  ∀ row ∈ rows, Fixed row.requestId (·.key = row.key) uuid db

/-- A query adds requests of admitted events, and offers of tools that can be reviewed. -/
lemma About.step (h : About book db) (htidy : Tidy uuid db) (hplaced : Placed rows uuid db)
    {v : q.Reply} (hrun : q.run uuid db = .ok (v, db'))
    (hallow : (sourceContract book).allowed rows (.query q)) : About book db' := by
  constructor
  · intro key r' hr'
    rcases (Query.run_clarifications hrun).origin hr' with
      ⟨r, hr, -⟩ | ⟨-, _, _, _, _, _, rfl, rfl, -⟩
    · exact h.asked hr
    · exact hallow.2
  · intro key r' hr' hoffer
    have heff := Query.run_approvals hrun
    cases hr : db.approval key with
    | none =>
      obtain ⟨_, _, _, -, rfl, -⟩ := heff.new hr hr'
      cases hoffer
    | some r =>
      obtain ⟨r'', hr'', hchange⟩ := heff.row htidy hr
      have hsame : r'' = r' := Option.some.inj (hr''.symm.trans hr')
      subst hsame
      cases hchange with
      | @rotated contextId taskId claim requestId offer hguard =>
        rcases hallow.2 with rfl | ⟨row, hrow, hid, hreviewable⟩
        · cases hoffer
        · have hkey := (hplaced row hrow).rows hr ((Db.undecided_row hguard).1.trans hid.symm)
          rw [Db.approval_key hr] at hkey
          rw [hkey]
          exact hreviewable
      | _ => exact h.offered hr hoffer

lemma Placed.step (h : Placed rows uuid db) (htidy : Tidy uuid db) {v : q.Reply}
    (hrun : q.run uuid db = .ok (v, db')) (hnames : q.Names) : Placed rows (uuid + 1) db' :=
  fun row hrow => (h row hrow).step htidy (Query.run_approvals hrun) hnames
    fun _ hchange hkey => hchange.same_key.trans hkey

lemma Placed.mono {fresh : ℕ} (h : Placed rows uuid db) (hle : uuid ≤ fresh) :
    Placed rows fresh db := fun row hrow => (h row hrow).mono hle

/-- A row that is listed is in the store, under its id. -/
lemma placed_listed (htidy : Tidy uuid db) {taskId : TaskId} {requests : List Request}
    (hrun : listInputRequests taskId db = .ok (requests, db')) :
    Placed (requests.filterMap Request.approval?) uuid db := by
  intro row hrow
  obtain ⟨request, hrequest, heq⟩ := List.mem_filterMap.1 hrow
  cases request with
  | clarification => cases heq
  | approval row' =>
    cases heq
    have hthere := Db.requestsOf_approval ((listInputRequests_ok hrun).2 _ hrequest)
    refine ⟨fun hr hid => ?_, htidy.used hthere⟩
    exact (Db.approval_key hr).trans (htidy.unique hr hthere hid)

/-- What a run keeps. -/
structure Admitted (book : Book) (w : World) : Prop where
  tidy : Tidy w.uuid w.db
  about : About book w.db

/-- One call, by a program that knows these rows. -/
lemma Admitted.exec {w w' : World} {a : Actor} {c : Call} {r : Except Exn c.Reply}
    (h : Admitted book w) (hplaced : Placed rows w.uuid w.db)
    (hallow : (sourceContract book).allowed rows c) (hexec : environment.exec w a c r w') :
    Admitted book w' ∧ (∀ others, Placed others w.uuid w.db → Placed others w'.uuid w'.db) ∧
      Placed ((sourceContract book).learn rows c r) w'.uuid w'.db := by
  have hsame : w'.db = w.db → w.uuid ≤ w'.uuid → (sourceContract book).learn rows c r = rows →
      Admitted book w' ∧ (∀ others, Placed others w.uuid w.db → Placed others w'.uuid w'.db) ∧
        Placed ((sourceContract book).learn rows c r) w'.uuid w'.db := by
    intro hdb huuid hlearn
    rw [hlearn]
    refine ⟨⟨hdb ▸ h.tidy.mono huuid, hdb ▸ h.about⟩, fun others ho => ?_, ?_⟩
    · rw [hdb]
      exact ho.mono huuid
    · rw [hdb]
      exact hplaced.mono huuid
  rcases c.query_or with ⟨q, rfl⟩ | hc
  · rcases exec_query hexec with ⟨v, hrun, hr, hw⟩ | ⟨e, rfl, hw⟩
    · have hnames : q.Names := hallow.1
      have huuid : w'.uuid = w.uuid + 1 := by rw [hw]
      have hmove : ∀ others, Placed others w.uuid w.db → Placed others w'.uuid w'.db :=
        fun others ho => huuid ▸ ho.step h.tidy hrun hnames
      refine ⟨⟨huuid ▸ h.tidy.step (Query.run_approvals hrun) hnames,
        h.about.step h.tidy hplaced hrun hallow⟩, hmove, ?_⟩
      rcases sourceContract_learn book rows (.query q) r with
        hkeep | ⟨taskId, requests, heq, hlearn⟩
      · rw [hkeep]
        exact hmove _ hplaced
      · rw [hlearn]
        cases heq
        rcases hr with hr | hr <;> cases hr
        intro row hrow
        rcases List.mem_append.1 hrow with hnew | hold
        · exact hmove _ (placed_listed h.tidy hrun) row hnew
        · exact hmove _ hplaced row hold
    · refine hsame (by rw [hw]) (by rw [hw]) ?_
      cases q <;> rfl
  · obtain ⟨hdb, huuid, -⟩ := exec_other hexec hc
    refine hsame hdb huuid ?_
    cases c with
    | query q => exact absurd rfl (hc q)
    | _ => rfl

/-- A client's call is one that a program may make that knows nothing. -/
lemma sourceContract_client {c : Call} (h : Client c) : (sourceContract book).allowed [] c := by
  cases h <;> trivial

theorem admitted_parties {s : Parties (List ApprovalRow) World}
    (hs : Parties.Reachable (sourceContract book) (faithfulEnvironment book) [] Client {} s) :
    Admitted book s.world ∧ Parties.All (Placed · s.world.uuid s.world.db) s.knows := by
  induction hs with
  | init =>
    refine ⟨⟨⟨nofun, nofun, nofun, nofun, nofun⟩, ⟨nofun, nofun⟩⟩, .none⟩
  | step hs h ih =>
    obtain ⟨hw, hall⟩ := ih
    cases h with
    | join => exact ⟨hw, hall.update fun rows heq => by cases heq; nofun⟩
    | leave i => exact ⟨hw, hall.update nofun⟩
    | call hk hallow hexec =>
      obtain ⟨hw', hmove, hlearn⟩ := hw.exec (hall _ _ hk) hallow hexec.1
      refine ⟨hw', Parties.All.update (hall.imp hmove) fun rows heq => ?_⟩
      cases heq
      exact hlearn
    | outside ho hexec =>
      obtain ⟨hw', hmove, -⟩ := hw.exec (fun _ hrow => absurd hrow List.not_mem_nil)
        (sourceContract_client ho) hexec.1
      exact ⟨hw', hall.imp hmove⟩
    | drift hd =>
      obtain ⟨⟨now, history, hnow, rfl⟩, -⟩ := hd
      refine ⟨⟨⟨hw.tidy.named, hw.tidy.unique, hw.tidy.decided, hw.tidy.attempted,
        hw.tidy.offered⟩, ⟨hw.about.asked, hw.about.offered⟩⟩, hall.imp fun rows h row hrow => ?_⟩
      exact ⟨(h row hrow).rows, (h row hrow).used⟩

end

/-- The states reached while the provider changes no event and the engine reviews named tools. -/
abbrev Faithful (book : Book) : System → Prop :=
  Pool.Reachable (faithfulEnvironment book) Job Client {}

lemma admitted_reachable {book : Book} {s : System} (hs : Faithful book s) :
    Admitted book s.world := by
  obtain ⟨knows, hknows, -⟩ := Parties.simulates (C := sourceContract book)
    (E := faithfulEnvironment book) (fun p hp => sourced_job hp)
    (fun _ _ _ _ _ _ _ _ _ hexec => hexec.2) hs
  exact (admitted_parties hknows).1

/-! ### Views -/

/-- The rows a view is built on: the task's requests, and texts of offers it has to describe. -/
structure ViewRow.Read (db : Db) (taskId : TaskId) (rows : List ViewRow) : Prop where
  listed : listInputRequests taskId db = .ok (rows.map (·.request), db)
  described : ∀ row ∈ rows, row.reviewDescription.isSome = true →
    (Service.offerKey row.request).isSome = true

/-- The payload models take what is in the event, and the carrier can store it. -/
def Request.payable (request : Request) (e : Event) : Bool :=
  match request with
  | .clarification _ => ((e.input.field? "prompt").bind Json.str?).any encodable &&
    (clarificationChoices e.input).any fun choices => (choices.getD []).all encodable
  | .approval _ => e.toolName?.any encodable && e.input.encodable && e.input.fits

/-- What the scheduler made sure of. -/
def Request.Reviewed (request : Request) (e : Event) : Prop :=
  match request with
  | .clarification _ => e.asksUser = true
  | .approval _ => e.Reviewable

lemma Json.orEmpty_field {j v : Json} {key : String} (h : j.field? key = some v) :
    j.orEmpty = j := by
  cases j with
  | obj fields =>
    cases fields with
    | nil => cases h
    | cons field rest => rfl
  | _ => cases h

lemma Json.orEmpty_obj {j : Json} (h : j = .null ∨ j.isObj = true) :
    j.orEmpty.isObj = true ∧ j.orEmpty.encodable = j.encodable ∧ j.orEmpty.fits = j.fits := by
  cases j with
  | null => exact ⟨rfl, rfl, rfl⟩
  | obj fields =>
    cases fields with
    | nil => exact ⟨rfl, rfl, rfl⟩
    | cons field rest => exact ⟨rfl, rfl, rfl⟩
  | _ => simp [Json.isObj] at h

lemma Json.isText_iff {j : Json} : j.isText = true ↔ ∃ s, j = .str s ∧ s ≠ [] := by
  cases j <;> simp [Json.isText]

section

variable {str : Json → CodePoints} {events : List Event} {row : ViewRow} {rows : List ViewRow}
  {e : Event}

/-- A row has a payload that can be stored exactly when the models and the carrier take it. -/
lemma requestPayload_iff (hid : byId events row.request.cmaEventId = some e)
    (hreviewed : row.request.Reviewed e) :
    (∃ payload, requestPayload str events row = .ok payload ∧
        payload.all (·.storable) = true) ↔ row.request.payable e = true := by
  unfold requestPayload
  rw [hid]
  cases hrequest : row.request with
  | clarification r =>
    rw [hrequest] at hreviewed
    simp only [Request.Reviewed, Event.asksUser, Bool.and_eq_true, Option.any_eq_true] at hreviewed
    obtain ⟨-, value, hfield, htext⟩ := hreviewed
    obtain ⟨prompt, rfl, hne⟩ := Json.isText_iff.1 htext
    have hobj : e.input.isObj = true := by
      cases hinput : e.input <;> simp [hinput, Json.field?] at hfield
      rfl
    simp only [Json.orEmpty_field hfield, hobj, hfield, Json.toText, Request.payable,
      Option.bind_some, Json.str?, Option.any_some, Bool.not_true, Bool.false_eq_true, if_false]
    cases clarificationChoices e.input with
    | none => simp
    | some choices =>
      by_cases hprompt : encodable prompt = true <;>
        simp [HumanInputRequest.storable, hne, hprompt]
  | approval r =>
    rw [hrequest] at hreviewed
    obtain ⟨⟨name, hname, hne⟩, hinput⟩ := hreviewed
    obtain ⟨hobj, hencodable, hfits⟩ := Json.orEmpty_obj hinput
    simp only [hname, Json.toText, hobj, Request.payable, toolName?_eq.2 hname, Option.any_some]
    cases htext : encodable name <;>
      simp [HumanInputRequest.storable, hne, htext, hencodable, hfits]

lemma requestPayloads_cons {rest : List ViewRow} :
    (∃ payloads, requestPayloads str events (row :: rest) = .ok payloads ∧
        payloads.all (·.storable) = true) ↔
      (∃ payload, requestPayload str events row = .ok payload ∧
        payload.all (·.storable) = true) ∧
        ∃ payloads, requestPayloads str events rest = .ok payloads ∧
          payloads.all (·.storable) = true := by
  rw [requestPayloads]
  cases requestPayload str events row with
  | error _ => simp [bind, Except.bind]
  | ok payload =>
    cases requestPayloads str events rest with
    | error _ => simp [bind, Except.bind]
    | ok payloads => cases payload <;> simp [bind, Except.bind, pure, Except.pure]

lemma requestPayloads_iff (hreviewed : ∀ row ∈ rows, ∀ e,
      byId events row.request.cmaEventId = some e → row.request.Reviewed e) :
    (∃ payloads, requestPayloads str events rows = .ok payloads ∧
        payloads.all (·.storable) = true) ↔
      ∀ row ∈ rows, ∀ e, byId events row.request.cmaEventId = some e →
        row.request.payable e = true := by
  induction rows with
  | nil => simp [requestPayloads]
  | cons row rest ih =>
    rw [requestPayloads_cons, ih fun row hrow => hreviewed row (List.mem_cons_of_mem _ hrow),
      List.forall_mem_cons]
    refine and_congr ?_ Iff.rfl
    cases hid : byId events row.request.cmaEventId with
    | none => simp [requestPayload, hid]
    | some e =>
      rw [requestPayload_iff hid (hreviewed row List.mem_cons_self e hid)]
      simp

/-- What is pending was admitted, whenever its event is shown. -/
lemma reviewed_of_about {book : Book} {db : Db} (habout : About book db)
    (hshows : book.Shows events) {taskId : TaskId} (hread : ViewRow.Read db taskId rows)
    (hrow : row ∈ rows) (hpending : row.isPending = true)
    (hid : byId events row.request.cmaEventId = some e) : row.request.Reviewed e := by
  have hmem : e ∈ events := List.mem_reverse.1 (List.mem_of_find?_eq_some hid)
  have hgiven : e.id = some row.request.cmaEventId := by simpa using List.find?_some hid
  have hwrote := hshows e hmem _ hgiven
  have hthere := (listInputRequests_ok hread.listed).2 _ (List.mem_map_of_mem hrow)
  cases hrequest : row.request with
  | clarification r =>
    rw [hrequest] at hthere hwrote
    rw [hwrote]
    exact habout.asked (Db.requestsOf_clarification hthere).1
  | approval r =>
    rw [hrequest] at hthere hwrote
    rw [hwrote]
    refine habout.offered (Db.requestsOf_approval hthere) ?_
    simp only [ViewRow.isPending, hrequest, Bool.and_eq_true, Option.any_eq_true] at hpending
    obtain ⟨⟨-, text, htext, -⟩, -⟩ := hpending
    have hkey := hread.described row hrow (by rw [htext]; rfl)
    rw [hrequest] at hkey
    unfold Service.offerKey at hkey
    dsimp only at hkey
    split at hkey
    · exact hkey
    · cases hkey

end

/-- **Which views can be built.** Of any task, whenever its requests are read, and from any history
that shows what the provider wrote: a view is built exactly when the texts of the task's messages
can be encoded and, if it asks for input, so can, of the pending requests whose event is there, each
clarification's prompt and its choices, which are absent or a list of strings, and each tool's name
and the texts in its input, whose numbers have doubles to be stored as. -/
theorem views_built (str : Json → CodePoints) (book : Book) {s : System} (hs : Faithful book s)
    {t : TaskRow} {events : List Event} (hshows : book.Shows events) {rows : List ViewRow}
    (hread : ViewRow.Read s.world.db t.taskId rows) (options : TaskViewOptions)
    (henabled : options.humanInputEnabled = true) (pendingText : Option Text) :
    (∃ object, buildTask str t events rows options pendingText = .ok object) ↔
      textsEncodable t events = true ∧
      (t.a2aState = .inputRequired → t.cancelRequestedAt = none →
        ∀ row ∈ rows, row.isPending = true → ∀ e,
          byId events row.request.cmaEventId = some e → row.request.payable e = true) := by
  rw [buildTask_iff henabled, requestPayloads_iff fun row hrow e hid => ?_]
  · simp only [List.mem_filter, and_imp]
  · obtain ⟨hmem, hpending⟩ := List.mem_filter.1 hrow
    exact reviewed_of_about (admitted_reachable hs).about hshows hread hmem hpending hid

/-! ### A run -/

/-- What a script's line answers: as scripts do, or with the events that have these ids. -/
inductive Shown
  | told (said : Said) | listed (ids : List EventId)

def Book.answer (book : Book) (w : World) (a : Actor) :
    (c : Call) → Shown → Option (Except Exn c.Reply × World)
  | .listEvents sessionId, .listed ids =>
    if ids.all fun id => (book id).id == some id then
      some (.ok (ids.map book), w.note a (.listEvents sessionId) (.ok (ids.map book)) false w)
    else none
  | .listEvents _, _ | .policyExchange _ _, _ => none
  | c, .told said =>
    (w.answer [] c said).map fun (r, committed, w') => (r, w.note a c r committed w')
  | _, _ => none

lemma Book.answer_exec {book : Book} {w w' : World} {a : Actor} {c : Call} {shown : Shown}
    {r : Except Exn c.Reply} (h : book.answer w a c shown = some (r, w')) :
    (faithfulEnvironment book).exec w a c r w' := by
  unfold Book.answer at h
  split at h
  · rename_i ids
    split at h
    · rename_i hall
      cases h
      refine ⟨⟨_, _, .external w.history rfl (fun _ h => by cases h), rfl⟩, ?_⟩
      intro e he id hid
      obtain ⟨id', hid', rfl⟩ := List.mem_map.1 he
      have hown := List.all_eq_true.1 hall id' hid'
      rw [beq_iff_eq, hid, Option.some.injEq] at hown
      rw [hown]
    · cases h
  · cases h
  · cases h
  · rename_i said hlist hpolicy
    obtain ⟨⟨r', committed, w₁⟩, hanswer, heq⟩ := Option.map_eq_some_iff.1 h
    cases heq
    refine ⟨⟨_, _, World.answer_answers hanswer, rfl⟩, ?_⟩
    cases c with
    | listEvents sessionId => exact (hlist sessionId rfl).elim
    | policyExchange request resolution => exact (hpolicy request resolution rfl).elim
    | _ => trivial
  · cases h

/-- Scripts start wakeups, and move the clock on. -/
def Book.player (book : Book) :
    Player (faithfulEnvironment book) Job Client Shown ContextId Time where
  job contextId := runOnce demo contextId
  job_entry contextId := .inl ⟨demo, contextId, rfl⟩
  answer := book.answer
  answer_exec := Book.answer_exec
  isOutside := Call.isClient
  outside_of := Call.client_of_isClient
  tick w now :=
    if w.db.now ≤ now then some { w with db := { w.db with now := now } } else none
  tick_drift h := by
    split at h
    · cases h
      exact ⟨⟨_, _, ‹_›, rfl⟩, trivial⟩
    · cases h

/-- Event 52 asks the user to pick one of the choices. -/
def pick (choices : Json) : Book := fun id =>
  if id = 52 then
    { type := .agentCustomToolUse
      id := some id
      name := some (.literal "ask_user")
      input := .object [("prompt", .literal "Pick"), ("choices", choices)] }
  else if id = 53 then idle id .requiresAction [52]
  else message id

def tells (i : ℕ) (answers : List Said) : List (Line Call Shown ContextId Time) :=
  answers.map fun said => .call i (.told said)

/-- The first turn, up to the state in which the task waits for the user's pick. -/
def asksToPick : List (Line Call Shown ContextId Time) :=
  [.ask (.pendingPut 100 "hello") (.told .run),
    .ask (.query (.admitTurn
      { proposedContextId := 1
        requestedContextId := none
        messageId := 100
        proposedTaskId := 100
        inputObjectKey := 100 })) (.told .run),
    .start 1] ++
  tells 0 [.run, .run, .run, .run, .run, .session none, .created 5, .run] ++
  [.call 0 (.listed [50])] ++ tells 0 [.run, .run, .run, .run] ++
  [.call 0 (.listed [50, 52, 53])] ++ tells 0 [.run, .run, .run] ++
  [.call 0 (.listed [50, 52, 53])] ++
  tells 0 [.run, .run, .run, .run, .run, .run, .run, .run, .run]

def pickTask : TaskRow :=
  { taskId := 100
    contextId := 1
    messageId := 100
    sequence := 1
    a2aState := .inputRequired
    internalState := .inputRequired
    cmaInputEventId := some 50
    dispatchAttempts := some 1 }

def pickRequest : Request := .clarification
  { requestId := .approval 100 52
    taskId := 100
    cmaEventId := 52
    createdAt := 0 }

/-- What a played run left for a view of task 100. -/
def askedOf (s : System) : Option TaskRow × List Request :=
  (s.world.db.task 100, (s.world.db.requestsOf 100).insertionSort (Request.le · ·))

lemma asked_to_pick (choices : Json) (h : ((pick choices).player.play {} asksToPick).map askedOf =
      some (some pickTask, [pickRequest])) :
    ∃ s, Faithful (pick choices) s ∧ s.world.db.task 100 = some pickTask ∧
      ViewRow.Read s.world.db 100 [{ request := pickRequest }] := by
  obtain ⟨s, -, hs, hval⟩ := (pick choices).player.played askedOf h
  obtain ⟨htask, hrequests⟩ := Prod.mk.inj hval
  refine ⟨s, hs, htask, ?_, by simp⟩
  change Except.ok ((s.world.db.requestsOf 100).insertionSort _, s.world.db) = _
  rw [hrequests]
  rfl

lemma pick_shows (choices : Json) : (pick choices).Shows ([50, 52, 53].map (pick choices)) := by
  intro e he id hid
  simp only [List.map_cons, List.map_nil, List.mem_cons, List.not_mem_nil, or_false] at he
  rcases he with rfl | rfl | rfl <;> cases hid <;> rfl

/-- With no choices but strings, the waiting task is shown. -/
theorem views_built_pick : ∃ s object, Faithful (pick (.arr [])) s ∧
    s.world.db.task 100 = some pickTask ∧
    buildTask (fun _ => codes "None") pickTask ([50, 52, 53].map (pick (.arr [])))
      [{ request := pickRequest }] { humanInputEnabled := true } none = .ok object := by
  obtain ⟨s, hs, htask, hread⟩ := asked_to_pick (.arr []) (by decide +kernel)
  obtain ⟨object, hobject⟩ := (views_built (fun _ => codes "None") _ hs (t := pickTask)
    (pick_shows _) hread { humanInputEnabled := true } rfl none).2 (by
      refine ⟨by decide, fun _ _ row hrow _ e hid => ?_⟩
      cases List.mem_singleton.1 hrow
      cases hid
      decide)
  exact ⟨s, object, hs, htask, hobject⟩

/-- **A choice that is no string.** The scheduler admits the clarification, and the task that waits
for its answer cannot be shown. -/
theorem waiting_task_not_shown : ¬ ∀ (str : Json → CodePoints) (book : Book) (s : System),
    Faithful book s → ∀ t : TaskRow, s.world.db.task t.taskId = some t → ∀ events,
    book.Shows events → ∀ rows, ViewRow.Read s.world.db t.taskId rows →
    ∀ options : TaskViewOptions, options.humanInputEnabled = true → ∀ pendingText,
    ∃ object, buildTask str t events rows options pendingText = .ok object := by
  intro h
  obtain ⟨s, hs, htask, hread⟩ := asked_to_pick (.arr [.num 1 0]) (by decide +kernel)
  obtain ⟨object, hobject⟩ := h (fun _ => codes "None") _ s hs pickTask htask _ (pick_shows _) _
    hread { humanInputEnabled := true } rfl none
  cases hobject

end ManagedAgents.Controller
