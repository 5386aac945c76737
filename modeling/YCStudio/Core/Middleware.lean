import YCStudio.Services.Runtime

namespace YCStudio

abbrev Headers := List (Str × Str)

-- Headers stand under lower-case names.
def Headers.getList (headers : Headers) (name : Str) : List Str :=
  (headers.filter fun header => header.1 = name.map Char.toLower).map Prod.snd

inductive Message where
  | start (status : Int) (headers : Headers)
  | body (content : Str) (moreBody : Bool)
  | other (type : Str)
  deriving DecidableEq, Repr

namespace Message

def isStart : Message → Bool
  | start .. => true
  | body .. => false
  | other _ => false

def isBody : Message → Bool
  | start .. => false
  | body .. => true
  | other _ => false

end Message

def ValidResponse (messages : List Message) : Prop :=
  ∃ start bodies, messages = start :: bodies ∧ start.isStart = true ∧
    ∀ message ∈ bodies, message.isBody = true

structure HttpScope where
  method : Str
  path : Str
  state : Option (List (Str × Str))

inductive Scope where
  | http (request : HttpScope)
  | other (type : Str)

inductive Ending where
  | returned
  | raised
  -- A BaseException that is no Exception: the task was cancelled, the process is told to stop.
  | cancelled
  deriving DecidableEq, Repr

structure AppRun where
  messages : List Message
  ending : Ending

structure AsgiApp where
  run : Scope → AppRun
  valid : ∀ request, ∃ response, ValidResponse response ∧
    (run (.http request)).messages <+: response

-- Starlette's mutable headers and JSON response.
structure Starlette where
  setHeader : Headers → Str → Str → Headers
  getList_setHeader : ∀ headers name value, (setHeader headers name value).getList name = [value]
  jsonResponse : Int → List (Str × Str) → List Message
  jsonResponse_valid : ∀ status content, ValidResponse (jsonResponse status content)

inductive LogLevel where
  | info
  | error
  deriving DecidableEq, Repr

inductive RequestEvent where
  | started
  | completed
  | failed
  deriving DecidableEq, Repr

structure LogEntry where
  level : LogLevel
  event : RequestEvent
  statusCode : Option Int
  context : List (Str × Str)

namespace RequestContextMiddleware

def requestIdHeader : Str := "X-Request-ID".toList

structure State where
  statusCode : Int
  sent : List Message
  context : List (Str × Str)
  log : List LogEntry

def State.record (state : State) (level : LogLevel) (event : RequestEvent)
    (statusCode : Option Int) : State :=
  { state with log := state.log ++ [{ level, event, statusCode, context := state.context }] }

variable (starlette : Starlette) (requestId : Str)

def sendWithRequestId (state : State) (message : Message) : State :=
  match message with
  | .start status headers =>
      { state with
        statusCode := status
        sent := state.sent ++
          [.start status (starlette.setHeader headers requestIdHeader requestId)] }
  | message => { state with sent := state.sent ++ [message] }

def boundContext (request : HttpScope) : List (Str × Str) :=
  [("request_id".toList, requestId), ("http_method".toList, request.method),
    ("http_path".toList, request.path)]

def boundScope (request : HttpScope) : HttpScope :=
  { request with state := some (dictSet (request.state.getD []) ("request_id".toList, requestId)) }

def internalServerError : List Message :=
  starlette.jsonResponse 500
    [("detail".toList, "Internal Server Error".toList), ("request_id".toList, requestId)]

def call (app : AsgiApp) (scope : Scope) : State × Ending :=
  match scope with
  | .other type =>
      let run := app.run (.other type)
      ({ statusCode := 500, sent := run.messages, context := [], log := [] }, run.ending)
  | .http request =>
      let context := boundContext requestId request
      let started := State.record { statusCode := 500, sent := [], context, log := [] } .info
        .started none
      let run := app.run (.http (boundScope requestId request))
      let answered := run.messages.foldl (sendWithRequestId starlette requestId) started
      let (state, ending) :=
        match run.ending with
        | .raised =>
            ((internalServerError starlette requestId).foldl (sendWithRequestId starlette requestId)
              (answered.record .error .failed (some 500)), Ending.returned)
        | .returned =>
            (answered.record (if 500 ≤ answered.statusCode then .error else .info) .completed
              (some answered.statusCode), Ending.returned)
        | .cancelled => (answered, Ending.cancelled)
      ({ state with context := [] }, ending)

structure WellFormed (state : State) : Prop where
  oneStart : state.sent.countP Message.isStart ≤ 1
  startFirst : ∀ before message after, state.sent = before ++ message :: after →
    message.isBody = true → ∃ start ∈ before, start.isStart = true
  headed : ∀ status headers, .start status headers ∈ state.sent →
    headers.getList requestIdHeader = [requestId]
  oneEvent : state.log.countP (fun entry => entry.event = .completed ∨ entry.event = .failed) = 1

section Sending

variable {starlette : Starlette} {requestId : Str} {state : State}

def stamp (starlette : Starlette) (requestId : Str) : Message → Message
  | .start status headers => .start status (starlette.setHeader headers requestIdHeader requestId)
  | message => message

theorem sent_send (message : Message) : (sendWithRequestId starlette requestId state message).sent =
    state.sent ++ [stamp starlette requestId message] := by
  cases message <;> rfl

theorem log_send (message : Message) :
    (sendWithRequestId starlette requestId state message).log = state.log := by
  cases message <;> rfl

theorem sent_sends (messages : List Message) :
    (messages.foldl (sendWithRequestId starlette requestId) state).sent =
      state.sent ++ messages.map (stamp starlette requestId) := by
  induction messages generalizing state with
  | nil => exact (List.append_nil _).symm
  | cons message messages ih =>
    rw [List.foldl_cons, ih, sent_send, List.append_assoc]
    rfl

theorem log_sends (messages : List Message) :
    (messages.foldl (sendWithRequestId starlette requestId) state).log = state.log := by
  induction messages generalizing state with
  | nil => rfl
  | cons message messages ih => rw [List.foldl_cons, ih, log_send]

theorem isStart_stamp (message : Message) :
    (stamp starlette requestId message).isStart = message.isStart := by
  cases message <;> rfl

theorem isBody_stamp (message : Message) :
    (stamp starlette requestId message).isBody = message.isBody := by
  cases message <;> rfl

theorem headed_stamp {messages : List Message} {status : Int} {headers : Headers}
    (h : .start status headers ∈ messages.map (stamp starlette requestId)) :
    headers.getList requestIdHeader = [requestId] := by
  obtain ⟨message, _, hstamp⟩ := List.mem_map.mp h
  cases message with
  | start status' headers' =>
    cases hstamp
    exact starlette.getList_setHeader _ _ _
  | body content moreBody => cases hstamp
  | other type => cases hstamp

theorem countP_stamp (messages : List Message) :
    (messages.map (stamp starlette requestId)).countP Message.isStart =
      messages.countP Message.isStart := by
  rw [List.countP_map]
  exact List.countP_congr fun message _ => by rw [Function.comp_apply, isStart_stamp]

end Sending

theorem isStart_of_isBody {message : Message} (h : message.isBody = true) :
    message.isStart = false := by
  cases message with
  | start => cases h
  | body => rfl
  | other => rfl

theorem prefix_cases {messages response : List Message} (hvalid : ValidResponse response)
    (h : messages <+: response) : messages = [] ∨ ValidResponse messages := by
  obtain ⟨start, bodies, rfl, hstart, hbodies⟩ := hvalid
  cases messages with
  | nil => exact Or.inl rfl
  | cons first rest =>
    obtain ⟨rfl, hrest⟩ := List.cons_prefix_cons.mp h
    exact Or.inr ⟨first, rest, rfl, hstart, fun message hmem => hbodies message (hrest.subset hmem)⟩

theorem countP_valid {messages : List Message} (h : ValidResponse messages) :
    messages.countP Message.isStart = 1 := by
  obtain ⟨start, bodies, rfl, hstart, hbodies⟩ := h
  have hnone : bodies.countP Message.isStart = 0 := by
    rw [List.countP_eq_zero]
    intro message hmem
    simp [isStart_of_isBody (hbodies message hmem)]
  rw [List.countP_cons, hnone, if_pos hstart]

theorem startFirst_valid {messages : List Message} (h : ValidResponse messages) {before after}
    {message : Message} (hsplit : messages = before ++ message :: after)
    (hbody : message.isBody = true) : ∃ start ∈ before, start.isStart = true := by
  obtain ⟨start, bodies, rfl, hstart, -⟩ := h
  cases before with
  | nil =>
    cases hsplit
    rw [isStart_of_isBody hbody] at hstart
    cases hstart
  | cons first before =>
    cases hsplit
    exact ⟨start, List.mem_cons_self, hstart⟩

theorem valid_stamp {messages : List Message} (starlette : Starlette) (requestId : Str)
    (h : ValidResponse messages) :
    ValidResponse (messages.map (stamp starlette requestId)) := by
  obtain ⟨start, bodies, rfl, hstart, hbodies⟩ := h
  refine ⟨_, _, rfl, (isStart_stamp start).trans hstart, List.forall_mem_map.mpr ?_⟩
  exact fun message hmem => (isBody_stamp message).trans (hbodies message hmem)

section Calls

variable (starlette : Starlette) (requestId : Str) (app : AsgiApp) (request : HttpScope)

def appRun : AppRun := app.run (.http (boundScope requestId request))

theorem sent_call : (call starlette requestId app (.http request)).1.sent =
    (appRun requestId app request).messages.map (stamp starlette requestId) ++
      (if (appRun requestId app request).ending = .raised then
        (internalServerError starlette requestId).map (stamp starlette requestId) else []) := by
  rw [call, appRun]
  cases hending : (app.run (.http (boundScope requestId request))).ending with
  | returned => simp [State.record, sent_sends]
  | raised => simp [State.record, sent_sends]
  | cancelled => simp [State.record, sent_sends]

theorem events_call : (call starlette requestId app (.http request)).1.log.countP
    (fun entry => entry.event = .completed ∨ entry.event = .failed) =
      if (appRun requestId app request).ending = .cancelled then 0 else 1 := by
  rw [call, appRun]
  cases hending : (app.run (.http (boundScope requestId request))).ending with
  | returned => simp [State.record, log_sends]
  | raised => simp [State.record, log_sends]
  | cancelled => simp [State.record, log_sends]

theorem wellFormed_of_valid {messages : List Message}
    (hmessages : messages = [] ∨ ValidResponse messages) {state : State}
    (hsent : state.sent = messages.map (stamp starlette requestId))
    (hevent : state.log.countP
      (fun entry => entry.event = .completed ∨ entry.event = .failed) = 1) :
    WellFormed requestId state where
  oneStart := by
    rw [hsent, countP_stamp]
    rcases hmessages with rfl | hvalid
    · exact Nat.zero_le 1
    · exact Nat.le_of_eq (countP_valid hvalid)
  startFirst before message after hsplit hbody := by
    rw [hsent] at hsplit
    rcases hmessages with rfl | hvalid
    · cases before <;> cases hsplit
    · exact startFirst_valid (valid_stamp starlette requestId hvalid) hsplit hbody
  headed status headers hmem := by
    rw [hsent] at hmem
    exact headed_stamp hmem
  oneEvent := hevent

theorem call_wellFormed_iff :
    WellFormed requestId (call starlette requestId app (.http request)).1 ↔
      (appRun requestId app request).ending = .returned ∨
        (appRun requestId app request).ending = .raised ∧
          (appRun requestId app request).messages = [] := by
  obtain ⟨response, hresponse, hpart⟩ := app.valid (boundScope requestId request)
  have hmessages : (appRun requestId app request).messages = [] ∨
      ValidResponse (appRun requestId app request).messages := prefix_cases hresponse hpart
  have hsent := sent_call starlette requestId app request
  have hevents := events_call starlette requestId app request
  constructor
  · intro h
    cases hending : (appRun requestId app request).ending with
    | returned => exact Or.inl rfl
    | cancelled =>
      rw [if_pos hending, h.oneEvent] at hevents
      cases hevents
    | raised =>
      refine Or.inr ⟨rfl, hmessages.resolve_right fun hvalid => ?_⟩
      have hstarts := h.oneStart
      have hfallback := countP_valid (starlette.jsonResponse_valid 500
        [("detail".toList, "Internal Server Error".toList), ("request_id".toList, requestId)])
      rw [hsent, if_pos hending, List.countP_append, countP_stamp, countP_stamp,
        countP_valid hvalid, internalServerError, hfallback] at hstarts
      exact absurd hstarts (by decide)
  · rintro (hending | ⟨hending, hnone⟩)
    · rw [hending, if_neg (by decide), List.append_nil] at hsent
      rw [hending, if_neg (by decide)] at hevents
      exact wellFormed_of_valid starlette requestId hmessages hsent hevents
    · rw [hending, if_pos rfl, hnone, List.map_nil, List.nil_append] at hsent
      rw [hending, if_neg (by decide)] at hevents
      exact wellFormed_of_valid starlette requestId
        (Or.inr (starlette.jsonResponse_valid 500 _)) hsent hevents

end Calls

def replaceHeader (key value : Str) : Headers → Headers
  | [] => [(key, value)]
  | header :: headers =>
      if header.1 = key then (key, value) :: headers.filter fun header => header.1 ≠ key
      else header :: replaceHeader key value headers

theorem filter_replaceHeader (headers : Headers) (key value : Str) :
    ((replaceHeader key value headers).filter fun header => header.1 = key) = [(key, value)] := by
  induction headers with
  | nil => simp [replaceHeader]
  | cons header headers ih =>
    rw [replaceHeader]
    by_cases hkey : header.1 = key
    · rw [if_pos hkey]
      simp
    · rw [if_neg hkey, List.filter_cons_of_neg (by simpa using hkey), ih]

def jsonMember (entry : Str × Str) : Str :=
  ['"'] ++ entry.1 ++ "\":\"".toList ++ entry.2 ++ ['"']

def plainStarlette : Starlette where
  setHeader headers name value := replaceHeader (name.map Char.toLower) value headers
  getList_setHeader headers name value := by rw [Headers.getList, filter_replaceHeader]; rfl
  jsonResponse status content :=
    let body := "\x7b".toList ++ [','].intercalate (content.map jsonMember) ++ "\x7d".toList
    [.start status [("content-length".toList, (toString body.length).toList),
        ("content-type".toList, "application/json".toList)], .body body false]
  jsonResponse_valid _ _ := ⟨_, _, rfl, rfl, by simp [Message.isBody]⟩

def interruptedApp : AsgiApp where
  run _ := {
    messages := [.start 200 [], .body "first part".toList true]
    ending := .raised }
  valid _ := ⟨_, ⟨_, _, rfl, rfl, by simp [Message.isBody]⟩, List.prefix_rfl⟩

theorem interruptedApp_two_starts : ¬ WellFormed "4f6c".toList (call plainStarlette "4f6c".toList
    interruptedApp (.http { method := "GET".toList, path := "/".toList, state := none })).1 := by
  intro h
  exact absurd h.oneStart (by decide)

end RequestContextMiddleware

end YCStudio
