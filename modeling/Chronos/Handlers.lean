import Chronos.ExecutionHistory
import Chronos.HandlerRegistry
import Chronos.LogOrder
import Chronos.Platform
import Chronos.ReadBack

/-!
# The registered handlers

The handlers of `worker/src/handlers/` as `executeJob` meets them: each awaits
a random number, a timer or a response, writes lines through the log function
that it is given, and resolves or throws.  How far a handler has come shows in
the lines that it has written.  From this follows what the rows of a closed
execution say: those of a completed one tell what the handler did, line by
line, and an execution on a payload that the handler refuses fails with the
handler's own message.

The sources have a byte that is not UTF-8 in some texts; it is read as
`\uFFFD`.
-/

namespace Chronos

/-- `JSON.stringify`, and the text of a value in a template literal; an object
with a `toString` of its own, which may have none, is not considered. -/
structure JavaScript where
  stringify : Json → String
  text : Option Json → String

namespace Json

/-- The value counts as true in a condition. -/
def truthy : Json → Bool
  | .null => false
  | .bool value => value
  | .num value => value ≠ 0
  | .str value => value ≠ ""
  | .arr _ => true
  | .obj _ => true

/-- `${value.length}`. -/
def lengthText (js : JavaScript) : Json → String
  | .str value => toString (jsLength value)
  | .arr items => toString items.length
  | .obj fields => js.text (Json.field? (.obj fields) "length")
  | _ => js.text none

/-- A property that holds a string. -/
def string? (payload : Json) (name : String) : Option String :=
  match payload.field? name with
  | some (.str value) => some value
  | _ => none

end Json

/-! ## The handlers -/

/-- What a handler goes on with: nothing, the next random number, the end of
its sleep, a response, or an error that it catches. -/
inductive HandlerEvent where
  | go
  | random (below2000 : Nat)
  | slept
  | response (status : Nat) (statusText : String)
      (contentLength : Option String)
  | failed (message : String)

inductive HandlerOutput where
  | log (level message : String)
  | resolved
  | rejected (message : String)
  deriving DecidableEq

section Handlers

variable (js : JavaScript) (payload : Json)

def echoReceived : LogEntry :=
  ⟨"info", "Echo handler received payload: " ++ js.stringify payload⟩

def echoSleeping (random : Nat) : LogEntry :=
  ⟨"debug", s!"Sleeping {1000 + random}ms to simulate work"⟩

def echoComplete : LogEntry :=
  ⟨"info", "Echo complete \uFFFD returned payload as-is"⟩

def echoHandler : List LogEntry → HandlerEvent → Option HandlerOutput
  | [], .go =>
      let line := echoReceived js payload
      some (.log line.level line.message)
  | [_], .random number =>
      if number < 2000 then
        let line := echoSleeping number
        some (.log line.level line.message)
      else none
  | [_, _], .slept => some (.log echoComplete.level echoComplete.message)
  | [_, _, _], .go => some .resolved
  | _, _ => none

/-- `payload.to` and `payload.subject` of a payload that `isSendEmailPayload`
accepts. -/
def sendEmailPayload? : Option (String × String) :=
  (payload.string? "to").bind fun recipient =>
    (payload.string? "subject").map fun subject => (recipient, subject)

def sendEmailIntent (recipient subject : String) : LogEntry :=
  let body := payload.field? "body"
  ⟨"info", "Would send email to \"" ++ recipient ++ "\" \uFFFD Subject: \"" ++
    subject ++ "\"" ++
      if body.any Json.truthy then
        " \uFFFD Body length: " ++
          ((body.map (Json.lengthText js)).getD "") ++ " chars"
      else ""⟩

def sendEmailCompleted (recipient : String) : LogEntry :=
  ⟨"info", "Email stub completed for recipient: " ++ recipient⟩

/-- The message of the error for a payload that is not accepted. -/
def sendEmailRefusal : String :=
  "send_email handler requires payload.to and payload.subject, got: " ++
    js.stringify payload

def sendEmailHandler (lines : List LogEntry) (event : HandlerEvent) :
    Option HandlerOutput :=
  match sendEmailPayload? payload, lines, event with
  | none, [], .go => some (.rejected (sendEmailRefusal js payload))
  | some (recipient, subject), [], .go =>
      let line := sendEmailIntent js payload recipient subject
      some (.log line.level line.message)
  | some (recipient, _), [_], .slept =>
      let line := sendEmailCompleted recipient
      some (.log line.level line.message)
  | some _, [_, _], .go => some .resolved
  | _, _, _ => none

/-- `payload.url` of a payload that `isHttpRequestPayload` accepts. -/
def httpRequestPayload? : Option String := payload.string? "url"

def httpRequestMaking (url : String) : LogEntry :=
  ⟨"info", "Making GET request to " ++ url⟩

def httpRequestAnswered (url : String) (status : Nat) (statusText : String)
    (contentLength : Option String) : LogEntry :=
  ⟨if 200 ≤ status ∧ status ≤ 299 then "info" else "warn",
    s!"GET {url} ? {status} {statusText}" ++
      if truthy contentLength then
        " (Content-Length: " ++ contentLength.getD "" ++ ")"
      else ""⟩

def httpRequestFailed (url message : String) : LogEntry :=
  ⟨"error", s!"GET {url} failed: {message}"⟩

def httpRequestRefusal : String :=
  "http_request handler requires payload.url (string), got: " ++
    js.stringify payload

/-- The response is awaited, then its body; either may fail, be it because the
timer has aborted the request, and then the error is logged and thrown
again. -/
def httpRequestHandler (lines : List LogEntry) (event : HandlerEvent) :
    Option HandlerOutput :=
  match httpRequestPayload? payload, lines.getLast?, event with
  | none, none, .go => some (.rejected (httpRequestRefusal js payload))
  | some url, none, .go =>
      let line := httpRequestMaking url
      some (.log line.level line.message)
  | some url, some last, .failed message =>
      let line := httpRequestFailed url message
      if last.level ≠ "error" then some (.log line.level line.message)
      else if last.message = line.message then some (.rejected message)
      else none
  | some url, some _, .response status statusText contentLength =>
      if lines.length = 1 then
        let line := httpRequestAnswered url status statusText contentLength
        some (.log line.level line.message)
      else none
  | some _, some last, .go =>
      if lines.length = 2 ∧ last.level ≠ "error" then some .resolved
      else none
  | _, _, _ => none

/-- The function in the registry.  Its lines so far tell how far it has
come. -/
def Handler.run :
    Handler → List LogEntry → HandlerEvent → Option HandlerOutput
  | .echo => echoHandler js payload
  | .sendEmail => sendEmailHandler js payload
  | .httpRequest => httpRequestHandler js payload

/-! ## What a handler leaves behind -/

/-- The handler can have written these lines. -/
inductive Handler.Wrote (handler : Handler) : List LogEntry → Prop where
  | nothing : Handler.Wrote handler []
  | line {lines : List LogEntry} {event : HandlerEvent}
      {level message : String} :
      Handler.Wrote handler lines →
      handler.run js payload lines event = some (.log level message) →
      Handler.Wrote handler (lines ++ [⟨level, message⟩])

/-- The lines of a handler that has resolved. -/
inductive Handler.Completes : Handler → List LogEntry → Prop where
  | echo {random : Nat} :
      random < 2000 →
      Handler.Completes .echo
        [echoReceived js payload, echoSleeping random, echoComplete]
  | sendEmail {recipient subject : String} :
      sendEmailPayload? payload = some (recipient, subject) →
      Handler.Completes .sendEmail
        [sendEmailIntent js payload recipient subject,
          sendEmailCompleted recipient]
  | httpRequest {url statusText : String} {status : Nat}
      {contentLength : Option String} :
      httpRequestPayload? payload = some url →
      Handler.Completes .httpRequest
        [httpRequestMaking url,
          httpRequestAnswered url status statusText contentLength]

/-- The error for a payload that the handler does not accept. -/
def Handler.refusal? : Handler → Option String
  | .echo => none
  | .sendEmail =>
      if (sendEmailPayload? payload).isNone then
        some (sendEmailRefusal js payload)
      else none
  | .httpRequest =>
      if (httpRequestPayload? payload).isNone then
        some (httpRequestRefusal js payload)
      else none

/-- The line about the response, if there has been one. -/
inductive HttpAnswer (url : String) : List LogEntry → Prop where
  | awaited : HttpAnswer url []
  | received {status : Nat} {statusText : String}
      {contentLength : Option String} :
      HttpAnswer url [httpRequestAnswered url status statusText contentLength]

/-- The lines and the error of a failed attempt: the handler has refused the
payload, the request has failed, or it is the success transaction that has. -/
inductive Handler.Fails : Handler → List LogEntry → String → Prop where
  | refused {handler : Handler} {message : String} :
      handler.refusal? js payload = some message →
      Handler.Fails handler [] message
  | request {url message : String} {answer : List LogEntry} :
      httpRequestPayload? payload = some url →
      HttpAnswer url answer →
      Handler.Fails .httpRequest
        (httpRequestMaking url :: answer ++ [httpRequestFailed url message])
        message
  | unrecorded {handler : Handler} {lines : List LogEntry} {message : String} :
      Handler.Completes js payload handler lines →
      Handler.Fails handler lines message

end Handlers

/-! ## Single handlers -/

section Single

variable {js : JavaScript} {payload : Json} {handler : Handler}
  {lines : List LogEntry} {event : HandlerEvent} {output : HandlerOutput}
  {message : String}

theorem sendEmail_refused (missing : sendEmailPayload? payload = none) :
    Handler.refusal? js payload .sendEmail =
      some (sendEmailRefusal js payload) := by
  simp [Handler.refusal?, missing]

theorem httpRequest_refused (missing : httpRequestPayload? payload = none) :
    Handler.refusal? js payload .httpRequest =
      some (httpRequestRefusal js payload) := by
  simp [Handler.refusal?, missing]

theorem Handler.run_of_refused
    (refused : handler.refusal? js payload = some message)
    (ran : handler.run js payload lines event = some output) :
    lines = [] ∧ output = .rejected message := by
  cases handler with
  | echo => cases refused
  | sendEmail =>
      simp only [Handler.refusal?, Option.isNone_iff_eq_none] at refused
      split at refused
      · rename_i missing
        cases refused
        cases lines with
        | nil =>
            cases event with
            | go =>
                simp only [Handler.run, sendEmailHandler, missing] at ran
                cases ran
                exact ⟨rfl, rfl⟩
            | _ => simp [Handler.run, sendEmailHandler, missing] at ran
        | cons first rest =>
            simp [Handler.run, sendEmailHandler, missing] at ran
      · cases refused
  | httpRequest =>
      simp only [Handler.refusal?, Option.isNone_iff_eq_none] at refused
      split at refused
      · rename_i missing
        cases refused
        cases last : lines.getLast? with
        | none =>
            cases event with
            | go =>
                simp only [Handler.run, httpRequestHandler, missing, last]
                  at ran
                cases ran
                exact ⟨List.getLast?_eq_none_iff.mp last, rfl⟩
            | _ =>
                simp [Handler.run, httpRequestHandler, missing, last] at ran
        | some line =>
            cases event <;>
              simp [Handler.run, httpRequestHandler, missing, last] at ran
      · cases refused

theorem Handler.Completes.accepted
    (completes : handler.Completes js payload lines) :
    handler.refusal? js payload = none := by
  cases completes with
  | echo => rfl
  | sendEmail accepted => simp [Handler.refusal?, accepted]
  | httpRequest accepted => simp [Handler.refusal?, accepted]

theorem Handler.Wrote.echo_lines
    (wrote : Handler.Wrote js payload .echo lines) :
    lines = [] ∨ lines = [echoReceived js payload] ∨
      ∃ random < 2000,
        lines = [echoReceived js payload, echoSleeping random] ∨
        lines =
          [echoReceived js payload, echoSleeping random, echoComplete] := by
  induction wrote with
  | nothing => exact .inl rfl
  | @line _ event _ _ _ ran ih =>
      rcases ih with rfl | rfl | ⟨random, below, rfl | rfl⟩
      · cases event <;> cases ran
        exact .inr (.inl rfl)
      · cases event with
        | random number =>
            simp only [Handler.run, echoHandler] at ran
            split at ran
            · cases ran
              exact .inr (.inr ⟨number, ‹_›, .inl rfl⟩)
            · cases ran
        | _ => cases ran
      · cases event <;> cases ran
        exact .inr (.inr ⟨random, below, .inr rfl⟩)
      · cases event <;> cases ran

theorem Handler.Wrote.sendEmail_lines {recipient subject : String}
    (accepted : sendEmailPayload? payload = some (recipient, subject))
    (wrote : Handler.Wrote js payload .sendEmail lines) :
    lines = [] ∨ lines = [sendEmailIntent js payload recipient subject] ∨
      lines =
        [sendEmailIntent js payload recipient subject,
          sendEmailCompleted recipient] := by
  induction wrote with
  | nothing => exact .inl rfl
  | @line _ event _ _ _ ran ih =>
      simp only [Handler.run, sendEmailHandler, accepted] at ran
      rcases ih with rfl | rfl | rfl
      · cases event <;> cases ran
        exact .inr (.inl rfl)
      · cases event <;> cases ran
        exact .inr (.inr rfl)
      · cases event <;> cases ran

theorem httpRequestAnswered_level (url : String) (status : Nat)
    (statusText : String) (contentLength : Option String) :
    (httpRequestAnswered url status statusText contentLength).level ≠
      "error" := by
  unfold httpRequestAnswered
  dsimp only
  split <;> decide

/-- The lines of `http_request` on a payload that it accepts: after an error it
logs no more. -/
theorem Handler.Wrote.httpRequest_lines {url : String}
    (accepted : httpRequestPayload? payload = some url)
    (wrote : Handler.Wrote js payload .httpRequest lines) :
    lines = [] ∨ ∃ answer, HttpAnswer url answer ∧
      (lines = httpRequestMaking url :: answer ∨
        ∃ message, lines =
          httpRequestMaking url :: answer ++
            [httpRequestFailed url message]) := by
  induction wrote with
  | nothing => exact .inl rfl
  | @line _ event _ _ _ ran ih =>
      right
      simp only [Handler.run, httpRequestHandler, accepted] at ran
      rcases ih with rfl | ⟨answer, answers, rfl | ⟨message, rfl⟩⟩
      · cases event <;> cases ran
        exact ⟨[], .awaited, .inl rfl⟩
      · cases answers with
        | awaited =>
            cases event with
            | response =>
                cases ran
                exact ⟨_, .received, .inl rfl⟩
            | failed message =>
                cases ran
                exact ⟨_, .awaited, .inr ⟨message, rfl⟩⟩
            | _ => cases ran
        | received =>
            simp only [List.getLast?_cons_cons, List.getLast?_singleton] at ran
            cases event with
            | failed message =>
                simp only [ne_eq, httpRequestAnswered_level, not_false_eq_true,
                  if_true] at ran
                cases ran
                exact ⟨_, .received, .inr ⟨message, rfl⟩⟩
            | go =>
                dsimp only at ran
                split at ran <;> cases ran
            | _ => cases ran
      · simp only [List.getLast?_concat] at ran
        cases event with
        | failed => simp [httpRequestFailed] at ran
        | response => simp at ran
        | go => simp [httpRequestFailed] at ran
        | _ => cases ran

theorem Handler.Wrote.completes (wrote : handler.Wrote js payload lines)
    (ran : handler.run js payload lines event = some .resolved) :
    handler.Completes js payload lines := by
  cases handler with
  | echo =>
      rcases wrote.echo_lines with rfl | rfl | ⟨random, below, rfl | rfl⟩
      · cases event <;> cases ran
      · cases event with
        | random number =>
            simp only [Handler.run, echoHandler] at ran
            split at ran <;> cases ran
        | _ => cases ran
      · cases event <;> cases ran
      · exact .echo below
  | sendEmail =>
      cases accepted : sendEmailPayload? payload with
      | none =>
          cases (Handler.run_of_refused (sendEmail_refused accepted) ran).2
      | some fields =>
          obtain ⟨recipient, subject⟩ := fields
          rcases wrote.sendEmail_lines accepted with rfl | rfl | rfl
          · simp only [Handler.run, sendEmailHandler, accepted] at ran
            cases event <;> cases ran
          · simp only [Handler.run, sendEmailHandler, accepted] at ran
            cases event <;> cases ran
          · exact .sendEmail accepted
  | httpRequest =>
      cases accepted : httpRequestPayload? payload with
      | none =>
          cases (Handler.run_of_refused (httpRequest_refused accepted) ran).2
      | some url =>
          have shape := wrote.httpRequest_lines accepted
          simp only [Handler.run, httpRequestHandler, accepted] at ran
          rcases shape with rfl | ⟨answer, answers, rfl | ⟨logged, rfl⟩⟩
          · cases event <;> cases ran
          · cases answers with
            | awaited => cases event <;> cases ran
            | received => exact .httpRequest accepted
          · simp only [List.getLast?_concat] at ran
            cases event <;> simp [httpRequestFailed] at ran

/-- A handler rejects a payload that it does not accept, or with the error
that it has logged. -/
theorem Handler.Wrote.fails (wrote : handler.Wrote js payload lines)
    (ran : handler.run js payload lines event = some (.rejected message)) :
    handler.Fails js payload lines message := by
  cases handler with
  | echo =>
      rcases wrote.echo_lines with rfl | rfl | ⟨random, below, rfl | rfl⟩
      · cases event <;> cases ran
      · cases event with
        | random number =>
            simp only [Handler.run, echoHandler] at ran
            split at ran <;> cases ran
        | _ => cases ran
      · cases event <;> cases ran
      · cases event <;> cases ran
  | sendEmail =>
      cases accepted : sendEmailPayload? payload with
      | none =>
          have refused : Handler.refusal? js payload .sendEmail = _ :=
            sendEmail_refused accepted
          obtain ⟨rfl, same⟩ := Handler.run_of_refused refused ran
          cases same
          exact .refused refused
      | some fields =>
          obtain ⟨recipient, subject⟩ := fields
          have shape := wrote.sendEmail_lines accepted
          simp only [Handler.run, sendEmailHandler, accepted] at ran
          rcases shape with rfl | rfl | rfl <;> cases event <;> cases ran
  | httpRequest =>
      cases accepted : httpRequestPayload? payload with
      | none =>
          have refused : Handler.refusal? js payload .httpRequest = _ :=
            httpRequest_refused accepted
          obtain ⟨rfl, same⟩ := Handler.run_of_refused refused ran
          cases same
          exact .refused refused
      | some url =>
          have shape := wrote.httpRequest_lines accepted
          simp only [Handler.run, httpRequestHandler, accepted] at ran
          rcases shape with rfl | ⟨answer, answers, rfl | ⟨logged, rfl⟩⟩
          · cases event <;> cases ran
          · cases answers with
            | awaited => cases event <;> cases ran
            | received =>
                simp only [List.getLast?_cons_cons,
                  List.getLast?_singleton] at ran
                cases event with
                | failed =>
                    simp [httpRequestAnswered_level] at ran
                | go =>
                    dsimp only at ran
                    split at ran <;> cases ran
                | _ => cases ran
          · simp only [List.getLast?_concat] at ran
            cases event with
            | failed again =>
                have level : (httpRequestFailed url logged).level = "error" :=
                  rfl
                simp only [level, ne_eq, not_true_eq_false, if_false] at ran
                by_cases same : (httpRequestFailed url logged).message =
                    (httpRequestFailed url again).message
                · rw [if_pos same] at ran
                  cases ran
                  have isLine : httpRequestFailed url logged =
                      httpRequestFailed url message :=
                    congrArg (LogEntry.mk "error") same
                  rw [isLine]
                  exact .request accepted answers
                · rw [if_neg same] at ran
                  cases ran
            | _ => simp [httpRequestFailed] at ran

theorem Handler.Fails.of_refused
    (fails : handler.Fails js payload lines message) {refusal : String}
    (refused : handler.refusal? js payload = some refusal) :
    message = refusal ∧ lines = [] := by
  cases fails with
  | refused other =>
      cases other.symm.trans refused
      exact ⟨rfl, rfl⟩
  | request accepted => simp [Handler.refusal?, accepted] at refused
  | unrecorded completes =>
      cases completes.accepted.symm.trans refused

end Single

/-! ## Calls of the registered handlers -/

/-- What an awaited handler tells its call. -/
def ExecInput.output? : ExecInput → Option HandlerOutput
  | .log level message => some (.log level message)
  | .resolved => some .resolved
  | .failed error _ => some (.rejected error)
  | _ => none

/-- If the step is one of a handler of the registry, this handler can take
it. -/
def Scripted (js : JavaScript) (transition : Transition State Action) : Prop :=
  ∀ {call input exec attempt handler},
    transition.action = .exec call input →
    transition.before.calls call = some (.exec exec) →
    exec.phase = .handler attempt →
    handlerProperty attempt.job.type = some (.handler handler) →
    ∃ event, handler.run js attempt.job.payload attempt.logBuffer event =
      input.output?

/-- The buffer of the call is what its handler has written. -/
def ExecPhase.Tells (js : JavaScript) (handler : Handler) : ExecPhase → Prop
  | .handler attempt =>
      handler.Wrote js attempt.job.payload attempt.logBuffer
  | .complete attempt _ =>
      handler.Completes js attempt.job.payload attempt.logBuffer
  | .retry attempt failure _ _ =>
      handler.Fails js attempt.job.payload attempt.logBuffer
        failure.errorMessage
  | .deadLetter attempt failure =>
      handler.Fails js attempt.job.payload attempt.logBuffer
        failure.errorMessage
  | _ => True

/-- What a closed execution and the lines of its handler can say. -/
def Handler.Explains (js : JavaScript) (payload : Json) (handler : Handler)
    (lines : List LogEntry) (error : Option String) : ExecutionStatus → Prop
  | .running => False
  | .completed => handler.Completes js payload lines
  | .failed =>
      ∃ message, error = some message ∧
        handler.Fails js payload lines message

def JobLog.entry (log : JobLog) : LogEntry := ⟨log.level, log.message⟩

/-- The executor's line about the end of an execution. -/
inductive JobExecution.ClosedBy (row : JobExecution) : LogEntry → Prop where
  | completed {durationMs : Int} :
      row.status = .completed → row.durationMs = some durationMs →
      ClosedBy row
        ⟨"info", s!"Job completed successfully in {durationMs}ms"⟩
  | retried {number : Nat} {maxAttempts delayMs : Int} {error : String} :
      row.status = .failed → row.errorMessage = some error →
      ClosedBy row ⟨"error",
        s!"Job failed (attempt {number}/{maxAttempts}): {error}. Retrying in {delayMs}ms"⟩
  | deadLettered {number : Nat} {error : String} :
      row.status = .failed → row.errorMessage = some error →
      ClosedBy row ⟨"error",
        s!"Job moved to dead letter queue after {number} attempts: {error}"⟩

/-- The lines stored for the execution, after the executor's closing line,
are those of the handler of its job. -/
def Told (js : JavaScript) (state : State) (id : ExecutionId)
    (row : JobExecution) : Prop :=
  ∃ job, state.world.jobs.get? row.jobId = some job ∧
    ∀ handler, handlerProperty job.type = some (.handler handler) →
      ∃ closing lines,
        (state.world.logsOf id).map JobLog.entry = closing :: lines ∧
        row.ClosedBy closing ∧
        handler.Explains js job.payload lines row.errorMessage row.status

/-- What a call has read is still what its job asks for, its buffer is what
the handler has written, and so are the lines of an execution that its own
call has closed. -/
structure HandlersTell (js : JavaScript) (id : ExecutionId) (state : State) :
    Prop where
  owners : LogOwners state
  history : HistoryInv state
  read : ∀ {call exec job}, state.calls call = some (.exec exec) →
    exec.phase.job? = some job → ∃ row,
      state.world.jobs.get? exec.jobId = some row ∧ row.asked = job.asked
  tells : ∀ {call exec job handler}, state.calls call = some (.exec exec) →
    exec.phase.job? = some job →
    handlerProperty job.type = some (.handler handler) →
    exec.phase.Tells js handler
  told : ∀ {row}, state.world.executions.get? id = some row →
    row.durationMs.isSome = true → Told js state id row

section Steps

variable {js : JavaScript} {env : Env} {state next : State} {action : Action}
  {id : ExecutionId} {handler : Handler}

theorem handleFailure_tells (world : World) {attempt : Attempt}
    {error : String} (random : Draw)
    (fails : handler.Fails js attempt.job.payload attempt.logBuffer error) :
    (handleFailure world attempt error random).Tells js handler := by
  unfold handleFailure
  dsimp only
  split
  · exact fails
  · exact fails

theorem ExecStep.tells {world after : World} {exec exec' : ExecCall}
    {input : ExecInput} {job : Job}
    (case : ExecStep world exec input after (some exec'))
    (read : exec'.phase.job? = some job)
    (tells : exec.phase.job? = some job → exec.phase.Tells js handler)
    (scripted : ∀ attempt, exec.phase = .handler attempt →
      attempt.job = job → ∃ event,
        handler.run js attempt.job.payload attempt.logBuffer event =
          input.output?) :
    exec'.phase.Tells js handler := by
  cases case with
  | created => exact .nothing
  | @logged attempt level message phase =>
      cases read
      obtain ⟨event, ran⟩ := scripted attempt phase rfl
      rw [phase] at tells
      exact Handler.Wrote.line (tells rfl) ran
  | @resolved attempt phase =>
      cases read
      obtain ⟨event, ran⟩ := scripted attempt phase rfl
      rw [phase] at tells
      exact Handler.Wrote.completes (tells rfl) ran
  | @rejected attempt error random phase =>
      dsimp only at read
      rw [handleFailure_job?] at read
      cases read
      apply handleFailure_tells
      rcases phase with phase | ⟨durationMs, phase⟩
      · obtain ⟨event, ran⟩ := scripted attempt phase rfl
        rw [phase] at tells
        exact Handler.Wrote.fails (tells rfl) ran
      · rw [phase] at tells
        exact .unrecorded (tells rfl)
  | _ => trivial

theorem ExecPhase.Tells.explains {phase : ExecPhase} {attempt : Attempt}
    {status : ExecutionStatus} {durationMs : Int} {error : Option String}
    (tells : phase.Tells js handler)
    (closes : phase.closes = some (attempt, status, durationMs, error))
    (earlier : Option String) :
    handler.Explains js attempt.job.payload attempt.logBuffer
      (error.or earlier) status := by
  cases phase <;> cases closes
  · exact tells
  · exact ⟨_, rfl, tells⟩
  · exact ⟨_, rfl, tells⟩

theorem ExecPhase.closedBy {phase : ExecPhase} {attempt : Attempt}
    {status : ExecutionStatus} {durationMs : Int} {error : Option String}
    (closes : phase.closes = some (attempt, status, durationMs, error))
    {closing : LogEntry} (line : phase.closingLine = some closing)
    (row : JobExecution) (now : Time) :
    (row.finish status now durationMs error).ClosedBy closing := by
  cases phase <;> cases closes <;> cases line
  · exact .completed rfl rfl
  · exact .retried rfl rfl
  · exact .deadLettered rfl rfl

theorem Handler.Explains.of_refused {payload : Json} {lines : List LogEntry}
    {error : Option String} {status : ExecutionStatus} {refusal : String}
    (explains : handler.Explains js payload lines error status)
    (refused : handler.refusal? js payload = some refusal) :
    status = .failed ∧ error = some refusal ∧ lines = [] := by
  cases status with
  | running => cases explains
  | completed => cases explains.accepted.symm.trans refused
  | failed =>
      obtain ⟨message, rfl, fails⟩ := explains
      obtain ⟨rfl, silent⟩ := fails.of_refused refused
      exact ⟨rfl, rfl, silent⟩

theorem ExecPhase.job?_of_attempt? {phase : ExecPhase} {attempt : Attempt}
    (current : phase.attempt? = some attempt) :
    phase.job? = some attempt.job := by
  cases phase <;> cases current <;> rfl

theorem step_asked (taken : step env state action = some next) {job : JobId}
    {row : Job} (found : state.world.jobs.get? job = some row) :
    ∃ row', next.world.jobs.get? job = some row' ∧
      row'.asked = row.asked := by
  obtain ⟨row', found', same | write⟩ := step_job taken found
  · exact ⟨row', found', by rw [same]⟩
  · exact ⟨row', found', write.asked.1⟩

/-- Nobody adds a line to an execution that has some. -/
theorem LogOwners.step_logsOf (owners : LogOwners state)
    (taken : Chronos.step env state action = some next)
    (stored : state.world.logsOf id ≠ []) :
    next.world.logsOf id = state.world.logsOf id := by
  obtain ⟨new, added, written⟩ := step_newLogs taken
  have others : (new.filter fun log => log.executionId = id) = [] := by
    apply List.filter_eq_nil_iff.mpr
    intro log member same
    obtain ⟨call, exec, attempt, outcome, -, called, closes, owner⟩ :=
      written log member
    have works := attempts_of_closes called closes
    rw [owner, of_decide_eq_true same] at works
    exact stored (owners.silent works)
  unfold World.logsOf
  rw [added, List.filter_append, others, List.append_nil]

theorem Told.step {row : JobExecution} (told : Told js state id row)
    (owners : LogOwners state)
    (taken : Chronos.step env state action = some next) :
    Told js next id row := by
  obtain ⟨job, found, lines⟩ := told
  obtain ⟨job', found', same⟩ := step_asked taken found
  refine ⟨job', found', ?_⟩
  intro handler registered
  have type : job'.type = job.type := congrArg Asked.type same
  have payload : job'.payload = job.payload := congrArg Asked.payload same
  rw [type] at registered
  obtain ⟨closing, lines, stored, closedBy, explains⟩ :=
    lines handler registered
  refine ⟨closing, lines, ?_, closedBy, by rwa [payload]⟩
  rw [owners.step_logsOf taken, stored]
  intro none
  rw [none] at stored
  cases stored

theorem HandlersTell.told_of_closed (inv : HandlersTell js id state)
    {call : CallId} {exec : ExecCall} {attempt : Attempt}
    {status : ExecutionStatus} {durationMs : Int} {error : Option String}
    (taken : Chronos.step env state (.exec call .ok) = some next)
    (called : state.calls call = some (.exec exec))
    (closes : exec.phase.closes = some (attempt, status, durationMs, error))
    (own : attempt.execution = id) {row : JobExecution}
    (found : state.world.executions.get? id = some row) :
    Told js next id
      (row.finish status state.world.now durationMs error) := by
  subst own
  have current := (ExecPhase.attempt?_of_closes closes).1
  have read := ExecPhase.job?_of_attempt? current
  obtain ⟨stored, storedFound, sameJob⟩ := inv.owners.rows called current
  cases storedFound.symm.trans found
  obtain ⟨job, present, asked⟩ := inv.read called read
  obtain ⟨job', present', kept⟩ := step_asked taken present
  have same := kept.trans asked
  have type : job'.type = attempt.job.type := congrArg Asked.type same
  have payload : job'.payload = attempt.job.payload :=
    congrArg Asked.payload same
  refine ⟨job', by rwa [← sameJob] at present', ?_⟩
  intro handler registered
  rw [type] at registered
  obtain ⟨-, closing, line, written⟩ := step_committed taken called closes
  have silent := inv.owners.silent (attempts_of_closes called closes)
  refine ⟨closing, attempt.logBuffer, ?_, ExecPhase.closedBy closes line _ _,
    ?_⟩
  · have all : ((state.world.closingLines attempt closing).filter fun log =>
        log.executionId = attempt.execution) =
          state.world.closingLines attempt closing := by
      apply List.filter_eq_self.mpr
      intro log member
      obtain ⟨entry, _, rfl⟩ := List.mem_map.mp member
      exact decide_eq_true rfl
    unfold World.logsOf at silent ⊢
    rw [written, List.filter_append, silent, List.nil_append, all]
    exact (List.map_map ..).trans (List.map_id _)
  · rw [payload]
    exact (inv.tells called read registered).explains closes _

theorem HandlersTell.step (inv : HandlersTell js id state)
    (taken : Chronos.step env state action = some next)
    (scripted : Scripted js ⟨state, action, next⟩) :
    HandlersTell js id next where
  owners := inv.owners.step taken
  history := inv.history.step taken
  read := by
    intro call exec job called read
    have earlier : ∃ row, state.world.jobs.get? exec.jobId = some row ∧
        row.asked = job.asked := by
      rcases step_exec_call taken called with
        old | unread | ⟨before, input, world, old, case, -⟩
      · exact inv.read old read
      · rw [unread] at read
        cases read
      · rw [case.same_job]
        rcases case.job? read with earlier | fresh
        · exact inv.read old earlier
        · exact ⟨job, fresh, rfl⟩
    obtain ⟨row, found, asked⟩ := earlier
    obtain ⟨row', found', same⟩ := step_asked taken found
    exact ⟨row', found', same.trans asked⟩
  tells := by
    intro call exec job handler called read registered
    rcases step_exec_call taken called with
      old | unread | ⟨before, input, world, old, case, rfl⟩
    · exact inv.tells old read registered
    · rw [unread] at read
      cases read
    · apply case.tells read
      · intro earlier
        exact inv.tells old earlier registered
      · rintro attempt phase rfl
        exact scripted rfl old phase registered
  told := by
    intro row found measured
    have write := step_rowWrite taken id
    rw [found] at write
    generalize action.executionEvent state id = event at write
    generalize after : some row = result at write
    cases write with
    | kept => exact (inv.told after.symm measured).step inv.owners taken
    | created =>
        cases after
        cases measured
    | @closed call exec attempt status durationMs error called closes own =>
        obtain ⟨before, stored, same⟩ :=
          Option.map_eq_some_iff.mp after.symm
        subst same
        exact inv.told_of_closed taken called closes own stored
    | reaped stored running =>
        cases after
        have unmeasured := ((inv.history.sound stored).running running).1
        rw [unmeasured] at measured
        cases measured

end Steps

/-! ## What the rows tell -/

section Runs

variable {js : JavaScript} {env : Env} {first last : State}
  {trace : List (Transition State Action)} {id : ExecutionId}
  {row : JobExecution} {job : Job} {handler : Handler}

theorem handlersTell_of_initial (initial : Initial first)
    (closed : first.world.LogsClosed)
    (sound : ∀ id row, first.world.executions.get? id = some row →
      row.Sound first.world.now)
    (absent : first.world.executions.get? id = none) :
    HandlersTell js id first where
  owners := logOwners_of_initial initial closed
  history := .initial initial sound
  read called := absurd ((initial.calls _).symm.trans called) nofun
  tells called := absurd ((initial.calls _).symm.trans called) nofun
  told found := absurd (absent.symm.trans found) nofun

/-- The lines of an execution that its call has closed are the executor's
closing line and those of the handler of its job: all of them if the execution
is completed.  A handler that refuses the payload fails with its own message
and without a line. -/
theorem handlers_tell (initial : Initial first)
    (closed : first.world.LogsClosed)
    (sound : ∀ id row, first.world.executions.get? id = some row →
      row.Sound first.world.now)
    (run : Run (step env) first trace last)
    (scripted : ∀ transition ∈ trace, Scripted js transition)
    (absent : first.world.executions.get? id = none)
    (found : last.world.executions.get? id = some row)
    (measured : row.durationMs.isSome = true)
    (present : last.world.jobs.get? row.jobId = some job)
    (registered : handlerProperty job.type = some (.handler handler)) :
    ∃ closing lines,
      (last.world.logsOf id).map JobLog.entry = closing :: lines ∧
      row.ClosedBy closing ∧
      handler.Explains js job.payload lines row.errorMessage row.status ∧
      ∀ message, handler.refusal? js job.payload = some message →
        row.status = .failed ∧ row.errorMessage = some message ∧
          lines = [] := by
  have inv : HandlersTell js id last :=
    run.invariant (HandlersTell js id) scripted
      (handlersTell_of_initial initial closed sound absent)
      fun _ scripted taken inv => inv.step taken scripted
  obtain ⟨job', found', lines⟩ := inv.told found measured
  cases found'.symm.trans present
  obtain ⟨closing, lines, stored, closedBy, explains⟩ :=
    lines handler registered
  exact ⟨closing, lines, stored, closedBy, explains,
    fun message refused => explains.of_refused refused⟩

end Runs

/-- As on `null`. -/
def JavaScript.sample : JavaScript where
  stringify _ := "null"
  text _ := "undefined"

/-- The decidable form of `Scripted`, with these events to choose from. -/
def scriptedNow (js : JavaScript) (events : List HandlerEvent)
    (transition : Transition State Action) : Bool :=
  match transition.action with
  | .exec call input =>
      match transition.before.calls call with
      | some (.exec ⟨_, _, .handler attempt⟩) =>
          match handlerProperty attempt.job.type with
          | some (.handler handler) => events.any fun event =>
              handler.run js attempt.job.payload attempt.logBuffer event =
                input.output?
          | _ => true
      | _ => true
  | _ => true

theorem scripted_of_now {js : JavaScript} {events : List HandlerEvent}
    {transition : Transition State Action}
    (now : scriptedNow js events transition = true) :
    Scripted js transition := by
  intro call input exec attempt handler action called phase registered
  obtain ⟨job, worker, _⟩ := exec
  cases phase
  simp only [scriptedNow, action, called, registered, List.any_eq_true] at now
  obtain ⟨event, _, ran⟩ := now
  exact ⟨event, of_decide_eq_true ran⟩

/-- The lines of an `echo` job that sleeps for a second. -/
theorem handlers_tell_echo :
    ∃ trace last row job, Run (step .sample)
        (World.sample 1 ⟨[(7, Job.sample .queued)], by simp⟩).idle trace
        last ∧
      last.world.executions.get? 0 = some row ∧ row.status = .completed ∧
      last.world.jobs.get? 7 = some job ∧
      ∃ closing lines,
        (last.world.logsOf 0).map JobLog.entry = closing :: lines ∧
        Handler.echo.Completes .sample job.payload lines := by
  obtain ⟨trace, last, run, scripted, closed, type⟩ :=
    exists_run_of_check (step .sample)
      (World.sample 1 ⟨[(7, Job.sample .queued)], by simp⟩).idle
      (claimActions 1 1 [7] ++ executeActions 1 2 0 ++
        [echoReceived .sample .null, echoSleeping 0, echoComplete].map
          (fun line => Action.exec 2 (.log line.level line.message)) ++
        ([.exec 2 .resolved, .exec 2 .ok] : List Action))
      (fun trace last =>
        (∀ transition ∈ trace, scriptedNow .sample [.go, .random 0, .slept]
          transition = true) ∧
        (last.world.executions.get? 0).map (fun row =>
          (row.status, row.durationMs.isSome, row.jobId)) =
            some (.completed, true, 7) ∧
        (last.world.jobs.get? 7).map (·.type) = some "echo")
      (by decide)
  obtain ⟨row, found, fields⟩ := Option.map_eq_some_iff.mp closed
  simp only [Prod.mk.injEq] at fields
  obtain ⟨completed, measured, isJob⟩ := fields
  obtain ⟨job, present, isEcho⟩ := Option.map_eq_some_iff.mp type
  have registered : handlerProperty job.type = some (.handler .echo) := by
    rw [isEcho]
    rfl
  have unlogged : (World.sample 1
      ⟨[(7, Job.sample .queued)], by simp⟩).LogsClosed := by
    intro log member
    cases member
  have unexecuted : ∀ id row,
      (World.sample 1
        ⟨[(7, Job.sample .queued)], by simp⟩).executions.get? id = some row →
      row.Sound 0 := by
    intro id row found
    cases found
  obtain ⟨closing, lines, stored, -, explains, -⟩ :=
    handlers_tell (World.idle_initial fun _ => rfl) unlogged unexecuted run
      (fun transition member => scripted_of_now (scripted transition member))
      rfl found measured (by rwa [isJob]) registered
  rw [completed] at explains
  exact ⟨trace, last, row, job, run, found, completed, present, closing,
    lines, stored, explains⟩

end Chronos
