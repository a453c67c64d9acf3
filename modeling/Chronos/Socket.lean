import Chronos.Jobs
import Chronos.Lib.Latest
import Mathlib.Data.Finset.Basic

/-!
# The socket server

`api/src/socket/index.ts`: clients join and leave rooms, and every message of
the channel `job:transitions` is emitted to the rooms it names.  Of socket.io
it is used that `io.to(room).emit` delivers one copy to each member of the
room, and that a socket leaves its rooms when it disconnects.
-/

namespace Chronos

/-- Identifies one connection. -/
abbrev SocketId := String

/-- The ids of queues and projects as the texts that clients send. -/
structure IdTexts where
  queue : QueueId → String
  project : ProjectId → String
  queue_injective : Function.Injective queue
  project_injective : Function.Injective project
  queue_ne_empty : ∀ id, queue id ≠ ""
  project_ne_empty : ∀ id, project id ≠ ""

/-- The argument of a socket event: a string, or any other value, of which
only its text in a template literal matters. -/
inductive SocketArg where
  | text (value : String)
  | other (shown : String)

namespace SocketArg

/-- `${argument}`. -/
def shown : SocketArg → String
  | .text value => value
  | .other shown => shown

end SocketArg

inductive SocketEvent where
  | subscribeQueue (queueId : SocketArg)
  | subscribeProject (projectId : SocketArg)
  | unsubscribeQueue (queueId : SocketArg)
  | unsubscribeProject (projectId : SocketArg)
  | disconnect

/-- Which socket is in which room. -/
abbrev Rooms := Finset (SocketId × String)

def queueRoom (queueId : String) : String := "queue:" ++ queueId

def projectRoom (projectId : String) : String := "project:" ++ projectId

theorem queueRoom_inj {first second : String} :
    queueRoom first = queueRoom second ↔ first = second :=
  String.append_right_inj _

theorem projectRoom_inj {first second : String} :
    projectRoom first = projectRoom second ↔ first = second :=
  String.append_right_inj _

theorem queueRoom_ne_projectRoom (queueId projectId : String) :
    queueRoom queueId ≠ projectRoom projectId := by
  intro same
  have chars := congrArg String.toList same
  simp [queueRoom, projectRoom] at chars

/-- `if (typeof id !== 'string' || !id) return`, then `socket.join(room)` and
the acknowledgement, which names the room. -/
def subscribe (rooms : Rooms) (socket : SocketId) (room : String → String) :
    SocketArg → Rooms × Option String
  | .text id =>
      if id = "" then (rooms, none)
      else (insert (socket, room id) rooms, some (room id))
  | .other _ => (rooms, none)

/-- The handlers of one socket: the rooms afterwards, and the room named in a
`subscribed` acknowledgement. -/
def onSocketEvent (rooms : Rooms) (socket : SocketId) :
    SocketEvent → Rooms × Option String
  | .subscribeQueue queueId => subscribe rooms socket queueRoom queueId
  | .subscribeProject projectId => subscribe rooms socket projectRoom projectId
  | .unsubscribeQueue queueId =>
      (rooms.erase (socket, queueRoom queueId.shown), none)
  | .unsubscribeProject projectId =>
      (rooms.erase (socket, projectRoom projectId.shown), none)
  | .disconnect => (rooms.filter fun entry => entry.1 ≠ socket, none)

/-- The rooms to which the event of a message is emitted, as `job:update`. -/
def dispatch (texts : IdTexts) (message : Message) : List String :=
  let queueId := texts.queue message.queueId
  let projectId := message.projectId.map texts.project
  (if truthy (some queueId) then [queueRoom queueId] else []) ++
    (if truthy projectId then projectId.toList.map projectRoom else [])

/-- How many copies of an event reach a socket. -/
def copies (rooms : Rooms) (emits : List String) (socket : SocketId) : Nat :=
  emits.countP fun room => (socket, room) ∈ rooms

/-! ## Who is in a room -/

/-- The messages of the sockets so far, in the order of their arrival. -/
abbrev SocketLog := List (SocketId × SocketEvent)

def roomsAfter (log : SocketLog) : Rooms :=
  log.foldl (fun rooms entry => (onSocketEvent rooms entry.1 entry.2).1) ∅

/-- A subscription with this argument joins the room. -/
def SocketArg.joins (room : String) (name : String → String) :
    SocketArg → Option Bool
  | .text id => if id ≠ "" ∧ name id = room then some true else none
  | .other _ => none

namespace SocketEvent

/-- What the event asks for about the room of this name: to be in it, not to
be in it, or nothing. -/
def asks (room : String) : SocketEvent → Option Bool
  | .subscribeQueue queueId => queueId.joins room queueRoom
  | .subscribeProject projectId => projectId.joins room projectRoom
  | .unsubscribeQueue queueId =>
      if queueRoom queueId.shown = room then some false else none
  | .unsubscribeProject projectId =>
      if projectRoom projectId.shown = room then some false else none
  | .disconnect => some false

/-- What the event asks for about the queue of this id. -/
def asksQueue (id : String) : SocketEvent → Option Bool
  | .subscribeQueue (.text queueId) =>
      if queueId = id then some true else none
  | .unsubscribeQueue queueId =>
      if queueId.shown = id then some false else none
  | .disconnect => some false
  | _ => none

/-- What the event asks for about the project of this id. -/
def asksProject (id : String) : SocketEvent → Option Bool
  | .subscribeProject (.text projectId) =>
      if projectId = id then some true else none
  | .unsubscribeProject projectId =>
      if projectId.shown = id then some false else none
  | .disconnect => some false
  | _ => none

end SocketEvent

/-- The last word of the socket about the queue was to subscribe. -/
def SubscribedToQueue (texts : IdTexts) (log : SocketLog) (socket : SocketId)
    (queue : QueueId) : Prop :=
  latest (fun entry => if entry.1 = socket then
    entry.2.asksQueue (texts.queue queue) else none) log = some true

/-- The last word of the socket about the project was to subscribe. -/
def SubscribedToProject (texts : IdTexts) (log : SocketLog) (socket : SocketId)
    (project : ProjectId) : Prop :=
  latest (fun entry => if entry.1 = socket then
    entry.2.asksProject (texts.project project) else none) log = some true

instance (texts : IdTexts) (log : SocketLog) (socket : SocketId)
    (queue : QueueId) : Decidable (SubscribedToQueue texts log socket queue) :=
  inferInstanceAs (Decidable (_ = some true))

instance (texts : IdTexts) (log : SocketLog) (socket : SocketId)
    (project : ProjectId) :
    Decidable (SubscribedToProject texts log socket project) :=
  inferInstanceAs (Decidable (_ = some true))

section Rooms

variable {rooms : Rooms} {socket member : SocketId} {room : String}

theorem mem_subscribe {name : String → String} {argument : SocketArg} :
    (member, room) ∈ (subscribe rooms socket name argument).1 ↔
      (socket = member ∧ argument.joins room name = some true) ∨
        (member, room) ∈ rooms := by
  cases argument with
  | other shown => simp [subscribe, SocketArg.joins]
  | text id =>
      by_cases empty : id = ""
      · simp [subscribe, SocketArg.joins, empty]
      · simp [subscribe, SocketArg.joins, empty, eq_comm]

theorem SocketArg.joins_cases (argument : SocketArg) (room : String)
    (name : String → String) :
    argument.joins room name = some true ∨
      argument.joins room name = none := by
  cases argument with
  | other shown => exact .inr rfl
  | text id =>
      rw [SocketArg.joins]
      split
      · exact .inl rfl
      · exact .inr rfl

theorem mem_onSocketEvent (event : SocketEvent) :
    decide ((member, room) ∈ (onSocketEvent rooms socket event).1) =
      (if socket = member then event.asks room else none).getD
        (decide ((member, room) ∈ rooms)) := by
  have joined : ∀ {name : String → String} {argument : SocketArg},
      decide ((member, room) ∈ (subscribe rooms socket name argument).1) =
        (if socket = member then argument.joins room name else none).getD
          (decide ((member, room) ∈ rooms)) := by
    intro name argument
    simp only [mem_subscribe]
    rcases argument.joins_cases room name with joins | joins
    · by_cases same : socket = member <;> simp [joins, same]
    · simp [joins]
  have left : ∀ {name : String},
      decide ((member, room) ∈ rooms.erase (socket, name)) =
        (if socket = member then if name = room then some false else none
          else none).getD (decide ((member, room) ∈ rooms)) := by
    intro name
    by_cases same : socket = member
    · by_cases asked : name = room
      · simp [same, asked]
      · simp [same, asked, Ne.symm asked]
    · simp [same, Ne.symm same]
  cases event with
  | subscribeQueue argument => exact joined
  | subscribeProject argument => exact joined
  | unsubscribeQueue argument => exact left
  | unsubscribeProject argument => exact left
  | disconnect =>
      by_cases same : socket = member
      · simp [onSocketEvent, SocketEvent.asks, same]
      · simp [onSocketEvent, same, Ne.symm same]

/-- A socket is in a room if its last word about the room was to join it. -/
theorem mem_roomsAfter (log : SocketLog) :
    (member, room) ∈ roomsAfter log ↔
      latest (fun entry => if entry.1 = member then entry.2.asks room else none)
        log = some true := by
  have shown := shown_foldl
    (fun rooms entry => (onSocketEvent rooms entry.1 entry.2).1)
    (fun rooms => decide ((member, room) ∈ rooms))
    (fun rooms entry => mem_onSocketEvent entry.2) log ∅
  have isMember : ((member, room) ∈ roomsAfter log) ↔
      decide ((member, room) ∈ roomsAfter log) = true := by simp
  rw [isMember, roomsAfter, shown]
  cases latest (fun entry : SocketId × SocketEvent =>
      if entry.1 = member then entry.2.asks room else none) log with
  | none => simp
  | some asked => simp

end Rooms

section Subscriptions

variable {texts : IdTexts} {log : SocketLog} {socket : SocketId}

theorem mem_queueRoom {queue : QueueId} :
    (socket, queueRoom (texts.queue queue)) ∈ roomsAfter log ↔
      SubscribedToQueue texts log socket queue := by
  have same : ∀ event : SocketEvent,
      event.asks (queueRoom (texts.queue queue)) =
        event.asksQueue (texts.queue queue) := by
    intro event
    have notEmpty := texts.queue_ne_empty queue
    have notProject : ∀ id, projectRoom id ≠ queueRoom (texts.queue queue) :=
      fun id => Ne.symm (queueRoom_ne_projectRoom _ id)
    cases event with
    | subscribeQueue argument =>
        cases argument with
        | other shown => rfl
        | text id =>
            by_cases this : id = texts.queue queue
            · simp [SocketEvent.asks, SocketEvent.asksQueue, SocketArg.joins,
                this, notEmpty]
            · simp [SocketEvent.asks, SocketEvent.asksQueue, SocketArg.joins,
                queueRoom_inj, this]
    | subscribeProject argument =>
        cases argument <;>
          simp [SocketEvent.asks, SocketEvent.asksQueue, SocketArg.joins,
            notProject]
    | unsubscribeQueue argument =>
        simp [SocketEvent.asks, SocketEvent.asksQueue, queueRoom_inj]
    | unsubscribeProject argument =>
        simp [SocketEvent.asks, SocketEvent.asksQueue, notProject]
    | disconnect => rfl
  rw [mem_roomsAfter, SubscribedToQueue]
  simp only [same]

theorem mem_projectRoom {project : ProjectId} :
    (socket, projectRoom (texts.project project)) ∈ roomsAfter log ↔
      SubscribedToProject texts log socket project := by
  have same : ∀ event : SocketEvent,
      event.asks (projectRoom (texts.project project)) =
        event.asksProject (texts.project project) := by
    intro event
    have notEmpty := texts.project_ne_empty project
    have notQueue : ∀ id, queueRoom id ≠ projectRoom (texts.project project) :=
      fun id => queueRoom_ne_projectRoom id _
    cases event with
    | subscribeQueue argument =>
        cases argument <;>
          simp [SocketEvent.asks, SocketEvent.asksProject, SocketArg.joins,
            notQueue]
    | subscribeProject argument =>
        cases argument with
        | other shown => rfl
        | text id =>
            by_cases this : id = texts.project project
            · simp [SocketEvent.asks, SocketEvent.asksProject, SocketArg.joins,
                this, notEmpty]
            · simp [SocketEvent.asks, SocketEvent.asksProject, SocketArg.joins,
                projectRoom_inj, this]
    | unsubscribeQueue argument =>
        simp [SocketEvent.asks, SocketEvent.asksProject, notQueue]
    | unsubscribeProject argument =>
        simp [SocketEvent.asks, SocketEvent.asksProject, projectRoom_inj]
    | disconnect => rfl
  rw [mem_roomsAfter, SubscribedToProject]
  simp only [same]

theorem truthy_of_ne_empty {text : String} (notEmpty : text ≠ "") :
    truthy (some text) = true := by
  simp [truthy, notEmpty]

/-- A message reaches the subscribers of its queue once, and those of its
project, if it names one, once more. -/
theorem copies_dispatch (message : Message) :
    copies (roomsAfter log) (dispatch texts message) socket =
      (if SubscribedToQueue texts log socket message.queueId then 1 else 0) +
        (if ∃ project ∈ message.projectId,
            SubscribedToProject texts log socket project then 1 else 0) := by
  have queueId := truthy_of_ne_empty (texts.queue_ne_empty message.queueId)
  rw [copies, dispatch, if_pos queueId, List.countP_append]
  congr 1
  · simp only [List.countP_singleton, decide_eq_true_eq, mem_queueRoom]
  · cases message.projectId with
    | none => simp [truthy]
    | some project =>
        have projectId :=
          truthy_of_ne_empty (texts.project_ne_empty project)
        simp only [Option.map_some, projectId, if_true, Option.toList_some,
          List.map_cons, List.map_nil, List.countP_singleton,
          decide_eq_true_eq, mem_projectRoom, Option.mem_some_iff,
          exists_eq_left']

end Subscriptions

end Chronos
