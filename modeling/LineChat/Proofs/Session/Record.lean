import LineChat.Event
import LineChat.Proofs.Room.Numbers

set_option autoImplicit false

/-! # What events say about a session

The events of a session are its record. From it can be read off which operations on the room it has
carried out, what has gone wrong in its key task, which lines it has shown, and which lines it had to
show of its own accord. -/

namespace LineChat

/-! ## Views of the record -/

/-- What happened in the room, if that is where it happened. -/
def Event.room? : Event → Option Room.Event
  | .room event => some event
  | _ => none

/-- The operation that this is the first event of. -/
def Room.Event.op? : Room.Event → Option Room.Op
  | .joined claimed _ _ => some (.join claimed)
  | .left id _ _ | .alreadyGone id => some (.leave id)
  | .said id fallback text _ => some (.say id fallback text)
  | .delivered .. | .refused .. => none

/-- The line that was said. -/
def Room.Event.saidLine? : Room.Event → Option String
  | .said _ _ _ line => some line
  | .joined .. | .left .. | .alreadyGone _ | .delivered .. | .refused .. => none

/-- The ticket that somebody was handed on joining. -/
def Room.Event.ticket? : Room.Event → Option Ticket
  | .joined _ ticket _ => some ticket
  | .left .. | .alreadyGone _ | .said .. | .delivered .. | .refused .. => none

/-- What has gone wrong in the key task. -/
def Event.fault? : Event → Option SessionFault
  | .readFailed _ fault => some (.read fault)
  | .drawFailed .keys fault => some (.io fault)
  | _ => none

/-- The line by which a session says to its own terminal why it ends. -/
def Event.farewell? : Event → Option String
  | .acknowledged label => some label
  | .readFailed _ fault => some (Line.readError fault.message)
  | _ => none

/-- The line that a task has shown in full. -/
def Event.shownBy? (task : Task) : Event → Option String
  | .drew task' (.line text) => if task' = task then some text else none
  | _ => none

/-- The line that was shown in full, by whichever task. -/
def Event.shown? : Event → Option String
  | .drew _ (.line text) => some text
  | _ => none

/-- What happened in the room. -/
def roomEvents (events : List Event) : List Room.Event :=
  events.filterMap Event.room?

/-- The operations on the room, but for those that concern a queue alone. -/
def operations (events : List Event) : List Room.Op :=
  (roomEvents events).filterMap Room.Event.op?

/-- The tickets that were handed out. -/
def tickets (events : List Event) : List Ticket :=
  (roomEvents events).filterMap Room.Event.ticket?

/-- The lines that came of what was said. -/
def saidLines (events : List Event) : List String :=
  (roomEvents events).filterMap Room.Event.saidLine?

/-- What has gone wrong in the key task, in order. -/
def faults (events : List Event) : List SessionFault :=
  events.filterMap Event.fault?

/-- The lines that say why the session ends. -/
def farewells (events : List Event) : List String :=
  events.filterMap Event.farewell?

/-- The lines that a task has shown in full. -/
def shownBy (task : Task) (events : List Event) : List String :=
  events.filterMap (Event.shownBy? task)

/-- The lines that were shown in full. -/
def shown (events : List Event) : List String :=
  events.filterMap Event.shown?

/-- How many have joined a room in which this has happened. -/
def Room.joinCount (events : List Room.Event) : Nat :=
  (events.filterMap Room.Event.joiner?).length

/-! ## Records in parts -/

section
variable (events events' : List Event)

@[simp] theorem roomEvents_append :
    roomEvents (events ++ events') = roomEvents events ++ roomEvents events' := by
  simp [roomEvents]

@[simp] theorem operations_append :
    operations (events ++ events') = operations events ++ operations events' := by
  simp [operations]

@[simp] theorem tickets_append : tickets (events ++ events') = tickets events ++ tickets events' := by
  simp [tickets]

@[simp] theorem saidLines_append :
    saidLines (events ++ events') = saidLines events ++ saidLines events' := by
  simp [saidLines]

@[simp] theorem faults_append : faults (events ++ events') = faults events ++ faults events' := by
  simp [faults]

@[simp] theorem farewells_append :
    farewells (events ++ events') = farewells events ++ farewells events' := by
  simp [farewells]

@[simp] theorem shownBy_append (task : Task) :
    shownBy task (events ++ events') = shownBy task events ++ shownBy task events' := by
  simp [shownBy]

@[simp] theorem shown_append : shown (events ++ events') = shown events ++ shown events' := by
  simp [shown]

end

@[simp] theorem Room.joinCount_append (events events' : List Room.Event) :
    joinCount (events ++ events') = joinCount events + joinCount events' := by
  simp [joinCount]

/-- The key task could not write where a drawing of its own has failed. -/
theorem drawFailed_of_io_mem {events : List Event} {fault : IoFault}
    (h : .io fault ∈ faults events) : .drawFailed .keys fault ∈ events := by
  obtain ⟨event, hmem, hfault⟩ := List.mem_filterMap.1 h
  cases event with
  | readFailed _ _ => simp [Event.fault?] at hfault
  | drawFailed task cause =>
      cases task with
      | keys =>
          obtain rfl : cause = fault := by simpa [Event.fault?] using hfault
          exact hmem
      | requests | relay => simp [Event.fault?] at hfault
  | _ => simp [Event.fault?] at hfault

/-! ## What the end leaves on record -/

/-- The events with which a session ends. -/
def Ticket.closing (ticket : Ticket) (outcome : Outcome) (fault? : Option IoFault) : List Event :=
  .shutDown :: (fault?.map (.shutdownFailed ticket.id)).toList ++ [.ended ticket.id outcome]

section
variable (ticket : Ticket) (outcome : Outcome) (fault? : Option IoFault)

@[simp] theorem roomEvents_closing : roomEvents (ticket.closing outcome fault?) = [] := by
  cases fault? <;> rfl

@[simp] theorem faults_closing : faults (ticket.closing outcome fault?) = [] := by
  cases fault? <;> rfl

@[simp] theorem farewells_closing : farewells (ticket.closing outcome fault?) = [] := by
  cases fault? <;> rfl

@[simp] theorem shownBy_closing (task : Task) : shownBy task (ticket.closing outcome fault?) = [] := by
  cases fault? <;> rfl

@[simp] theorem shown_closing : shown (ticket.closing outcome fault?) = [] := by
  cases fault? <;> rfl

end

/-! ## What an operation leaves on record -/

section
variable (events : List Room.Event)

/-- Something that does not happen in the room is not among what does. -/
theorem not_mem_map_room {event : Event} (h : ∀ roomEvent, Event.room roomEvent ≠ event) :
    event ∉ events.map .room := by
  intro hmem
  obtain ⟨roomEvent, -, hevent⟩ := List.mem_map.1 hmem
  exact h roomEvent hevent

@[simp] theorem roomEvents_map_room : roomEvents (events.map .room) = events := by
  induction events with
  | nil => rfl
  | cons event events ih => exact congrArg (event :: ·) ih

@[simp] theorem faults_map_room : faults (events.map .room) = [] := by
  simp [faults, Event.fault?]

@[simp] theorem farewells_map_room : farewells (events.map .room) = [] := by
  simp [farewells, Event.farewell?]

@[simp] theorem shownBy_map_room (task : Task) : shownBy task (events.map .room) = [] := by
  simp [shownBy, Event.shownBy?]

end

section
variable (room : Room)

@[simp] theorem operations_join (name : String) :
    operations ((room.join name).events.map .room) = [.join name] := by
  rw [operations, roomEvents_map_room]
  have hrest := @Room.filterMap_deliveries _ Room.Event.op? (fun _ _ => rfl) (fun _ _ => rfl)
  simp [Room.join_events, Room.Event.op?, hrest]

@[simp] theorem operations_leave (id : ParticipantId) :
    operations ((room.leave id).events.map .room) = [.leave id] := by
  rw [operations, roomEvents_map_room]
  have hrest := @Room.filterMap_deliveries _ Room.Event.op? (fun _ _ => rfl) (fun _ _ => rfl)
  cases hmember : room.member? id with
  | none => simp [Room.leave_of_not_member hmember, Room.Event.op?]
  | some member =>
      simp [Room.leave_of_member hmember, Room.Event.op?, hrest]

@[simp] theorem operations_say (id : ParticipantId) (fallback text : String) :
    operations ((room.say id fallback text).events.map .room) = [.say id fallback text] := by
  rw [operations, roomEvents_map_room]
  have hrest := @Room.filterMap_deliveries _ Room.Event.op? (fun _ _ => rfl) (fun _ _ => rfl)
  simp [Room.say_events, Room.Event.op?, hrest]

@[simp] theorem saidLines_join (name : String) :
    saidLines ((room.join name).events.map .room) = [] := by
  rw [saidLines, roomEvents_map_room]
  have hrest := @Room.filterMap_deliveries _ Room.Event.saidLine? (fun _ _ => rfl)
    (fun _ _ => rfl)
  simp [Room.join_events, List.filterMap_cons, Room.Event.saidLine?, hrest]

@[simp] theorem saidLines_leave (id : ParticipantId) :
    saidLines ((room.leave id).events.map .room) = [] := by
  rw [saidLines, roomEvents_map_room]
  have hrest := @Room.filterMap_deliveries _ Room.Event.saidLine? (fun _ _ => rfl)
    (fun _ _ => rfl)
  cases hmember : room.member? id with
  | none =>
      simp [Room.leave_of_not_member hmember, List.filterMap_cons, Room.Event.saidLine?]
  | some member =>
      simp [Room.leave_of_member hmember, List.filterMap_cons, Room.Event.saidLine?, hrest]

@[simp] theorem saidLines_say (id : ParticipantId) (fallback text : String) :
    saidLines ((room.say id fallback text).events.map .room)
      = [(room.say id fallback text).answer] := by
  rw [saidLines, roomEvents_map_room]
  have hrest := @Room.filterMap_deliveries _ Room.Event.saidLine? (fun _ _ => rfl)
    (fun _ _ => rfl)
  simp [Room.say_events, Room.Event.saidLine?, hrest, Room.say_answer]

theorem tickets_join (name : String) :
    (room.join name).events.filterMap Room.Event.ticket? = [(room.join name).answer] := by
  have hrest := @Room.filterMap_deliveries _ Room.Event.ticket? (fun _ _ => rfl) (fun _ _ => rfl)
  simp [Room.join_events, Room.Event.ticket?, hrest, Room.join_answer]

/-- A ticket comes with joining. -/
theorem exists_joined_of_mem_tickets {events : List Event} {ticket : Ticket}
    (h : ticket ∈ tickets events) :
    ∃ claimed online, .joined claimed ticket online ∈ roomEvents events := by
  obtain ⟨event, hevent, hticket⟩ := List.mem_filterMap.1 h
  cases event with
  | joined claimed this online =>
      obtain rfl := Option.some.inj hticket
      exact ⟨claimed, online, hevent⟩
  | left | alreadyGone | said | delivered | refused => cases hticket

/-- Nobody is handed a ticket but by joining. -/
theorem tickets_perform {op : Room.Op} (h : op.joins = 0) :
    (room.perform op).events.filterMap Room.Event.ticket? = [] := by
  have hrest := @Room.filterMap_deliveries _ Room.Event.ticket? (fun _ _ => rfl) (fun _ _ => rfl)
  cases op with
  | join name => exact nomatch h
  | leave id =>
      show (room.leave id).events.filterMap _ = []
      cases hmember : room.member? id with
      | none => simp [Room.leave_of_not_member hmember, Room.Event.ticket?]
      | some member =>
          rw [Room.leave_of_member hmember, List.filterMap_cons]
          exact hrest _ _ _
  | say id fallback text =>
      show (room.say id fallback text).events.filterMap _ = []
      rw [Room.say_events, List.filterMap_cons]
      exact hrest _ _ _
  | receive _ | drain _ | hangUp _ => rfl

/-- As many join as an operation lets in. -/
theorem joinCount_perform (op : Room.Op) : Room.joinCount (room.perform op).events = op.joins := by
  have hrest := Room.filterMap_joiner?_deliveries
  cases op with
  | join name =>
      show Room.joinCount (room.join name).events = 1
      simp [Room.joinCount, Room.join_events, Room.Event.joiner?, hrest]
  | leave id =>
      show Room.joinCount (room.leave id).events = 0
      cases hmember : room.member? id with
      | none =>
          simp [Room.joinCount, Room.leave_of_not_member hmember, List.filterMap_cons,
            Room.Event.joiner?]
      | some member =>
          simp [Room.joinCount, Room.leave_of_member hmember, List.filterMap_cons,
            Room.Event.joiner?, hrest]
  | say id fallback text =>
      show Room.joinCount (room.say id fallback text).events = 0
      simp [Room.joinCount, Room.say_events, List.filterMap_cons, Room.Event.joiner?, hrest]
  | receive _ | drain _ | hangUp _ => rfl

end

end LineChat
