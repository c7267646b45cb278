import LineChat.Proofs.Room.Notices
import LineChat.Proofs.Room.Reach
import LineChat.Proofs.Session.Doings
import LineChat.Proofs.Session.Record
import Mathlib.Logic.Relation

set_option autoImplicit false

/-! # One session and what is around it

A `Scene` is a server as one of its sessions knows it: the session itself, what the outside has
given it, what has happened in it, and the room with all that has happened there. The session makes
its moves, the outside changes what it finds, and everybody else is a `disturbed` room: an operation
that leaves the queue of the session to the session.

Whatever holds of a session in every run is shown here, step by step, and the other sessions do not
come into it. -/

namespace LineChat

/-! ## Rooms on record -/

/-- A room, with all that has happened in it since nobody had joined. -/
structure Room.Recorded (room : Room) (chronicle : List Room.Event) : Prop where
  numbered : room.Numbered (joinCount chronicle)
  announced : joinCount chronicle < 2 ^ 64 → ∀ id, room.Announced chronicle id
  named : joinCount chronicle < 2 ^ 64 → room.Named chronicle
  proclaimed : Proclaimed chronicle
  undelivered : ∀ place, room.seat? place = none → deliveredTo place chronicle = []

namespace Room

theorem recorded_empty (stamp : String) (picker : ColorPicker) :
    (empty stamp picker).Recorded [] where
  numbered := numbered_empty stamp picker
  announced := fun _ => announced_empty stamp picker
  named := fun _ _ _ _ _ hname => absurd hname List.not_mem_nil
  proclaimed := fun _ _ _ _ _ hsplit => absurd hsplit (by simp)
  undelivered := fun _ _ => rfl

theorem Recorded.perform {room : Room} {chronicle : List Room.Event} (h : room.Recorded chronicle)
    (op : Op) : (room.perform op).room.Recorded (chronicle ++ (room.perform op).events) where
  numbered := by
    rw [joinCount_append, joinCount_perform]
    exact h.numbered.perform op
  announced := by
    intro hjoins id
    rw [joinCount_append] at hjoins
    have hbefore : joinCount chronicle < 2 ^ 64 := by omega
    exact (h.announced hbefore id).perform h.numbered hbefore op
  named := by
    intro hjoins
    rw [joinCount_append] at hjoins
    have hbefore : joinCount chronicle < 2 ^ 64 := by omega
    exact (h.named hbefore).perform h.numbered hbefore (h.announced hbefore) op
  proclaimed := h.proclaimed.append (room.proclaimed_perform op)
  undelivered := by
    intro place hseat'
    -- a place that is free now was free before
    have hseat : room.seat? place = none := by
      cases hseat : room.seat? place with
      | none => rfl
      | some seat =>
          obtain ⟨seat', hkept, -⟩ := seat?_perform op hseat
          rw [hseat'] at hkept
          exact absurd hkept nofun
    rw [deliveredTo_append, h.undelivered place hseat, deliveredTo_of_seat?_eq_none hseat hseat',
      List.append_nil]

/-- The time is no matter. -/
theorem Recorded.stamped {room : Room} {chronicle : List Room.Event} (h : room.Recorded chronicle)
    (stamp : String) : Recorded { room with stamp } chronicle :=
  ⟨⟨h.numbered.lastSeq, h.numbered.ids⟩, h.announced, h.named, h.proclaimed, h.undelivered⟩

end Room

/-! ## Scenes -/

/-- What the outside has given to a session so far. -/
structure Given where
  claimed : String
  /-- The requests that were taken. -/
  requests : List RequestKind
  input : List ReadEvent
  /-- How the connection was to behave, one script after the other. -/
  scripts : List Script

/-- A session in a room. -/
structure Scene where
  given : Given
  session : Session
  /-- What has happened in the session. -/
  events : List Event
  room : Room
  /-- What has happened in the room. -/
  chronicle : List Room.Event

namespace Scene

/-- How many have joined. -/
def joins (scene : Scene) : Nat :=
  Room.joinCount scene.chronicle

/-- The scene after the session has made a move. -/
def moved (scene : Scene) (move : Move) : Scene :=
  { scene with
    session := move.session
    events := scene.events ++ move.events
    room := move.room
    chronicle := scene.chronicle ++ roomEvents move.events }

/-- The scene after somebody else has carried out an operation. -/
def disturbed (scene : Scene) (op : Room.Op) : Scene :=
  { scene with
    room := (scene.room.perform op).room
    chronicle := scene.chronicle ++ (scene.room.perform op).events }

/-- The scene after a request was sent. -/
def asked (scene : Scene) (kind : RequestKind) : Scene :=
  { scene with
    given :=
      { scene.given with
        requests :=
          scene.given.requests ++ if (scene.session.requests.push kind).1 then [kind] else [] }
    session := { scene.session with requests := (scene.session.requests.push kind).2 } }

/-- The scene after the last request was sent. -/
def askedAll (scene : Scene) : Scene :=
  { scene with session := { scene.session with requests := scene.session.requests.close } }

/-- The scene after something has arrived. -/
def fed (scene : Scene) (event : ReadEvent) : Scene :=
  { scene with
    given := { scene.given with input := scene.given.input ++ [event] }
    session := { scene.session with reader := scene.session.reader.push event } }

/-- The scene after the connection has changed its behaviour. -/
def rescripted (scene : Scene) (script : Script) : Scene :=
  { scene with
    given := { scene.given with scripts := scene.given.scripts ++ [script] }
    session := { scene.session with screen := scene.session.screen.rescript script } }

/-- What can happen in a scene. The queue of the session is read by nobody else. -/
inductive Step : Scene → Scene → Prop
  | moved {scene : Scene} {task : Task} {move : Move}
      (h : scene.session.step scene.room task = some move) : Step scene (scene.moved move)
  | disturbed {scene : Scene} (op : Room.Op)
      (h : ∀ ticket, scene.session.ticket? = some ticket → op.reads? ≠ some ticket.place) :
      Step scene (scene.disturbed op)
  | clock {scene : Scene} (stamp : String) :
      Step scene { scene with room := { scene.room with stamp } }
  | asked {scene : Scene} (kind : RequestKind) : Step scene (scene.asked kind)
  | askedAll {scene : Scene} : Step scene scene.askedAll
  | fed {scene : Scene} (event : ReadEvent) : Step scene (scene.fed event)
  | rescripted {scene : Scene} (script : Script) : Step scene (scene.rescripted script)

/-- What can happen in the course of time. -/
abbrev Steps : Scene → Scene → Prop :=
  Relation.ReflTransGen Step

/-- A session that has just been started, in any room. -/
def opening (given : Given) (arriving : Bool) (script : Script) (room : Room)
    (chronicle : List Room.Event) : Scene where
  given := { given with scripts := [script] }
  session := .fresh given.claimed given.requests arriving given.input script
  events := []
  room := room
  chronicle := chronicle

/-- The scenes that there can be. -/
def Reachable (scene : Scene) : Prop :=
  ∃ given arriving script room chronicle, room.Recorded chronicle
    ∧ Steps (opening given arriving script room chronicle) scene

/-- What holds in the beginning and is kept by every step holds in every scene. -/
theorem Reachable.invariant {P : Scene → Prop} {scene : Scene} (h : scene.Reachable)
    (hopening : ∀ given arriving script room chronicle, room.Recorded chronicle →
      P (opening given arriving script room chronicle))
    (hstep : ∀ scene scene', scene.Reachable → P scene → Step scene scene' → P scene') :
    P scene := by
  obtain ⟨given, arriving, script, room, chronicle, hroom, hsteps⟩ := h
  induction hsteps with
  | refl => exact hopening given arriving script room chronicle hroom
  | tail hbefore hlast ih =>
      exact hstep _ _ ⟨given, arriving, script, room, chronicle, hroom, hbefore⟩ ih hlast

theorem Reachable.step {scene scene' : Scene} (h : scene.Reachable) (hstep : Step scene scene') :
    scene'.Reachable := by
  obtain ⟨given, arriving, script, room, chronicle, hroom, hsteps⟩ := h
  exact ⟨given, arriving, script, room, chronicle, hroom, hsteps.tail hstep⟩

theorem Reachable.steps {scene scene' : Scene} (h : scene.Reachable) (hsteps : Steps scene scene') :
    scene'.Reachable := by
  induction hsteps with
  | refl => exact h
  | tail _ hlast ih => exact ih.step hlast

end Scene

/-! ## Moves and the room -/

/-- What a move does to the room: nothing, or one operation, which is joining or concerns the
    session's own seat. -/
inductive Session.Touch (session : Session) (room : Room) (move : Move) : Prop
  | none (hroom : move.room = room) (hevents : roomEvents move.events = [])
      (hticket : move.session.ticket? = session.ticket?)
  | join (hroom : move.room = (room.join session.claimed).room)
      (hevents : roomEvents move.events = (room.join session.claimed).events)
      (hbefore : session.ticket? = .none)
      (hticket : move.session.ticket? = some (room.join session.claimed).answer)
  | own (ticket : Ticket) (op : Room.Op) (hroom : move.room = (room.perform op).room)
      (hevents : roomEvents move.events = (room.perform op).events)
      (hbefore : session.ticket? = some ticket) (hticket : move.session.ticket? = some ticket)
      (hjoins : op.joins = 0) (hreads : ∀ place, op.reads? = some place → place = ticket.place)

theorem Session.ticket?_of_stage {session : Session} {ticket : Ticket} {keyLoop : KeyLoop}
    {relay : Relay} (h : session.stage = .seated ticket keyLoop relay) :
    session.ticket? = some ticket := by
  simp [ticket?, h]

/-- What holds of a seat and what its tasks do holds of whatever the stage is found to be. -/
theorem Session.forall_stage {P : Ticket → KeyLoop → Relay → Prop} {session : Session}
    {ticket : Ticket} {keyLoop : KeyLoop} {relay : Relay}
    (hstage : session.stage = .seated ticket keyLoop relay) (h : P ticket keyLoop relay)
    (ticket' : Ticket) (keyLoop' : KeyLoop) (relay' : Relay)
    (hstage' : session.stage = .seated ticket' keyLoop' relay') : P ticket' keyLoop' relay' := by
  obtain ⟨rfl, rfl, rfl⟩ := Stage.seated.inj (hstage.symm.trans hstage')
  exact h

theorem Session.ticket?_of_lobby {session : Session} (h : session.stage = .lobby) :
    session.ticket? = none := by
  simp [ticket?, h]

theorem Session.exists_stage_of_ticket? {session : Session} {ticket : Ticket}
    (h : session.ticket? = some ticket) :
    ∃ keyLoop relay, session.stage = .seated ticket keyLoop relay := by
  cases hstage : session.stage with
  | lobby | turnedAway => simp [ticket?, hstage] at h
  | seated ticket' keyLoop relay =>
      obtain rfl : ticket' = ticket := by simpa [ticket?, hstage] using h
      exact ⟨keyLoop, relay, rfl⟩

theorem Session.Doing.touch {session : Session} {room : Room} {task : Task} {move : Move}
    (h : session.Doing room task move) : session.Touch room move := by
  cases h with
  | answered hattended hpending | deserted hattended hpending => exact .none rfl rfl rfl
  | joined hstage hshell =>
      exact .join rfl (roomEvents_map_room _) (ticket?_of_lobby hstage) rfl
  | turnedAway hstage => exact .none rfl rfl (ticket?_of_lobby hstage).symm
  | keysCalled hstage | keysHeldUp hstage | keysDrew hstage | opened hstage | ready hstage
  | tookLeave hstage | readOn hstage | enteredBlank hstage | acknowledged hstage
  | trimmed hstage | appended hstage | ignored hstage | closedBlank hstage | readFailed hstage
  | relayCalled hstage | relayHeldUp hstage | relayDrew hstage | relayReady hstage =>
      exact .none rfl rfl (ticket?_of_stage hstage).symm
  | ended hstage =>
      refine .none rfl ?_ (ticket?_of_stage hstage).symm
      cases session.screen.shutdown.1 <;> rfl
  | @keysFailed ticket pen aim relay screen fault hstage =>
      have hbefore := ticket?_of_stage hstage
      by_cases haim : aim = .openRelay
      · exact .own ticket (.hangUp ticket.place) (if_pos haim) rfl hbefore rfl rfl
          fun _ h => (Option.some.inj h).symm
      · exact .none (if_neg haim) rfl hbefore.symm
  | @entered ticket relay reader turn hstage hread hblank hturn =>
      subst hturn
      exact .own ticket (.say ticket.id ticket.name (Text.trim session.draft.text)) rfl
        (roomEvents_map_room _) (ticket?_of_stage hstage) rfl rfl (by simp [Room.Op.reads?])
  | @closed ticket relay reader turn hstage hread hblank hturn =>
      subst hturn
      exact .own ticket (.say ticket.id ticket.name (Text.trim session.draft.text)) rfl
        (roomEvents_map_room _) (ticket?_of_stage hstage) rfl rfl (by simp [Room.Op.reads?])
  | @left ticket relay outcome hstage =>
      exact .own ticket (.leave ticket.id) rfl (roomEvents_map_room _) (ticket?_of_stage hstage)
        rfl rfl (by simp [Room.Op.reads?])
  | @fetched ticket keyLoop room' text hstage hreceive =>
      refine .own ticket (.receive ticket.place) ?_ rfl (ticket?_of_stage hstage) rfl rfl
        fun _ h => (Option.some.inj h).symm
      exact (congrArg Prod.snd hreceive).symm
  | @relayEnded ticket keyLoop room' receipt hstage hreceive =>
      refine .own ticket (.receive ticket.place) ?_ rfl (ticket?_of_stage hstage) rfl rfl
        fun _ h => (Option.some.inj h).symm
      exact (congrArg Prod.snd hreceive).symm
  | @relayFailed ticket keyLoop pen screen fault hstage =>
      exact .own ticket (.hangUp ticket.place) rfl rfl (ticket?_of_stage hstage) rfl rfl
        fun _ h => (Option.some.inj h).symm

/-- A session has the seat that it was handed a ticket for. -/
theorem Scene.Reachable.tickets_eq {scene : Scene} (h : scene.Reachable) :
    tickets scene.events = scene.session.ticket?.toList := by
  refine h.invariant (P := fun scene => tickets scene.events = scene.session.ticket?.toList) ?_ ?_
  · exact fun _ _ _ _ _ _ => rfl
  · intro scene scene' _ hbefore hstep
    cases hstep with
    | @moved _ move hmove =>
        show tickets (scene.events ++ move.events) = move.session.ticket?.toList
        rw [tickets_append, hbefore]
        cases (Session.doing_of_step hmove).touch with
        | none hroom hevents hticket =>
            rw [tickets, hevents, hticket]
            exact List.append_nil _
        | join hroom hevents hnone hticket =>
            rw [tickets, hevents, tickets_join, hnone, hticket]
            rfl
        | own ticket op hroom hevents hsome hticket hjoins =>
            rw [tickets, hevents, tickets_perform _ hjoins, hsome, hticket]
            rfl
    | disturbed _ _ | clock _ | asked _ | askedAll | fed _ | rescripted _ => exact hbefore

/-- A session keeps the name that it claims, and its seat. -/
theorem Scene.Steps.kept {scene scene' : Scene} (h : scene.Steps scene') :
    scene'.given.claimed = scene.given.claimed
      ∧ ∀ ticket, scene.session.ticket? = some ticket → scene'.session.ticket? = some ticket := by
  induction h with
  | refl => exact ⟨rfl, fun _ hticket => hticket⟩
  | tail _ hlast ih =>
      obtain ⟨hclaimed, hseated⟩ := ih
      refine ⟨?_, fun ticket hticket => ?_⟩
      · cases hlast <;> exact hclaimed
      · have hbefore := hseated ticket hticket
        cases hlast with
        | disturbed _ _ | clock _ | asked _ | askedAll | fed _ | rescripted _ => exact hbefore
        | moved hmove =>
            cases (Session.doing_of_step hmove).touch with
            | none _ _ hafter => exact hafter.trans hbefore
            | join _ _ hnone _ => exact absurd (hnone.symm.trans hbefore) nofun
            | own other _ _ _ hsome hafter _ _ => exact hafter.trans (hsome.symm.trans hbefore)

theorem Scene.Reachable.ticket?_eq {scene : Scene} (h : scene.Reachable) {ticket : Ticket}
    (hticket : tickets scene.events = [ticket]) : scene.session.ticket? = some ticket := by
  rw [h.tickets_eq] at hticket
  cases hthis : scene.session.ticket? with
  | none => simp [hthis] at hticket
  | some other => simpa [hthis] using hticket

end LineChat
