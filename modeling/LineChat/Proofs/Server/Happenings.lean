import LineChat.Proofs.Room.Overflow
import LineChat.Proofs.Room.Wording
import LineChat.Proofs.Server.World
import LineChat.Proofs.Session.Hearing

set_option autoImplicit false

/-! # What happens to a session, and to its queue

Of all that happens in a run only its own moves concern a session: whatever else happens, it stands
where it stood, and what is recorded of it stays as it was (`moved_or_stands`). Its queue is everybody's
concern. Whoever carries out an operation may make the room hand out a line (`issues`), and as long as
the session does not read the queue takes what it can hold (`Sound.backlog_happen`). -/

namespace LineChat

theorem Room.Present.isRead {room : Room} {ticket : Ticket} (h : room.Present ticket) :
    room.isRead ticket.place = true := by
  obtain ⟨seat, hseat, -, -, hreads⟩ := h
  exact (Room.isRead_of_seat? hseat).trans hreads

namespace World

/-! ## Sessions -/

/-- A session is left alone by what happens. At most it is given something, and its connection is told
    how to behave. -/
structure Stands (world next : World) (happening : Happening) (i : Nat) : Prop where
  events : eventsOf next.server.journal i = eventsOf world.server.journal i
  session : ∀ session, world.server.sessions[i]? = some session →
    ∃ session', next.server.sessions[i]? = some session' ∧ session'.stage = session.stage
      ∧ ((∀ script, happening ≠ .stimulus (.rescript i script)) → session'.screen = session.screen)

theorem Stands.of_sessions_eq {world next : World} {happening : Happening} {i : Nat}
    (hevents : eventsOf next.server.journal i = eventsOf world.server.journal i)
    (hsessions : next.server.sessions[i]? = world.server.sessions[i]?) :
    Stands world next happening i :=
  ⟨hevents, fun session hsession => ⟨session, hsessions.trans hsession, rfl, fun _ => rfl⟩⟩

theorem Stands.of_modify {world next : World} {happening : Happening} {i : Nat} (k : Nat)
    (f : Session → Session) (hserver : next.server = world.server.modifySession k f)
    (hstage : ∀ session, (f session).stage = session.stage)
    (hscreen : k = i → (∀ script, happening ≠ .stimulus (.rescript i script)) →
      ∀ session, (f session).screen = session.screen) :
    Stands world next happening i := by
  refine ⟨by rw [hserver]; rfl, fun session hsession => ?_⟩
  refine ⟨if k = i then f session else session, ?_, ?_, fun hscript => ?_⟩
  · rw [hserver]
    show (world.server.sessions.modify k f)[i]? = _
    rw [List.getElem?_modify, hsession]
    rfl
  · split
    · exact hstage session
    · rfl
  · split
    · next hi => exact hscreen hi hscript session
    · rfl

theorem eventsOf_performs (ops : List Room.Op) (server : Server) (i : Nat) :
    eventsOf (ops.foldl (fun server op => (server.perform op).1) server).journal i
      = eventsOf server.journal i := by
  induction ops generalizing server with
  | nil => rfl
  | cons op ops ih =>
      rw [List.foldl_cons, ih]
      show eventsOf (Server.record _ none _).journal i = _
      rw [eventsOf_record, if_neg nofun, List.append_nil]

theorem sessions_performs (ops : List Room.Op) (server : Server) :
    (ops.foldl (fun server op => (server.perform op).1) server).sessions = server.sessions := by
  induction ops generalizing server with
  | nil => rfl
  | cons op ops ih => exact ih _

/-- Nothing happens in a session but by a move of its own. -/
theorem moved_or_stands {world next : World} {happening : Happening}
    (h : world.happen happening = some next) (i : Nat) :
    (∃ task session move, happening = .move ⟨i, task⟩
        ∧ world.server.sessions[i]? = some session
        ∧ session.step world.server.room task = some move ∧ next = world.moved i move)
      ∨ (∀ task, happening ≠ .move ⟨i, task⟩) ∧ Stands world next happening i := by
  cases happening with
  | clock time =>
      obtain rfl := Option.some.inj h
      exact Or.inr ⟨fun _ heq => Happening.noConfusion heq, .of_sessions_eq rfl rfl⟩
  | move ref =>
      obtain ⟨server, hstep, rfl⟩ := Option.map_eq_some_iff.1 h
      obtain ⟨session, move, hsession, hmove, hmoved⟩ := exists_move_of_step hstep
      obtain ⟨k, task⟩ := ref
      rw [hmoved]
      by_cases hk : k = i
      · subst hk
        exact Or.inl ⟨task, session, move, rfl, hsession, hmove, rfl⟩
      · refine Or.inr ⟨fun _ heq => hk ?_, .of_sessions_eq ?_ ?_⟩
        · exact congrArg TaskRef.session (Happening.move.inj heq)
        · rw [eventsOf_moved, if_neg hk, List.append_nil]
        · show (world.server.sessions.set k move.session)[i]? = _
          rw [List.getElem?_set_ne hk]
  | stimulus stimulus =>
      obtain ⟨-, rfl⟩ := of_happen_stimulus h
      refine Or.inr ⟨fun _ heq => Happening.noConfusion heq, ?_⟩
      cases stimulus with
      | connect claimed requests arriving input script =>
          refine ⟨rfl, fun session hsession => ⟨session, ?_, rfl, fun _ => rfl⟩⟩
          have hbound := (List.getElem?_eq_some_iff.1 hsession).1
          show (world.server.sessions ++ [_])[i]? = _
          rw [List.getElem?_append_left hbound, hsession]
      | request k kind =>
          exact .of_modify k _ rfl (fun _ => rfl) fun _ _ _ => rfl
      | endRequests k =>
          exact .of_modify k _ rfl (fun _ => rfl) fun _ _ _ => rfl
      | feed k event =>
          exact .of_modify k _ rfl (fun _ => rfl) fun _ _ _ => rfl
      | rescript k script =>
          refine .of_modify k _ rfl (fun _ => rfl) fun hk hscript => ?_
          exact absurd (by rw [hk]) (hscript script)
      | room ops =>
          refine .of_sessions_eq (eventsOf_performs ops world.server i) ?_
          exact congrArg (·[i]?) (sessions_performs ops world.server)

/-- The scene of a session after something has happened: the session has made a move, or it stands. -/
theorem scene_happen {world next : World} {happening : Happening}
    (h : world.happen happening = some next) {i : Nat} {scene scene' : Scene}
    (hscene : world.scene? i = some scene) (hscene' : next.scene? i = some scene') :
    (∃ task move, happening = .move ⟨i, task⟩ ∧ scene.session.step scene.room task = some move
        ∧ scene'.session = move.session ∧ scene'.events = scene.events ++ move.events
        ∧ scene'.room = move.room)
      ∨ (∀ task, happening ≠ .move ⟨i, task⟩) ∧ scene'.events = scene.events
        ∧ scene'.session.stage = scene.session.stage
        ∧ ((∀ script, happening ≠ .stimulus (.rescript i script)) →
            scene'.session.screen = scene.session.screen) := by
  obtain ⟨-, hsession, hevents, hroom, -⟩ := (world.scene?_eq_some_iff i scene).1 hscene
  obtain ⟨-, hsession', hevents', hroom', -⟩ := (next.scene?_eq_some_iff i scene').1 hscene'
  rcases moved_or_stands h i with ⟨task, session, move, hmoves, hthis, hmove, rfl⟩ | ⟨hother, hstands⟩
  · obtain rfl := Option.some.inj (hsession.symm.trans hthis)
    refine Or.inl ⟨task, move, hmoves, hroom ▸ hmove, ?_, ?_, hroom'.symm⟩
    · have hbound := (List.getElem?_eq_some_iff.1 hsession).1
      have hset : (world.server.sessions.set i move.session)[i]? = some scene'.session := hsession'
      rw [List.getElem?_set_self hbound] at hset
      exact (Option.some.inj hset).symm
    · rw [← hevents', ← hevents, eventsOf_moved, if_pos rfl]
  · obtain ⟨session', hthis, hstage, hscreen⟩ := hstands.session _ hsession
    obtain rfl := Option.some.inj (hsession'.symm.trans hthis)
    exact Or.inr ⟨hother, by rw [← hevents', ← hevents, hstands.events], hstage, hscreen⟩

/-! ## The room -/

/-- The operations on the room that something that happens carries out, but for those that concern a
    queue alone. -/
def operationsOf (world : World) : Happening → List Room.Op
  | .stimulus (.room ops) => ops
  | .move ref =>
    ((world.server.sessions[ref.session]?.bind fun session =>
      session.step world.server.room ref.task).map fun move => operations move.events).getD []
  | .stimulus _ | .clock _ => []

/-- What the room hands out when something happens, in order. -/
def issuedBy (world : World) (happening : Happening) : List Room.Issue :=
  world.server.room.log ((world.operationsOf happening).map (Room.Deed.mk world.server.room.stamp))

/-- What the room hands out in the course of a run, in order. -/
def issues (world : World) : List Happening → List Room.Issue
  | [] => []
  | happening :: later =>
    world.issuedBy happening
      ++ ((world.happen happening).map fun next => next.issues later).getD []

theorem issues_append {world past : World} {earlier : List Happening}
    (hpast : world.run earlier = some past) (later : List Happening) :
    world.issues (earlier ++ later) = world.issues earlier ++ past.issues later := by
  induction earlier generalizing world with
  | nil =>
      obtain rfl := Option.some.inj hpast
      rfl
  | cons happening earlier ih =>
      obtain ⟨next, hnext, hrest⟩ := Option.bind_eq_some_iff.1 hpast
      simp only [List.cons_append, issues, hnext, Option.map_some, Option.getD_some, ih hrest,
        List.append_assoc]

theorem room_performs (ops : List Room.Op) (server : Server) :
    (ops.foldl (fun server op => (server.perform op).1) server).room
      = server.room.after (ops.map (Room.Deed.mk server.room.stamp)) := by
  induction ops generalizing server with
  | nil => rfl
  | cons op ops ih =>
      have hstamp : (server.perform op).1.room.stamp = server.room.stamp :=
        Room.stamp_perform server.room op
      rw [List.foldl_cons, ih, hstamp]
      rfl

/-- A move has what the room hands out on record with the operation that it carries out. -/
theorem log_operations (room : Room) (op : Room.Op) {events : List Event}
    (hevents : roomEvents events = (room.perform op).events) :
    room.log ((operations events).map (Room.Deed.mk room.stamp)) = room.log [⟨room.stamp, op⟩] := by
  have hops : operations events = operations ((room.perform op).events.map .room) := by
    rw [operations, operations, hevents, roomEvents_map_room]
  have hlog : ∀ {ops}, operations ((room.perform op).events.map .room) = ops →
      room.log ((operations ((room.perform op).events.map .room)).map (Room.Deed.mk room.stamp))
        = room.log (ops.map (Room.Deed.mk room.stamp)) :=
    fun hthis => by rw [hthis]
  rw [hops]
  cases op with
  | join name => exact hlog (operations_join room name)
  | leave id => exact hlog (operations_leave room id)
  | say id fallback text => exact hlog (operations_say room id fallback text)
  | receive _ | drain _ | hangUp _ => rfl

/-! ## The queue of a session -/

/-- The key task and the task that answers requests leave the queue to the relay, unless they give it
    up. -/
theorem reads_of_doing {session : Session} {room : Room} {task : Task} {move : Move}
    (h : session.Doing room task move) (htask : task ≠ .relay) :
    move.room = room ∧ roomEvents move.events = []
      ∨ (∃ op, move.room = (room.perform op).room
          ∧ roomEvents move.events = (room.perform op).events ∧ op.reads? = none)
      ∨ ∃ ticket, session.ticket? = some ticket ∧ move.room = room.hangUp ticket.place := by
  cases h with
  | answered | deserted | turnedAway | keysCalled | keysHeldUp | keysDrew | opened | ready | tookLeave
  | readOn | enteredBlank | acknowledged | trimmed | appended | ignored | closedBlank | readFailed =>
      exact Or.inl ⟨rfl, rfl⟩
  | ended => exact Or.inl ⟨rfl, roomEvents_closing ..⟩
  | @keysFailed ticket pen aim relay screen fault hstage =>
      by_cases haim : aim = .openRelay
      · exact Or.inr (Or.inr ⟨ticket, Session.ticket?_of_stage hstage, if_pos haim⟩)
      · exact Or.inl ⟨if_neg haim, rfl⟩
  | joined =>
      exact Or.inr (Or.inl ⟨.join session.claimed, rfl, roomEvents_map_room _, rfl⟩)
  | @left ticket =>
      exact Or.inr (Or.inl ⟨.leave ticket.id, rfl, roomEvents_map_room _, rfl⟩)
  | @entered ticket relay reader turn hstage hread hblank hturn
  | @closed ticket relay reader turn hstage hread hblank hturn =>
      subst hturn
      exact Or.inr (Or.inl ⟨.say ticket.id ticket.name (Text.trim session.draft.text), rfl,
        roomEvents_map_room _, rfl⟩)
  | fetched | relayEnded | relayCalled | relayHeldUp | relayDrew | relayFailed | relayReady =>
      exact absurd rfl htask

section
variable {world next : World} {happening : Happening} {i : Nat} {ticket : Ticket}

theorem issuedBy_move {session : Session} {task : Task} {move : Move}
    (hsession : world.server.sessions[i]? = some session)
    (hmove : session.step world.server.room task = some move) :
    world.issuedBy (.move ⟨i, task⟩)
      = world.server.room.log
          ((operations move.events).map (Room.Deed.mk world.server.room.stamp)) := by
  simp only [issuedBy, operationsOf, hsession, Option.bind_some, hmove, Option.map_some,
    Option.getD_some]

/-- From outside no queue of a session is read. -/
theorem reads?_ne_of_admits {op : Room.Op} (hop : world.server.admits op = true)
    (hticket : world.ticketAt? i = some ticket) : op.reads? ≠ some ticket.place := by
  intro hreads
  obtain ⟨session, hsession, hthis⟩ := Option.bind_eq_some_iff.1 hticket
  have hall := (Option.all_eq_true _ _).1 hop _ hreads
  have hnot := List.all_eq_true.1 hall _ (List.mem_of_getElem? hsession)
  simp [hthis] at hnot

/-- What happens comes to operations that do not read the queue at this place, and what they make the
    room hand out is all that it hands out. -/
def Offers (world next : World) (happening : Happening) (place : Place) : Prop :=
  ∃ deeds stamp, next.server.room = (world.server.room.after deeds).stamped stamp
    ∧ world.issuedBy happening = world.server.room.log deeds
    ∧ ∀ deed ∈ deeds, deed.op.reads? ≠ some place

theorem Offers.nothing {place : Place} (stamp : String)
    (hroom : next.server.room = world.server.room.stamped stamp)
    (hissued : world.issuedBy happening = []) : Offers world next happening place :=
  ⟨[], stamp, hroom, hissued, fun _ hmem => nomatch hmem⟩

/-- A move carries out one operation at most. -/
theorem Offers.of_move {session : Session} {task : Task} {move : Move} {place : Place}
    (hsession : world.server.sessions[i]? = some session)
    (hmove : session.step world.server.room task = some move)
    (hdone : move.room = world.server.room ∧ roomEvents move.events = []
      ∨ ∃ op, move.room = (world.server.room.perform op).room
          ∧ roomEvents move.events = (world.server.room.perform op).events
          ∧ op.reads? ≠ some place) :
    Offers world (world.moved i move) (.move ⟨i, task⟩) place := by
  have hissued := issuedBy_move hsession hmove
  have hafter : (world.moved i move).server.room = move.room.stamped move.room.stamp := rfl
  rcases hdone with ⟨hroom, hevents⟩ | ⟨op, hroom, hevents, hreads⟩
  · refine .nothing move.room.stamp (hafter.trans (by rw [hroom])) ?_
    rw [hissued, operations, hevents]
    rfl
  · refine ⟨[⟨world.server.room.stamp, op⟩], move.room.stamp, hafter.trans ?_, ?_,
      List.forall_mem_singleton.2 hreads⟩
    · rw [hroom]
      rfl
    · rw [hissued, log_operations world.server.room op hevents]

theorem Offers.of_stimulus {stimulus : Server.Stimulus}
    (hnext : world.happen (.stimulus stimulus) = some next)
    (hticket : world.ticketAt? i = some ticket) :
    Offers world next (.stimulus stimulus) ticket.place := by
  obtain ⟨hadmitted, rfl⟩ := of_happen_stimulus hnext
  cases stimulus with
  | connect _ _ _ _ _ | request _ _ | endRequests _ | feed _ _ | rescript _ _ =>
      exact .nothing world.server.room.stamp rfl rfl
  | room ops =>
      refine ⟨_, _, room_performs ops world.server, rfl, fun deed hmem => ?_⟩
      obtain ⟨op, hop, rfl⟩ := List.mem_map.1 hmem
      exact reads?_ne_of_admits (List.all_eq_true.1 hadmitted op hop) hticket

/-- Nobody but its relay reads the queue of a session, as long as the session does not give it up. -/
theorem Sound.offers (h : world.Sound) (hnext : world.happen happening = some next)
    (hticket : world.ticketAt? i = some ticket) (hidle : happening ≠ .move ⟨i, .relay⟩)
    (hread : next.server.room.isRead ticket.place = true) :
    Offers world next happening ticket.place := by
  cases happening with
  | clock time =>
      obtain rfl := Option.some.inj hnext
      exact .nothing time.render rfl rfl
  | stimulus stimulus => exact .of_stimulus hnext hticket
  | move ref =>
      obtain ⟨k, task⟩ := ref
      obtain ⟨server, hstep, rfl⟩ := Option.map_eq_some_iff.1 hnext
      obtain ⟨session, move, hsession, hmove, hmoved⟩ := exists_move_of_step hstep
      have hdoing := Session.doing_of_step hmove
      rw [hmoved] at hread ⊢
      refine .of_move hsession hmove ?_
      by_cases hk : k = i
      · subst hk
        have htask : task ≠ .relay := by
          rintro rfl
          exact hidle rfl
        rcases reads_of_doing hdoing htask with hnone | ⟨op, hroom, hevents, hreads⟩ | hgiven
        · exact Or.inl hnone
        · exact Or.inr ⟨op, hroom, hevents, by simp [hreads]⟩
        · obtain ⟨other, hother, hroom⟩ := hgiven
          obtain ⟨seat, hseat⟩ := h.seated k ticket hticket
          rw [ticketAt?, show world.server.sessions[k]? = some session from hsession,
            Option.bind_some, hother, Option.some.injEq] at hticket
          subst hticket
          have hhung : (world.moved k move).server.room.isRead other.place = false := by
            show move.room.isRead _ = false
            rw [hroom]
            exact Room.isRead_hangUp hseat
          exact absurd (hread.symm.trans hhung) (by decide)
      · cases hdoing.touch with
        | none hroom hevents => exact Or.inl ⟨hroom, hevents⟩
        | join hroom hevents =>
            exact Or.inr ⟨.join session.claimed, hroom, hevents, fun hreads => by cases hreads⟩
        | own other op hroom hevents hother _ _ hreads =>
            -- a session reads its own queue alone, and no two have the same
            refine Or.inr ⟨op, hroom, hevents, fun hthis => ?_⟩
            have hplace : ticket.place = other.place := hreads _ hthis
            refine hk (h.separate _ _ other ticket ?_ hticket hplace.symm)
            rw [ticketAt?, show world.server.sessions[k]? = some session from hsession]
            exact hother

/-- Whatever happens besides the relay reading, the queue of a session that stays in the room takes
    what it can hold of what is meant for it. -/
theorem Sound.backlog_happen (h : world.Sound) (hnext : world.happen happening = some next)
    (hticket : world.ticketAt? i = some ticket) (hidle : happening ≠ .move ⟨i, .relay⟩)
    (hpresent : next.server.room.Present ticket)
    (hle : (world.server.room.backlog ticket.place).length ≤ Outbox.capacity) :
    next.server.room.backlog ticket.place
      = (world.server.room.backlog ticket.place
          ++ Room.addressed ticket (world.issuedBy happening)).take Outbox.capacity := by
  obtain ⟨seat, hseat⟩ := h.seated i ticket hticket
  obtain ⟨deeds, stamp, hroom, hissued, hreads⟩ := h.offers hnext hticket hidle hpresent.isRead
  have hstill : (world.server.room.after deeds).Present ticket := by
    rw [hroom] at hpresent
    exact hpresent
  rw [hroom, hissued]
  exact Room.backlog_after hseat hstill hreads hle

end

end World

end LineChat
