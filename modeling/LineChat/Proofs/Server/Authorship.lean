import LineChat.Proofs.Room.Wording
import LineChat.Proofs.Server.World
import LineChat.Proofs.Session.CleanTyping

set_option autoImplicit false

/-! # Who has said what

In a run in which everybody who takes part is a session, the lines are made of what the sessions
bring with them: the names that they claim, and what is typed (`Authored`). Every line that was said
was said by one of the sessions, under its own number, and it is one of those that come of its input
(`exists_speaker`).

The clock may show anything: `runAt` is a run together with what it shows at each happening. -/

namespace LineChat

/-- What happened in the room is told by an event of the room. -/
theorem Event.eq_room_of_room? {event : Event} {roomEvent : Room.Event}
    (h : event.room? = some roomEvent) : event = .room roomEvent := by
  cases event with
  | room this => exact congrArg Event.room (Option.some.inj h)
  | replied | requestsEnded | turnedAway | drew | drawFailed | acknowledged | inputClosed
  | readFailed | relayStopped | relayFinished | shutDown | shutdownFailed | ended => exact nomatch h

/-! ## Runs of sessions -/

/-- Whether an operation lets somebody in, or speaks for somebody. -/
def Room.Op.speaks : Room.Op → Bool
  | .join _ | .say .. => true
  | .leave _ | .receive _ | .drain _ | .hangUp _ => false

/-- Where nobody speaks, nothing is said. -/
theorem Room.said_notMem_perform {op : Room.Op} (h : op.speaks = false) (room : Room)
    (id : ParticipantId) (fallback text line : String) :
    .said id fallback text line ∉ (room.perform op).events := by
  intro hsaid
  cases op with
  | join _ | say _ _ _ => exact nomatch h
  | receive _ | drain _ | hangUp _ => exact absurd hsaid List.not_mem_nil
  | leave other =>
      have hround : ∀ (order : List Member) (source? : Option ParticipantId) (told : String),
          .said id fallback text line ∉ deliveries order source? told := by
        intro order source? told hmem
        rcases mem_deliveries hmem with ⟨_, heq⟩ | ⟨_, _, heq⟩ <;> exact nomatch heq
      have hleave : Event.said id fallback text line ∈ (room.leave other).events := hsaid
      cases hmember : room.member? other with
      | none => simp [leave_of_not_member hmember] at hleave
      | some member => simp [leave_of_member hmember, hround] at hleave

/-- Whether only sessions come in and speak by this, and the names that they claim are such. -/
def Happening.bySessions (claims : String → Prop) : Happening → Prop
  | .stimulus (.connect claimed _ _ _ _) => claims claimed
  | .stimulus (.room ops) => ∀ op ∈ ops, op.speaks = false
  | .stimulus (.request _ _) | .stimulus (.endRequests _) | .stimulus (.feed _ _)
  | .stimulus (.rescript _ _) | .clock _ | .move _ => True

/-- A session keeps the name that it claims. -/
theorem Session.Doing.claimed_eq {session : Session} {room : Room} {task : Task} {move : Move}
    (h : session.Doing room task move) : move.session.claimed = session.claimed := by
  cases h <;> rfl

namespace World

/-- The world when the clock shows this. -/
def showing (world : World) (stamp : String) : World :=
  { world with server := { world.server with room := { world.server.room with stamp } } }

/-- The world after a run, each happening with what the clock shows then. -/
def runAt (world : World) : List (String × Happening) → Option World
  | [] => some world
  | (stamp, happening) :: later =>
    ((world.showing stamp).happen happening).bind fun world => world.runAt later

theorem leads_of_runAt {world world' : World} (h : world.Sound)
    {history : List (String × Happening)} (hrun : world.runAt history = some world') :
    world.Leads world' := by
  induction history generalizing world with
  | nil =>
      obtain rfl := Option.some.inj hrun
      exact .refl h
  | cons first later ih =>
      obtain ⟨stamp, happening⟩ := first
      obtain ⟨next, hnext, hlater⟩ := Option.bind_eq_some_iff.1 hrun
      have hshown : world.Leads (world.showing stamp) := leads_stamped h stamp
      have hfirst := hshown.trans (leads_happen hshown.sound hnext)
      exact hfirst.trans (ih hfirst.sound hlater)

/-! ## What sessions bring with them -/

/-- The lines are made of such words, the sessions claim such names, and nobody has spoken but
    them. -/
structure Authored (w : Wording) (claims : String → Prop) (world : World) : Prop where
  worded : world.server.room.Worded w (chronicleOf world.server.journal)
  claimed : ∀ session ∈ world.server.sessions, claims session.claimed
  spoken : ∀ entry ∈ world.server.journal, entry.session? = none →
    ∀ id fallback text line, entry.event ≠ .room (.said id fallback text line)

variable {w : Wording} {claims : String → Prop}

theorem authored_start {stamp : String} {picker : ColorPicker} (hstamp : w.time stamp)
    (hpalette : ∀ color ∈ picker.palette, w.color color) :
    (start stamp picker).Authored w claims where
  worded := Room.worded_empty hstamp hpalette
  claimed := List.forall_mem_nil _
  spoken := List.forall_mem_nil _

theorem mem_journal_record {server : Server} {session? : Option Nat} {events : List Event}
    {entry : Entry} :
    entry ∈ (server.record session? events).journal
      ↔ entry.session? = session? ∧ entry.event ∈ events ∨ entry ∈ server.journal := by
  obtain ⟨session', event⟩ := entry
  simp [Server.record, and_comm, eq_comm]

section
variable {world : World}

theorem Authored.showing (h : world.Authored w claims) {stamp : String} (hstamp : w.time stamp) :
    (world.showing stamp).Authored w claims :=
  ⟨h.worded.restamped hstamp, h.claimed, h.spoken⟩

/-- An operation by which nobody comes in or speaks brings no words with it. -/
theorem Authored.perform (h : world.Authored w claims) {op : Room.Op} (hop : op.speaks = false) :
    Authored w claims { world with server := (world.server.perform op).1 } where
  worded := by
    have hnew : world.server.room.newcomers op = [] := by
      cases op with
      | join _ | say _ _ _ => exact nomatch hop
      | leave _ | receive _ | drain _ | hangUp _ => rfl
    have hchronicle : chronicleOf (world.server.perform op).1.journal
        = chronicleOf world.server.journal ++ (world.server.room.perform op).events := by
      show chronicleOf (Server.record _ none _).journal = _
      rw [chronicleOf_record, roomEvents_map_room]
    show Room.Worded w (world.server.room.perform op).room
      (chronicleOf (world.server.perform op).1.journal)
    rw [hchronicle]
    refine h.worded.perform ?_
    rw [hnew]
    exact List.forall_mem_nil _
  claimed := h.claimed
  spoken := by
    intro entry hentry hnone id fallback text line hsaid
    rcases mem_journal_record.1 hentry with ⟨-, hevent⟩ | hold
    · obtain ⟨event, hevent, heq⟩ := List.mem_map.1 hevent
      obtain rfl := Event.room.inj (heq.trans hsaid)
      exact Room.said_notMem_perform hop _ _ _ _ _ hevent
    · exact h.spoken entry hold hnone id fallback text line hsaid

theorem Authored.performs (h : world.Authored w claims) {ops : List Room.Op}
    (hops : ∀ op ∈ ops, op.speaks = false) :
    Authored w claims
      { world with server := ops.foldl (fun server op => (server.perform op).1) world.server } := by
  induction ops generalizing world with
  | nil => exact h
  | cons op ops ih =>
      rw [List.forall_mem_cons] at hops
      exact ih (h.perform hops.1) hops.2

/-- What happens to one session alone brings no words with it. -/
theorem Authored.modify (h : world.Authored w claims) (i : Nat) (f : Session → Session)
    (hf : ∀ session, (f session).claimed = session.claimed) (given : List Given) :
    Authored w claims ⟨world.server.modifySession i f, given⟩ := by
  refine ⟨h.worded, ?_, h.spoken⟩
  intro session hsession
  obtain ⟨j, hj⟩ := List.mem_iff_getElem?.1 hsession
  rw [show (world.server.modifySession i f).sessions = world.server.sessions.modify i f from rfl,
    List.getElem?_modify] at hj
  obtain ⟨before, hbefore, rfl⟩ := Option.map_eq_some_iff.1 hj
  have hclaimed := h.claimed before (List.mem_of_getElem? hbefore)
  split
  · rw [hf]
    exact hclaimed
  · exact hclaimed

/-- A session brings its name with it when it joins, and then only what it says. -/
theorem Authored.moved (h : world.Authored w claims)
    (hname : ∀ id claimed, claims claimed →
      w.name id (if claimed.isEmpty then id.display else claimed))
    {i : Nat} {session : Session} {move : Move}
    (hsession : world.server.sessions[i]? = some session)
    (htouch : session.Touch world.server.room move)
    (hclaimed : move.session.claimed = session.claimed) :
    (world.moved i move).Authored w claims := by
  have hclaims := h.claimed session (List.mem_of_getElem? hsession)
  refine ⟨?_, ?_, ?_⟩
  · rw [chronicleOf_moved]
    show move.room.Worded w (chronicleOf world.server.journal ++ roomEvents move.events)
    cases htouch with
    | none hroom hevents _ =>
        rw [hroom, hevents, List.append_nil]
        exact h.worded
    | join hroom hevents _ _ =>
        have hnew : ∀ ticket ∈ world.server.room.newcomers (.join session.claimed),
            w.name ticket.id ticket.name := by
          intro ticket hticket
          rw [List.mem_singleton.1 hticket]
          exact hname _ _ hclaims
        rw [hroom, hevents]
        exact h.worded.perform hnew
    | own ticket op hroom hevents _ _ hjoins _ =>
        rw [hroom, hevents]
        refine h.worded.perform ?_
        cases op with
        | join name => exact absurd hjoins Nat.one_ne_zero
        | leave _ | say _ _ _ | receive _ | drain _ | hangUp _ => exact List.forall_mem_nil _
  · intro other hother
    rcases List.mem_or_eq_of_mem_set hother with hold | rfl
    · exact h.claimed other hold
    · rw [hclaimed]
      exact hclaims
  · intro entry hentry hnone
    rcases mem_journal_record.1 hentry with ⟨hthis, -⟩ | hold
    · rw [hnone] at hthis
      exact nomatch hthis
    · exact h.spoken entry hold hnone

end

section
variable (hname : ∀ id claimed, claims claimed →
  w.name id (if claimed.isEmpty then id.display else claimed))
variable (hclock : ∀ time : DateTime, w.time time.render)
include hname hclock

theorem Authored.happen {world world' : World} (h : world.Authored w claims)
    {happening : Happening} (hby : happening.bySessions claims)
    (hhappen : world.happen happening = some world') : world'.Authored w claims := by
  cases happening with
  | clock time =>
      obtain rfl := Option.some.inj hhappen
      exact h.showing (hclock time)
  | move ref =>
      obtain ⟨server, hstep, rfl⟩ := Option.map_eq_some_iff.1 hhappen
      obtain ⟨session, move, hsession, hmove, hmoved⟩ := exists_move_of_step hstep
      rw [hmoved]
      have hdoing := Session.doing_of_step hmove
      exact h.moved hname hsession hdoing.touch hdoing.claimed_eq
  | stimulus stimulus =>
      obtain ⟨-, rfl⟩ := of_happen_stimulus hhappen
      cases stimulus with
      | connect claimed requests arriving input script =>
          refine ⟨h.worded, ?_, h.spoken⟩
          show ∀ session ∈ world.server.sessions ++ [_], claims session.claimed
          rw [List.forall_mem_append, List.forall_mem_singleton]
          exact ⟨h.claimed, hby⟩
      | request i kind =>
          exact h.modify i (fun s => { s with requests := (s.requests.push kind).2 })
            (fun _ => rfl) _
      | endRequests i =>
          exact h.modify i (fun s => { s with requests := s.requests.close }) (fun _ => rfl) _
      | feed i event =>
          exact h.modify i (fun s => { s with reader := s.reader.push event }) (fun _ => rfl) _
      | rescript i script =>
          exact h.modify i (fun s => { s with screen := s.screen.rescript script })
            (fun _ => rfl) _
      | room ops => exact h.performs hby

theorem Authored.runAt {world world' : World} (h : world.Authored w claims)
    {history : List (String × Happening)}
    (hby : ∀ step ∈ history, w.time step.1 ∧ step.2.bySessions claims)
    (hrun : world.runAt history = some world') : world'.Authored w claims := by
  induction history generalizing world with
  | nil =>
      obtain rfl := Option.some.inj hrun
      exact h
  | cons first later ih =>
      rw [List.forall_mem_cons] at hby
      obtain ⟨next, hnext, hlater⟩ := Option.bind_eq_some_iff.1 hrun
      exact ih ((h.showing hby.1.1).happen hname hclock hby.1.2 hnext) hby.2 hlater

end

/-! ## Speakers -/

/-- What happened in the room, and not from outside, happened in a session. -/
theorem exists_session_of_mem {journal : List Entry} {event : Room.Event}
    (hmem : event ∈ chronicleOf journal)
    (hinside : ∀ entry ∈ journal, entry.event = .room event → entry.session? ≠ none) :
    ∃ i, .room event ∈ eventsOf journal i := by
  obtain ⟨told, htold, hevent⟩ := List.mem_filterMap.1 hmem
  obtain ⟨entry, hentry, rfl⟩ := List.mem_map.1 htold
  have hroom := Event.eq_room_of_room? hevent
  obtain ⟨i, hi⟩ := Option.ne_none_iff_exists'.1
    (hinside entry (List.mem_reverse.1 hentry) hroom)
  refine ⟨i, List.mem_filterMap.2 ⟨entry, hentry, ?_⟩⟩
  rw [if_pos hi, hroom]

theorem roomEvents_subset_chronicleOf {journal : List Entry} {i : Nat} {event : Room.Event}
    (hmem : .room event ∈ eventsOf journal i) : event ∈ chronicleOf journal := by
  obtain ⟨entry, hentry, hevent⟩ := List.mem_filterMap.1 hmem
  refine List.mem_filterMap.2 ⟨entry.event, List.mem_map_of_mem hentry, ?_⟩
  split at hevent
  · rw [Option.some.inj hevent]
    rfl
  · exact nomatch hevent

end World

/-- A session speaks under its own number and name, and says what comes of its input. -/
theorem Scene.Reachable.said {scene : Scene} (h : scene.Reachable) {id : ParticipantId}
    {fallback text line : String} (hsaid : .room (.said id fallback text line) ∈ scene.events) :
    ∃ ticket, tickets scene.events = [ticket] ∧ id = ticket.id ∧ fallback = ticket.name
      ∧ text ∈ (scene.given.intended []).lines := by
  have hop : Room.Op.say id fallback text ∈ operations scene.events :=
    List.mem_filterMap.2 ⟨_, List.mem_filterMap.2 ⟨_, hsaid, rfl⟩, rfl⟩
  cases hstage : scene.session.stage with
  | lobby | turnedAway =>
      have hnone := (h.disciplined.unseated (by simp [hstage])).1
      rw [hnone] at hop
      exact absurd hop List.not_mem_nil
  | seated ticket keyLoop relay =>
      obtain ⟨said, hcourse, hstands⟩ := h.disciplined.seated hstage
      have hticket : tickets scene.events = [ticket] := by
        rw [h.tickets_eq, Session.ticket?_of_stage hstage]
        rfl
      rw [hcourse, Ticket.course] at hop
      rcases List.mem_append.1 hop with hspoken | hleft
      · rcases List.mem_cons.1 hspoken with hjoin | hspoken
        · cases hjoin
        · obtain ⟨this, hmem, heq⟩ := List.mem_map.1 hspoken
          obtain ⟨rfl, rfl, rfl⟩ := Room.Op.say.inj heq
          exact ⟨ticket, hticket, rfl, rfl, (hstands.said_prefix []).subset hmem⟩
      · split at hleft
        · cases List.mem_singleton.1 hleft
        · exact absurd hleft List.not_mem_nil

namespace World

section
variable {w : Wording} {claims : String → Prop} {world : World}

/-- The name of a session is one that may go with its number. -/
theorem Authored.name_of_tickets (h : world.Authored w claims) {i : Nat} {scene : Scene}
    {ticket : Ticket} (hscene : world.scene? i = some scene)
    (hticket : tickets scene.events = [ticket]) : w.name ticket.id ticket.name := by
  obtain ⟨-, -, hevents, -, -⟩ := (world.scene?_eq_some_iff i scene).1 hscene
  have hmem : ticket ∈ tickets scene.events := hticket ▸ List.mem_singleton_self _
  obtain ⟨claimed, online, hjoined⟩ := exists_joined_of_mem_tickets hmem
  obtain ⟨told, htold, hroom⟩ := List.mem_filterMap.1 hjoined
  obtain rfl := Event.eq_room_of_room? hroom
  rw [← hevents] at htold
  exact h.worded.fits _ (roomEvents_subset_chronicleOf htold)

/-- Whatever was said was said by a session. -/
theorem Authored.exists_speaker (h : world.Authored w claims) {stamp : String}
    {picker : ColorPicker} (hleads : (start stamp picker).Leads world) {id : ParticipantId}
    {fallback text line : String}
    (hsaid : .said id fallback text line ∈ chronicleOf world.server.journal) :
    ∃ i scene ticket, world.scene? i = some scene ∧ tickets scene.events = [ticket]
      ∧ .room (.said id fallback text line) ∈ scene.events ∧ id = ticket.id
      ∧ fallback = ticket.name ∧ text ∈ (scene.given.intended []).lines := by
  obtain ⟨i, hmem⟩ := exists_session_of_mem hsaid fun entry hentry hevent hnone =>
    h.spoken entry hentry hnone _ _ _ _ hevent
  cases hscene : world.scene? i with
  | none =>
      rw [hleads.sound.silent i (hleads.sound.scene?_eq_none hscene)] at hmem
      exact absurd hmem List.not_mem_nil
  | some scene =>
      have hreachable : scene.Reachable := hleads.opens i scene rfl hscene
      obtain ⟨-, -, hevents, -, -⟩ := (world.scene?_eq_some_iff i scene).1 hscene
      rw [hevents] at hmem
      obtain ⟨ticket, hticket, hid, hname, htext⟩ := hreachable.said hmem
      exact ⟨i, scene, ticket, hscene, hticket, hmem, hid, hname, htext⟩

/-- So the line has a name that may go with the number, in a colour, and a text that was typed. -/
theorem Authored.signed (h : world.Authored w claims) {stamp : String} {picker : ColorPicker}
    (hleads : (start stamp picker).Leads world) {id : ParticipantId} {fallback text line : String}
    (hsaid : .said id fallback text line ∈ chronicleOf world.server.journal) :
    ∃ time color name, w.time time ∧ w.color color ∧ w.name id name ∧ Text.Clean text
      ∧ line = Line.said time (color.paint name) text := by
  obtain ⟨i, scene, ticket, hscene, hticket, -, rfl, rfl, htext⟩ := h.exists_speaker hleads hsaid
  obtain ⟨time, label, htime, hsigns, hline⟩ := h.worded.fits _ hsaid
  obtain ⟨color, name, hcolor, hname, rfl⟩ := hsigns.painted (h.name_of_tickets hscene hticket)
  exact ⟨time, color, name, htime, hcolor, hname, Given.clean_of_mem_intended htext, hline⟩

end

end World

end LineChat
