import LineChat.FrontEnd
import LineChat.Proofs.Session.Scene

set_option autoImplicit false

/-! # Runs of a server

A run is a list of happenings: something comes from outside, time passes, or a task makes a move.
Whose turn it is is left open, so what holds of every run holds in particular of those in which the
tasks take turns as `Server.settle` has them. A `World` is a server together with what the outside
has given to each session.

`reachable_of_run` is the bridge to scenes: each session of a run is in a scene that can be reached
by steps of its own, in which the other sessions are but a disturbance of the room. -/

namespace LineChat

/-! ## Runs -/

/-- Something that happens in a run. -/
inductive Happening
  | stimulus (stimulus : Server.Stimulus)
  | clock (time : DateTime)
  | move (ref : TaskRef)

/-- A server, and what its sessions have been given. -/
structure World where
  server : Server
  given : List Given

/-- Whether an operation on the room may come from outside: the queues of the sessions are not
    read there. -/
def Server.admits (server : Server) (op : Room.Op) : Bool :=
  op.reads?.all fun place => server.sessions.all fun session =>
    session.ticket?.all fun ticket => ticket.place != place

/-- Whether something may come from outside. -/
def Server.Stimulus.admitted (server : Server) : Server.Stimulus → Bool
  | .room ops => ops.all server.admits
  | .connect .. | .request .. | .endRequests _ | .feed .. | .rescript .. => true

namespace World

/-- A server that nobody has connected to. -/
def start (stamp : String) (picker : ColorPicker) : World :=
  ⟨.ofRoom (.empty stamp picker), []⟩

/-- What the sessions have been given after something has come from outside. -/
def givenAfter (world : World) : Server.Stimulus → List Given
  | .connect claimed requests _ input script => world.given ++ [⟨claimed, requests, input, [script]⟩]
  | .request session kind =>
    if world.server.takesRequests session then
      world.given.modify session fun given => { given with requests := given.requests ++ [kind] }
    else world.given
  | .feed session event =>
    world.given.modify session fun given => { given with input := given.input ++ [event] }
  | .rescript session script =>
    world.given.modify session fun given => { given with scripts := given.scripts ++ [script] }
  | .endRequests _ | .room _ => world.given

/-- The world after something has happened, if it can happen. -/
def happen (world : World) : Happening → Option World
  | .stimulus stimulus =>
    if stimulus.admitted world.server then
      some ⟨world.server.receive stimulus, world.givenAfter stimulus⟩
    else none
  | .clock time => some { world with server := world.server.atTime time }
  | .move ref => (world.server.step ref).map fun server => { world with server }

/-- The world after a run, if it is one. -/
def run (world : World) : List Happening → Option World
  | [] => some world
  | happening :: later => (world.happen happening).bind fun world => world.run later

theorem run_append (world : World) (earlier later : List Happening) :
    world.run (earlier ++ later) = (world.run earlier).bind fun world => world.run later := by
  induction earlier generalizing world with
  | nil => rfl
  | cons happening earlier ih =>
      simp only [List.cons_append, run]
      cases world.happen happening with
      | none => rfl
      | some next => exact ih next

/-- What has happened in a session, in order. -/
def eventsOf (journal : List Entry) (session : Nat) : List Event :=
  journal.reverse.filterMap fun entry =>
    if entry.session? = some session then some entry.event else none

/-- What has happened in the room, in order. -/
def chronicleOf (journal : List Entry) : List Room.Event :=
  roomEvents (journal.reverse.map Entry.event)

/-- A session of a world in its surroundings. -/
def scene? (world : World) (i : Nat) : Option Scene :=
  match world.given[i]?, world.server.sessions[i]? with
  | some given, some session =>
    some ⟨given, session, eventsOf world.server.journal i, world.server.room,
      chronicleOf world.server.journal⟩
  | _, _ => none

/-! ## The journal -/

theorem eventsOf_record (server : Server) (session? : Option Nat) (events : List Event) (i : Nat) :
    eventsOf (server.record session? events).journal i
      = eventsOf server.journal i ++ if session? = some i then events else [] := by
  simp only [eventsOf, Server.record, List.reverse_append, List.reverse_reverse,
    List.filterMap_append, List.filterMap_map]
  congr 1
  by_cases hi : session? = some i
  · simp [hi]
  · simp [hi]

theorem chronicleOf_record (server : Server) (session? : Option Nat) (events : List Event) :
    chronicleOf (server.record session? events).journal
      = chronicleOf server.journal ++ roomEvents events := by
  simp [chronicleOf, Server.record, Function.comp_def]

/-! ## What holds of every world -/

/-- The seat of a session. -/
def ticketAt? (world : World) (i : Nat) : Option Ticket :=
  world.server.sessions[i]?.bind Session.ticket?

/-- The room is on record, and no two sessions share a seat. -/
structure Sound (world : World) : Prop where
  length : world.given.length = world.server.sessions.length
  silent : ∀ i, world.server.sessions.length ≤ i → eventsOf world.server.journal i = []
  recorded : world.server.room.Recorded (chronicleOf world.server.journal)
  seated : ∀ i ticket, world.ticketAt? i = some ticket →
    ∃ seat, world.server.room.seat? ticket.place = some seat
  separate : ∀ i j ticket ticket', world.ticketAt? i = some ticket →
    world.ticketAt? j = some ticket' → ticket.place = ticket'.place → i = j

theorem sound_start (stamp : String) (picker : ColorPicker) : (start stamp picker).Sound where
  length := rfl
  silent := fun _ _ => rfl
  recorded := Room.recorded_empty stamp picker
  seated := fun i ticket h => by simp [ticketAt?, start, Server.ofRoom] at h
  separate := fun i j ticket ticket' h => by simp [ticketAt?, start, Server.ofRoom] at h

theorem scene?_eq_some_iff (world : World) (i : Nat) (scene : Scene) :
    world.scene? i = some scene ↔
      world.given[i]? = some scene.given ∧ world.server.sessions[i]? = some scene.session
        ∧ eventsOf world.server.journal i = scene.events ∧ world.server.room = scene.room
        ∧ chronicleOf world.server.journal = scene.chronicle := by
  obtain ⟨given, session, events, room, chronicle⟩ := scene
  unfold scene?
  cases world.given[i]? <;> cases world.server.sessions[i]? <;> simp

theorem Sound.scene?_eq_none {world : World} (h : world.Sound) {i : Nat}
    (hscene : world.scene? i = none) : world.server.sessions.length ≤ i := by
  unfold scene? at hscene
  by_contra hi
  have hsession : i < world.server.sessions.length := by omega
  have hgiven : i < world.given.length := h.length ▸ hsession
  simp [List.getElem?_eq_getElem hsession, List.getElem?_eq_getElem hgiven] at hscene

/-- A session that is there is in a scene. -/
theorem Sound.exists_scene {world : World} (h : world.Sound) {i : Nat} {session : Session}
    (hsession : world.server.sessions[i]? = some session) :
    ∃ scene, world.scene? i = some scene ∧ scene.session = session
      ∧ scene.room = world.server.room ∧ scene.events = eventsOf world.server.journal i := by
  cases hscene : world.scene? i with
  | none =>
      have hbound := (List.getElem?_eq_some_iff.1 hsession).1
      exact absurd (h.scene?_eq_none hscene) (by omega)
  | some scene =>
      obtain ⟨-, hthis, hevents, hroom, -⟩ := (world.scene?_eq_some_iff i scene).1 hscene
      exact ⟨scene, rfl, Option.some.inj (hthis.symm.trans hsession), hroom.symm, hevents.symm⟩

/-- What becomes of a scene, by what becomes of its parts. -/
theorem scene?_eq_map {world world' : World} {i : Nat} {f : Scene → Scene} (g : Given → Given)
    (t : Session → Session) (hgiven : world'.given[i]? = world.given[i]?.map g)
    (hsession : world'.server.sessions[i]? = world.server.sessions[i]?.map t)
    (hf : ∀ scene, world.scene? i = some scene →
      f scene = ⟨g scene.given, t scene.session, eventsOf world'.server.journal i,
        world'.server.room, chronicleOf world'.server.journal⟩) :
    world'.scene? i = (world.scene? i).map f := by
  unfold scene? at hf ⊢
  rw [hgiven, hsession]
  cases hg : world.given[i]? with
  | none => rfl
  | some given =>
      cases hs : world.server.sessions[i]? with
      | none => rfl
      | some session =>
          rw [hg, hs] at hf
          exact congrArg some (hf _ rfl).symm

/-- A change that seats nobody, and takes nobody's seat away, concerns only the records. -/
theorem Sound.of_kept {world world' : World} (h : world.Sound)
    (hlength : world'.given.length = world'.server.sessions.length)
    (hsilent : ∀ i, world'.server.sessions.length ≤ i → eventsOf world'.server.journal i = [])
    (hrecorded : world'.server.room.Recorded (chronicleOf world'.server.journal))
    (hticket : ∀ i ticket, world'.ticketAt? i = some ticket → world.ticketAt? i = some ticket)
    (hseat : ∀ place seat, world.server.room.seat? place = some seat →
      ∃ seat', world'.server.room.seat? place = some seat') : world'.Sound where
  length := hlength
  silent := hsilent
  recorded := hrecorded
  seated := by
    intro i ticket hi
    obtain ⟨seat, hthis⟩ := h.seated i ticket (hticket i ticket hi)
    exact hseat ticket.place seat hthis
  separate := fun i j ticket ticket' hi hj =>
    h.separate i j ticket ticket' (hticket i ticket hi) (hticket j ticket' hj)

/-! ## From one world to the next -/

/-- How each session gets from one world to another: those that are there by steps of their own, and
    the others are started on the way. -/
structure Leads (world world' : World) : Prop where
  sound : world'.Sound
  steps : ∀ i scene, world.scene? i = some scene →
    ∃ scene', world'.scene? i = some scene' ∧ scene.Steps scene'
  opens : ∀ i scene, world.scene? i = none → world'.scene? i = some scene → scene.Reachable

theorem Leads.refl {world : World} (h : world.Sound) : world.Leads world where
  sound := h
  steps := fun _ scene hscene => ⟨scene, hscene, .refl⟩
  opens := by
    intro i scene hnone hsome
    rw [hnone] at hsome
    exact absurd hsome (by simp)

theorem Leads.trans {world world' world'' : World} (h : world.Leads world')
    (h' : world'.Leads world'') : world.Leads world'' where
  sound := h'.sound
  steps := by
    intro i scene hscene
    obtain ⟨scene', hscene', hsteps⟩ := h.steps i scene hscene
    obtain ⟨scene'', hscene'', hsteps'⟩ := h'.steps i scene' hscene'
    exact ⟨scene'', hscene'', hsteps.trans hsteps'⟩
  opens := by
    intro i scene hnone hsome
    cases hbetween : world'.scene? i with
    | none => exact h'.opens i scene hbetween hsome
    | some scene' =>
        obtain ⟨scene'', hscene'', hsteps⟩ := h'.steps i scene' hbetween
        rw [hsome] at hscene''
        obtain rfl := Option.some.inj hscene''
        exact (h.opens i scene' hnone hbetween).steps hsteps

/-- A change by which no session is started takes each of them where it takes its scene. -/
theorem Leads.of_map {world world' : World} (hsound : world'.Sound) (f : Nat → Scene → Scene)
    (hscene : ∀ i, world'.scene? i = (world.scene? i).map (f i))
    (hsteps : ∀ i scene, world.scene? i = some scene → scene.Steps (f i scene)) :
    world.Leads world' where
  sound := hsound
  steps := by
    intro i scene h
    exact ⟨f i scene, by rw [hscene, h, Option.map_some], hsteps i scene h⟩
  opens := by
    intro i scene hnone hsome
    rw [hscene, hnone] at hsome
    exact absurd hsome (by simp)

/-! ## What comes from outside -/

/-- An operation on the room disturbs every session. -/
theorem leads_perform {world : World} (h : world.Sound) {op : Room.Op}
    (hop : world.server.admits op = true) :
    world.Leads { world with server := (world.server.perform op).1 } := by
  have hevents : ∀ i, eventsOf (world.server.perform op).1.journal i
      = eventsOf world.server.journal i := by
    intro i
    show eventsOf (Server.record _ none _).journal i = _
    rw [eventsOf_record, if_neg (by simp), List.append_nil]
  have hchronicle : chronicleOf (world.server.perform op).1.journal
      = chronicleOf world.server.journal ++ (world.server.room.perform op).events := by
    show chronicleOf (Server.record _ none _).journal = _
    rw [chronicleOf_record, roomEvents_map_room]
  refine .of_map ?_ (fun _ scene => scene.disturbed op) ?_ ?_
  · refine h.of_kept h.length (fun i hi => (hevents i).trans (h.silent i hi)) ?_
      (fun _ _ hi => hi) ?_
    · rw [hchronicle]
      exact h.recorded.perform op
    · intro place seat hseat
      obtain ⟨seat', hseat', -⟩ := Room.seat?_perform op hseat
      exact ⟨seat', hseat'⟩
  · intro i
    refine scene?_eq_map id id (Option.map_id_apply).symm (Option.map_id_apply).symm ?_
    intro scene hscene
    obtain ⟨-, -, hevents', hroom, hchronicle'⟩ := (world.scene?_eq_some_iff i scene).1 hscene
    have hroom' : (world.server.perform op).1.room = (scene.room.perform op).room :=
      congrArg (fun room => (room.perform op).room) hroom
    show _ = Scene.mk _ _ _ (world.server.perform op).1.room _
    rw [hevents, hevents', hchronicle, hchronicle', hroom, hroom']
    rfl
  · intro i scene hscene
    obtain ⟨-, hsession, -, -, -⟩ := (world.scene?_eq_some_iff i scene).1 hscene
    refine .single (.disturbed op fun ticket hticket hreads => ?_)
    have hall := (Option.all_eq_true _ _).1 hop _ hreads
    have hnot := List.all_eq_true.1 hall _ (List.mem_of_getElem? hsession)
    simp [hticket] at hnot

theorem leads_performs {world : World} (h : world.Sound) {ops : List Room.Op}
    (hops : ops.all world.server.admits = true) :
    world.Leads
      { world with server := ops.foldl (fun server op => (server.perform op).1) world.server } := by
  induction ops generalizing world with
  | nil => exact .refl h
  | cons op ops ih =>
      rw [List.all_cons, Bool.and_eq_true] at hops
      have hfirst := leads_perform h hops.1
      exact hfirst.trans (ih hfirst.sound hops.2)

/-- What comes to one session concerns that session only. -/
theorem leads_modify {world : World} (h : world.Sound) (k : Nat) (f : Session → Session)
    (g : Given → Given) (hticket : ∀ session, (f session).ticket? = session.ticket?)
    (hstep : ∀ scene, world.scene? k = some scene →
      scene.Step { scene with given := g scene.given, session := f scene.session }) :
    world.Leads ⟨world.server.modifySession k f, world.given.modify k g⟩ := by
  have hsame : ∀ i, ticketAt? ⟨world.server.modifySession k f, world.given.modify k g⟩ i
      = world.ticketAt? i := by
    intro i
    show ((world.server.sessions.modify k f)[i]?).bind _ = _
    rw [List.getElem?_modify, ticketAt?]
    cases world.server.sessions[i]? with
    | none => rfl
    | some session =>
        show (if k = i then f session else session).ticket? = session.ticket?
        split
        · exact hticket session
        · rfl
  refine .of_map ?_ (fun i scene =>
    if k = i then { scene with given := g scene.given, session := f scene.session } else scene) ?_ ?_
  · refine h.of_kept ?_ ?_ h.recorded (fun i _ hi => hsame i ▸ hi) (fun _ seat hseat => ⟨seat, hseat⟩)
    · show (world.given.modify k g).length = (world.server.sessions.modify k f).length
      simpa using h.length
    · intro i hi
      exact h.silent i (by simpa [Server.modifySession] using hi)
  · intro i
    refine scene?_eq_map (fun given => if k = i then g given else given)
      (fun session => if k = i then f session else session)
      (List.getElem?_modify g k world.given i) (List.getElem?_modify f k world.server.sessions i) ?_
    intro scene hscene
    obtain ⟨-, -, hevents, hroom, hchronicle⟩ := (world.scene?_eq_some_iff i scene).1 hscene
    show _ = Scene.mk _ _ (eventsOf world.server.journal i) world.server.room
      (chronicleOf world.server.journal)
    rw [hevents, hroom, hchronicle]
    by_cases hk : k = i
    · simp only [if_pos hk]
    · simp only [if_neg hk]
  · intro i scene hscene
    by_cases hk : k = i
    · subst hk
      simp only [if_true]
      exact .single (hstep scene hscene)
    · simp only [hk, if_false]
      exact .refl

theorem leads_request {world : World} (h : world.Sound) (k : Nat) (kind : RequestKind) :
    world.Leads ⟨world.server.receive (.request k kind), world.givenAfter (.request k kind)⟩ := by
  have hgiven : world.givenAfter (.request k kind) = world.given.modify k fun given =>
      { given with
        requests := given.requests ++ if world.server.takesRequests k then [kind] else [] } := by
    show (if _ then _ else _) = _
    cases world.server.takesRequests k with
    | true => rfl
    | false =>
        simp only [Bool.false_eq_true, if_false, List.append_nil]
        exact (List.modify_id k world.given).symm
  rw [hgiven]
  refine leads_modify h k (fun s => { s with requests := (s.requests.push kind).2 }) _
    (fun _ => rfl) ?_
  intro scene hscene
  obtain ⟨-, hsession, -⟩ := (world.scene?_eq_some_iff k scene).1 hscene
  have htakes : world.server.takesRequests k = (scene.session.requests.push kind).1 := by
    simp only [Server.takesRequests, hsession, RequestQueue.push]
    cases scene.session.requests.arriving <;> cases scene.session.requests.attended <;> rfl
  rw [htakes]
  exact .asked kind

/-- The world after a client has connected. -/
def connected (world : World) (given : Given) (arriving : Bool) (script : Script) : World where
  server :=
    world.server.connect (.fresh given.claimed given.requests arriving given.input script)
  given := world.given ++ [{ given with scripts := [script] }]

theorem ticketAt?_connected {world : World} {given : Given} {arriving : Bool} {script : Script}
    {i : Nat} {ticket : Ticket}
    (h : (world.connected given arriving script).ticketAt? i = some ticket) :
    world.ticketAt? i = some ticket := by
  obtain ⟨session, hsession, hticket⟩ := Option.bind_eq_some_iff.1 h
  rw [show Server.sessions _ = world.server.sessions ++ [_] from rfl, List.getElem?_append]
    at hsession
  split at hsession
  · exact Option.bind_eq_some_iff.2 ⟨session, hsession, hticket⟩
  · obtain ⟨hlength, hfresh⟩ := List.getElem?_eq_some_iff.1 hsession
    rw [List.getElem_singleton] at hfresh
    simp [← hfresh, Session.fresh, Session.ticket?] at hticket

theorem leads_connect {world : World} (h : world.Sound) (given : Given) (arriving : Bool)
    (script : Script) : world.Leads (world.connected given arriving script) := by
  constructor
  · refine h.of_kept ?_ ?_ h.recorded (fun _ _ => ticketAt?_connected) fun _ seat hseat => ⟨seat, hseat⟩
    · show (world.given ++ [_]).length = (world.server.sessions ++ [_]).length
      simp [h.length]
    · intro i hi
      refine h.silent i ?_
      have hlength : (world.server.sessions ++ [_]).length ≤ i := hi
      rw [List.length_append] at hlength
      omega
  · intro i scene hscene
    refine ⟨scene, ?_, .refl⟩
    rw [scene?_eq_some_iff] at hscene ⊢
    obtain ⟨hgiven, hsession, hrest⟩ := hscene
    refine ⟨?_, ?_, hrest⟩
    · exact List.getElem?_append_left (List.getElem?_eq_some_iff.1 hgiven).1 ▸ hgiven
    · exact List.getElem?_append_left (List.getElem?_eq_some_iff.1 hsession).1 ▸ hsession
  · -- the one that is new comes behind the others
    intro i scene hnone hsome
    have hi := h.scene?_eq_none hnone
    rw [scene?_eq_some_iff] at hsome
    obtain ⟨hgiven, hsession, hevents, hroom, hchronicle⟩ := hsome
    rw [show World.given _ = world.given ++ [_] from rfl,
      List.getElem?_append_right (by rw [h.length]; exact hi)] at hgiven
    rw [show Server.sessions _ = world.server.sessions ++ [_] from rfl,
      List.getElem?_append_right hi] at hsession
    obtain ⟨hg, hgiven⟩ := List.getElem?_eq_some_iff.1 hgiven
    obtain ⟨hs, hsession⟩ := List.getElem?_eq_some_iff.1 hsession
    rw [List.getElem_singleton] at hgiven hsession
    have hsilent : scene.events = [] := hevents.symm.trans (h.silent i hi)
    obtain ⟨given', session, events, room, chronicle⟩ := scene
    subst hgiven hsession hsilent hroom hchronicle
    exact ⟨given, arriving, script, _, _, h.recorded, .refl⟩

/-- The time is no matter to anybody, whatever it is written like. -/
theorem leads_stamped {world : World} (h : world.Sound) (stamp : String) :
    world.Leads
      { world with
        server := { world.server with room := { world.server.room with stamp } } } := by
  refine .of_map ⟨h.length, h.silent, h.recorded.stamped _, h.seated, h.separate⟩
    (fun _ scene => { scene with room := { scene.room with stamp } }) ?_ ?_
  · intro i
    refine scene?_eq_map id id (Option.map_id_apply).symm (Option.map_id_apply).symm ?_
    intro scene hscene
    obtain ⟨-, -, hevents, hroom, hchronicle⟩ := (world.scene?_eq_some_iff i scene).1 hscene
    rw [← hroom]
    exact Scene.mk.injEq .. |>.mpr ⟨rfl, rfl, hevents.symm, rfl, hchronicle.symm⟩
  · exact fun i scene _ => .single (.clock stamp)

theorem leads_clock {world : World} (h : world.Sound) (time : DateTime) :
    world.Leads { world with server := world.server.atTime time } :=
  leads_stamped h time.render

/-! ## Moves -/

/-- The world after a session has made a move. -/
def moved (world : World) (k : Nat) (move : Move) : World :=
  { world with
    server :=
      { world.server with
        room := move.room
        sessions := world.server.sessions.set k move.session }.record (some k) move.events }

theorem chronicleOf_moved (world : World) (k : Nat) (move : Move) :
    chronicleOf (world.moved k move).server.journal
      = chronicleOf world.server.journal ++ roomEvents move.events :=
  chronicleOf_record _ _ _

theorem eventsOf_moved (world : World) (k : Nat) (move : Move) (i : Nat) :
    eventsOf (world.moved k move).server.journal i
      = eventsOf world.server.journal i ++ if k = i then move.events else [] := by
  show eventsOf (Server.record _ _ _).journal i = _
  rw [eventsOf_record]
  by_cases hk : k = i <;> simp [hk]

theorem ticketAt?_moved {world : World} {k : Nat} {session : Session}
    (hsession : world.server.sessions[k]? = some session) (move : Move) (i : Nat) :
    (world.moved k move).ticketAt? i
      = if k = i then move.session.ticket? else world.ticketAt? i := by
  show ((world.server.sessions.set k move.session)[i]?).bind _ = _
  rw [List.getElem?_set]
  have hlength : k < world.server.sessions.length := (List.getElem?_eq_some_iff.1 hsession).1
  by_cases hk : k = i
  · simp [hk, hk ▸ hlength]
  · simp [hk, ticketAt?]

section
variable {world : World} {k : Nat} {session : Session} {move : Move}

theorem length_moved (h : world.Sound) :
    (world.moved k move).given.length = (world.moved k move).server.sessions.length := by
  show world.given.length = (world.server.sessions.set k move.session).length
  rw [List.length_set, h.length]

theorem eventsOf_moved_of_le (h : world.Sound) (hsession : world.server.sessions[k]? = some session)
    {i : Nat} (hi : (world.moved k move).server.sessions.length ≤ i) :
    eventsOf (world.moved k move).server.journal i = [] := by
  have hlength : (world.server.sessions.set k move.session).length ≤ i := hi
  rw [List.length_set] at hlength
  have hk : k ≠ i := by
    have hbound := (List.getElem?_eq_some_iff.1 hsession).1
    omega
  rw [eventsOf_moved, if_neg hk, List.append_nil]
  exact h.silent i hlength

theorem ticketAt?_moved_of_eq (hsession : world.server.sessions[k]? = some session)
    (hticket : move.session.ticket? = session.ticket?) (i : Nat) :
    (world.moved k move).ticketAt? i = world.ticketAt? i := by
  rw [ticketAt?_moved hsession]
  by_cases hk : k = i
  · subst hk
    rw [if_pos rfl, hticket, ticketAt?, hsession]
    rfl
  · rw [if_neg hk]

/-- A session that has a seat, or gets none, leaves everybody where they are. -/
theorem Sound.moved_of_kept (h : world.Sound) (hsession : world.server.sessions[k]? = some session)
    (hticket : move.session.ticket? = session.ticket?)
    (hrecorded : move.room.Recorded
      (chronicleOf world.server.journal ++ roomEvents move.events))
    (hseat : ∀ place seat, world.server.room.seat? place = some seat →
      ∃ seat', move.room.seat? place = some seat') : (world.moved k move).Sound := by
  refine h.of_kept (length_moved h) (fun _ hi => eventsOf_moved_of_le h hsession hi) ?_ ?_ hseat
  · rw [chronicleOf_moved]
    exact hrecorded
  · intro i ticket hi
    rwa [ticketAt?_moved_of_eq hsession hticket] at hi

/-- Nobody has the place that a session gets by joining. -/
theorem Sound.moved_of_join (h : world.Sound) (hsession : world.server.sessions[k]? = some session)
    (hroom : move.room = (world.server.room.join session.claimed).room)
    (hevents : roomEvents move.events = (world.server.room.join session.claimed).events)
    (hticket : move.session.ticket? = some (world.server.room.join session.claimed).answer) :
    (world.moved k move).Sound := by
  have hroom' : (world.moved k move).server.room
    = (world.server.room.perform (.join session.claimed)).room := hroom
  have hnew : ∀ i ticket, (world.moved k move).ticketAt? i = some ticket →
      k = i ∧ ticket.place = world.server.room.nextPlace
        ∨ k ≠ i ∧ world.ticketAt? i = some ticket := by
    intro i ticket hi
    rw [ticketAt?_moved hsession] at hi
    by_cases hk : k = i
    · rw [if_pos hk, hticket] at hi
      obtain rfl := Option.some.inj hi
      exact Or.inl ⟨hk, rfl⟩
    · rw [if_neg hk] at hi
      exact Or.inr ⟨hk, hi⟩
  have hfresh : ∀ i ticket, world.ticketAt? i = some ticket →
      ticket.place ≠ world.server.room.nextPlace := by
    intro i ticket hi
    obtain ⟨seat, hseat⟩ := h.seated i ticket hi
    exact Room.ne_nextPlace hseat
  refine ⟨length_moved h, fun _ hi => eventsOf_moved_of_le h hsession hi, ?_, ?_, ?_⟩
  · rw [chronicleOf_moved, hevents, hroom']
    exact h.recorded.perform (.join session.claimed)
  · intro i ticket hi
    rw [hroom']
    rcases hnew i ticket hi with ⟨-, hplace⟩ | ⟨-, hi⟩
    · obtain ⟨seat, hseat, -⟩ := world.server.room.seat?_join_next session.claimed
      exact ⟨seat, hplace ▸ hseat⟩
    · obtain ⟨seat, hseat⟩ := h.seated i ticket hi
      obtain ⟨seat', hseat', -⟩ := Room.seat?_perform (.join session.claimed) hseat
      exact ⟨seat', hseat'⟩
  · intro i j ticket ticket' hi hj hplace
    -- the new place was free, so only two who had theirs before could share one
    rcases hnew i ticket hi with ⟨hki, hown⟩ | ⟨-, hold⟩ <;>
      rcases hnew j ticket' hj with ⟨hkj, hown'⟩ | ⟨-, hold'⟩
    · exact hki.symm.trans hkj
    · exact absurd (hplace.symm.trans hown) (hfresh j ticket' hold')
    · exact absurd (hplace.trans hown') (hfresh i ticket hold)
    · exact h.separate i j ticket ticket' hold hold' hplace

theorem Sound.moved (h : world.Sound) (hsession : world.server.sessions[k]? = some session)
    (htouch : session.Touch world.server.room move) : (world.moved k move).Sound := by
  cases htouch with
  | none hroom hevents hafter =>
      refine h.moved_of_kept hsession hafter ?_ fun _ seat hseat => ⟨seat, hroom ▸ hseat⟩
      rw [hevents, List.append_nil, hroom]
      exact h.recorded
  | join hroom hevents hbefore hafter => exact h.moved_of_join hsession hroom hevents hafter
  | own ticket op hroom hevents hbefore hafter hjoins hreads =>
      refine h.moved_of_kept hsession (hafter.trans hbefore.symm) ?_ ?_
      · rw [hevents, hroom]
        exact h.recorded.perform op
      · intro place seat hseat
        obtain ⟨seat', hseat', -⟩ := Room.seat?_perform op hseat
        exact ⟨seat', hroom ▸ hseat'⟩

/-- To the other sessions a move is at most a disturbance of the room, and it does not read their
    queues. -/
theorem Sound.steps_of_touch (h : world.Sound) (hsession : world.server.sessions[k]? = some session)
    (htouch : session.Touch world.server.room move) {i : Nat} (hi : k ≠ i) {scene : Scene}
    (hscene : world.scene? i = some scene) :
    scene.Steps
      { scene with room := move.room, chronicle := scene.chronicle ++ roomEvents move.events } := by
  obtain ⟨-, hthis, -, hroom, -⟩ := (world.scene?_eq_some_iff i scene).1 hscene
  cases htouch with
  | none htroom hevents _ =>
      rw [htroom, hevents, hroom, List.append_nil]
  | join htroom hevents _ _ =>
      rw [htroom, hevents, hroom]
      exact .single (.disturbed (.join session.claimed) fun _ _ => nofun)
  | own ticket op htroom hevents hbefore _ _ hreads =>
      rw [htroom, hevents, hroom]
      -- a session reads its own queue alone, and no two have the same
      refine .single (.disturbed op fun ticket' hticket' hread => hi ?_)
      have hplace : ticket'.place = ticket.place := hreads _ hread
      refine h.separate _ _ ticket ticket' ?_ ?_ hplace.symm
      · simp [ticketAt?, hsession, hbefore]
      · simp [ticketAt?, hthis, hticket']

end

/-- A move of a task is a move of its session. -/
theorem exists_move_of_step {world : World} {ref : TaskRef} {server : Server}
    (hstep : world.server.step ref = some server) :
    ∃ session move, world.server.sessions[ref.session]? = some session
      ∧ session.step world.server.room ref.task = some move
      ∧ { world with server } = world.moved ref.session move := by
  unfold Server.step at hstep
  cases hsession : world.server.sessions[ref.session]? with
  | none => simp [hsession] at hstep
  | some session =>
      simp only [hsession] at hstep
      obtain ⟨move, hmove, rfl⟩ := Option.map_eq_some_iff.1 hstep
      exact ⟨session, move, rfl, hmove, rfl⟩

/-- What a move does to the room, and where it leaves its session. -/
theorem touch_of_move {world world' : World} {i : Nat} {task : Task}
    (h : world.happen (.move ⟨i, task⟩) = some world') :
    ∃ session move, world.server.sessions[i]? = some session
      ∧ session.Touch world.server.room move ∧ world' = world.moved i move
      ∧ world'.ticketAt? i = move.session.ticket? := by
  obtain ⟨server, hstep, rfl⟩ := Option.map_eq_some_iff.1 h
  obtain ⟨session, move, hsession, hmove, hmoved⟩ := exists_move_of_step hstep
  refine ⟨session, move, hsession, (Session.doing_of_step hmove).touch, hmoved, ?_⟩
  rw [hmoved, ticketAt?_moved hsession, if_pos rfl]

theorem leads_move {world : World} (h : world.Sound) {ref : TaskRef} {server : Server}
    (hstep : world.server.step ref = some server) : world.Leads { world with server } := by
  obtain ⟨session, move, hsession, hmove, hmoved⟩ := exists_move_of_step hstep
  rw [hmoved]
  have htouch := (Session.doing_of_step hmove).touch
  -- the session itself moves, and the others see what the move does to the room
  refine .of_map (h.moved hsession htouch)
    (fun i scene =>
      if ref.session = i then scene.moved move
      else { scene with
        room := move.room, chronicle := scene.chronicle ++ roomEvents move.events }) ?_ ?_
  · intro i
    refine scene?_eq_map id (fun other => if ref.session = i then move.session else other)
      (Option.map_id_apply).symm ?_ ?_
    · show (world.server.sessions.set ref.session move.session)[i]? = _
      rw [List.getElem?_set']
      by_cases hi : ref.session = i
      · simp only [if_pos hi]
        rfl
      · simp only [if_neg hi, Option.map_id']
    intro scene hscene
    obtain ⟨-, -, hevents, -, hchronicle⟩ := (world.scene?_eq_some_iff i scene).1 hscene
    rw [eventsOf_moved, chronicleOf_moved, hevents, hchronicle]
    by_cases hi : ref.session = i
    · simp only [if_pos hi]
      rfl
    · simp only [if_neg hi, List.append_nil]
      rfl
  · intro i scene hscene
    by_cases hi : ref.session = i
    · subst hi
      obtain ⟨-, hthis, -, hroom, -⟩ := (world.scene?_eq_some_iff _ scene).1 hscene
      rw [hsession] at hthis
      simp only [if_true]
      rw [hroom, Option.some.inj hthis] at hmove
      exact .single (.moved hmove)
    · simp only [hi, if_false]
      exact h.steps_of_touch hsession htouch hi hscene

/-! ## Runs and scenes -/

theorem of_happen_stimulus {world world' : World} {stimulus : Server.Stimulus}
    (h : world.happen (.stimulus stimulus) = some world') :
    stimulus.admitted world.server = true
      ∧ world' = ⟨world.server.receive stimulus, world.givenAfter stimulus⟩ := by
  obtain ⟨hadmitted, hworld⟩ := Option.ite_none_right_eq_some.1 h
  exact ⟨hadmitted, (Option.some.inj hworld).symm⟩

theorem leads_happen {world world' : World} (h : world.Sound) {happening : Happening}
    (hhappen : world.happen happening = some world') : world.Leads world' := by
  cases happening with
  | clock time =>
      obtain rfl := Option.some.inj hhappen
      exact leads_clock h time
  | move ref =>
      obtain ⟨server, hstep, rfl⟩ := Option.map_eq_some_iff.1 hhappen
      exact leads_move h hstep
  | stimulus stimulus =>
      obtain ⟨hadmitted, rfl⟩ := of_happen_stimulus hhappen
      cases stimulus with
      | connect claimed requests arriving input script =>
          exact leads_connect h ⟨claimed, requests, input, []⟩ arriving script
      | endRequests session =>
          have hgiven : world.given.modify session id = world.given := List.modify_id ..
          have hleads := leads_modify h session
            (fun s => { s with requests := s.requests.close }) id (fun _ => rfl)
            fun scene _ => .askedAll
          rwa [hgiven] at hleads
      | feed session event =>
          exact leads_modify h session (fun s => { s with reader := s.reader.push event })
            (fun given => { given with input := given.input ++ [event] }) (fun _ => rfl)
            fun scene _ => .fed event
      | rescript session script =>
          exact leads_modify h session (fun s => { s with screen := s.screen.rescript script })
            (fun given => { given with scripts := given.scripts ++ [script] }) (fun _ => rfl)
            fun scene _ => .rescripted script
      | room ops => exact leads_performs h hadmitted
      | request session kind => exact leads_request h session kind

theorem leads_of_run {world world' : World} (h : world.Sound) {history : List Happening}
    (hrun : world.run history = some world') : world.Leads world' := by
  induction history generalizing world with
  | nil =>
      obtain rfl := Option.some.inj hrun
      exact .refl h
  | cons happening later ih =>
      obtain ⟨next, hnext, hlater⟩ := Option.bind_eq_some_iff.1 hrun
      have hfirst := leads_happen h hnext
      exact hfirst.trans (ih hfirst.sound hlater)

theorem sound_of_run {stamp : String} {picker : ColorPicker} {history : List Happening}
    {world : World} (hrun : (start stamp picker).run history = some world) : world.Sound :=
  (leads_of_run (sound_start stamp picker) hrun).sound

/-- Each session of a run is in a scene that it can reach by steps of its own. -/
theorem reachable_of_run {stamp : String} {picker : ColorPicker} {history : List Happening}
    {world : World} (hrun : (start stamp picker).run history = some world) {i : Nat} {scene : Scene}
    (hscene : world.scene? i = some scene) : scene.Reachable :=
  (leads_of_run (sound_start stamp picker) hrun).opens i scene rfl hscene

end World

end LineChat
